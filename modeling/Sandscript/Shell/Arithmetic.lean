import Sandscript.Shell.Reader

/-!
# Shell arithmetic

Expressions over 64-bit integers with the operators of C, read by precedence. Names stand for the
numbers that their parameters hold, and a name without one stands for zero.
-/

namespace Sandscript

namespace Shell

/-- A number brought into the range of 64 bits. -/
def wrap (n : Int) : Int := Int.bmod n (Nat.pow 2 64)

/-- The integer that a text writes: decimal, octal after `0`, hexadecimal after `0x`. -/
def readInteger? (t : Text) : Option Int :=
  let (negative, digits) := match t with
    | '-' :: ds => (true, ds)
    | '+' :: ds => (false, ds)
    | ds => (false, ds)
  let magnitude := match digits with
    | '0' :: 'x' :: ds | '0' :: 'X' :: ds => inBase 16 ds
    | '0' :: ds => if ds.isEmpty then some 0 else inBase 8 ds
    | ds => inBase 10 ds
  magnitude.map fun n => if negative then -(n : Int) else n
where
  /-- The value of a digit. -/
  digit (c : Char) : Nat :=
    if c.isDigit then c.toNat - '0'.toNat
    else if 'a' ≤ c && c ≤ 'f' then c.toNat - 'a'.toNat + 10
    else if 'A' ≤ c && c ≤ 'F' then c.toNat - 'A'.toNat + 10
    else 99
  /-- The number that digits write in a base. -/
  inBase (base : Nat) (ds : Text) : Option Nat :=
    if ds.isEmpty || ds.any (digit · ≥ base) then none
    else some (ds.foldl (fun n c => n * base + digit c) 0)

/-- Truth as a number. -/
def ofBool (b : Bool) : Int := if b then 1 else 0

/-- The binary operators, with their precedence; longer ones first where one starts another. -/
def operators : List (String × Nat) :=
  [("||", 1), ("&&", 2), ("==", 6), ("!=", 6), ("<=", 7), (">=", 7), ("<<", 8), (">>", 8),
    ("|", 3), ("^", 4), ("&", 5), ("<", 7), (">", 7), ("+", 9), ("-", 9), ("*", 10), ("/", 10),
    ("%", 10)]

/-- Why an expression has no value. -/
inductive ArithmeticError where
  | divisionByZero
  | notPrimary
deriving DecidableEq, Repr

/-- The wording of an error. -/
def ArithmeticError.message : ArithmeticError → Text
  | divisionByZero => "division by zero".toList
  | notPrimary => "expecting primary".toList

/-- The value of an operator. -/
def applyOperator (op : String) (a b : Int) : Except ArithmeticError Int :=
  match op with
  | "||" => return (ofBool (a ≠ 0 || b ≠ 0))
  | "&&" => return (ofBool (a ≠ 0 && b ≠ 0))
  | "==" => return (ofBool (a == b))
  | "!=" => return (ofBool (a != b))
  | "<=" => return (ofBool (a ≤ b))
  | ">=" => return (ofBool (a ≥ b))
  | "<" => return (ofBool (a < b))
  | ">" => return (ofBool (a > b))
  | "<<" => return (wrap (a * Nat.pow 2 (b.toNat % 64)))
  | ">>" => return (a / Nat.pow 2 (b.toNat % 64))
  | "|" => return (bits fun x y => x ||| y)
  | "^" => return (bits fun x y => x ^^^ y)
  | "&" => return (bits fun x y => x &&& y)
  | "+" => return (wrap (a + b))
  | "-" => return (wrap (a - b))
  | "*" => return (wrap (a * b))
  | "/" => if b = 0 then .error .divisionByZero else return (wrap (a.tdiv b))
  | "%" => if b = 0 then .error .divisionByZero else return (wrap (a.tmod b))
  | _ => .error .notPrimary
where
  /-- Combines the two numbers bit by bit. -/
  bits (f : Nat → Nat → Nat) : Int :=
    wrap (f (a % Nat.pow 2 64).toNat (b % Nat.pow 2 64).toNat)

mutual

/-- Reads an expression whose operators bind at least as strongly as the given level. -/
def readExpr (lookup : Text → Int) (level : Nat) (t : Text) :
    Nat → Except ArithmeticError (Int × Text)
  | 0 => .error .notPrimary
  | fuel + 1 => do
    let (a, t) ← readOperand lookup (Text.trimStart t) fuel
    readOperators lookup level a t fuel

/-- Reads the operators after an operand. -/
def readOperators (lookup : Text → Int) (level : Nat) (a : Int) (t : Text) :
    Nat → Except ArithmeticError (Int × Text)
  | 0 => .error .notPrimary
  | fuel + 1 => do
    let t := Text.trimStart t
    match operators.find? fun (op, _) => Text.opens op.toList t with
    | some (op, strength) =>
      if strength < level then return (a, t)
      else
        let (b, t) ← readExpr lookup (strength + 1) (t.drop op.length) fuel
        readOperators lookup level (← applyOperator op a b) t fuel
    | none =>
      match t with
      | '?' :: rest =>
        if level > 0 then return (a, t)
        else
          let (yes, rest) ← readExpr lookup 0 rest fuel
          match Text.trimStart rest with
          | ':' :: rest =>
            let (no, rest) ← readExpr lookup 0 rest fuel
            return (if a ≠ 0 then yes else no, rest)
          | _ => .error .notPrimary
      | _ => return (a, t)

/-- Reads a number, a name, a parenthesis or a sign with its operand. -/
def readOperand (lookup : Text → Int) (t : Text) : Nat → Except ArithmeticError (Int × Text)
  | 0 => .error .notPrimary
  | fuel + 1 =>
    match Text.trimStart t with
    | [] => .error .notPrimary
    | '(' :: rest => do
      let (a, rest) ← readExpr lookup 0 rest fuel
      match Text.trimStart rest with
      | ')' :: rest => return (a, rest)
      | _ => .error .notPrimary
    | '-' :: rest => do
      let (a, rest) ← readOperand lookup rest fuel
      return (wrap (-a), rest)
    | '+' :: rest => readOperand lookup rest fuel
    | '!' :: rest => do
      let (a, rest) ← readOperand lookup rest fuel
      return (ofBool (a == 0), rest)
    | '~' :: rest => do
      let (a, rest) ← readOperand lookup rest fuel
      return (wrap (-a - 1), rest)
    | t@(c :: _) =>
      if isNameStart c then
        let name := t.takeWhile isNameRest
        return (lookup name, t.drop name.length)
      else
        let digits := t.takeWhile Char.isAlphanum
        match readInteger? digits with
        | some n => return (n, t.drop digits.length)
        | none => .error .notPrimary

end

/-- The value of an expression; an empty one is zero. -/
def evaluate (lookup : Text → Int) (t : Text) : Except ArithmeticError Int :=
  if (Text.trim t).isEmpty then .ok 0
  else match readExpr lookup 0 t (8 * t.length + 16) with
    | .ok (a, rest) => if (Text.trim rest).isEmpty then .ok a else .error .notPrimary
    | .error e => .error e

end Shell

end Sandscript
