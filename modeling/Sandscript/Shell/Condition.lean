import Sandscript.Shell.Arithmetic
import Sandscript.Shell.State

/-!
# Conditions

The conditions of `test`: about texts, numbers and files, put together with `!`, `-a`, `-o` and
parentheses. Up to four words are understood by their number, so that a word that looks like an
operator can be an operand.
-/

namespace Sandscript

namespace Shell

/-- Why a condition has no truth value. -/
inductive ConditionError where
  | notNumber (word : Text)
  | unexpectedOperator (word : Text)
  | argumentExpected
  | missingParenthesis

/-- The wording of an error. -/
def ConditionError.message : ConditionError → Text
  | notNumber word => "Illegal number: ".toList ++ word
  | unexpectedOperator word => word ++ ": unexpected operator".toList
  | argumentExpected => "argument expected".toList
  | missingParenthesis => "closing paren expected".toList

/-- Conditions about one word. -/
def unary? (disk : Disk) (base : Location) (op word : Text) : Option Bool :=
  let p := toPath word
  let kindIs := fun (follow : Bool) (test : Entry → Bool) =>
    match disk.find follow base p with
    | .ok (_, e) => test e
    | .error _ => false
  match String.ofList op with
  | "-n" => some (!word.isEmpty)
  | "-z" => some word.isEmpty
  | "-e" | "-r" | "-w" | "-O" | "-G" => some (kindIs true fun _ => true)
  | "-f" => some (kindIs true fun e => Disk.kind e == .file)
  | "-d" => some (kindIs true fun e => Disk.kind e == .directory)
  | "-h" | "-L" => some (kindIs false fun e => Disk.kind e == .link)
  | "-x" => some (kindIs true fun
    | .file _ executable => executable
    | _ => true)
  | "-s" => some (kindIs true fun
    | .file bytes _ => !bytes.isEmpty
    | _ => true)
  | "-t" | "-b" | "-c" | "-p" | "-S" | "-u" | "-g" | "-k" => some false
  | _ => none

/-- The number that a word of a condition writes. -/
def conditionNumber (word : Text) : Except ConditionError Int :=
  match readDecimal? (word.dropWhile isSpace) with
  | some n => .ok n
  | none => .error (.notNumber word)
where
  /-- Decimal digits with a sign. -/
  readDecimal? (t : Text) : Option Int :=
    let (negative, digits) := match t with
      | '-' :: ds => (true, ds)
      | '+' :: ds => (false, ds)
      | ds => (false, ds)
    if digits.isEmpty || !digits.all Char.isDigit then none
    else
      let n := digits.foldl (fun n c => n * 10 + (c.toNat - '0'.toNat)) 0
      some (if negative then -(n : Int) else n)

/-- Conditions about two words. -/
def binary? (disk : Disk) (base : Location) (a op b : Text) :
    Option (Except ConditionError Bool) :=
  let numbers := fun (f : Int → Int → Bool) => some do
    let x ← conditionNumber a
    let y ← conditionNumber b
    return f x y
  match String.ofList op with
  | "=" | "==" => some (.ok (a == b))
  | "!=" => some (.ok (a != b))
  | "<" => some (.ok (a < b))
  | ">" => some (.ok (b < a))
  | "-eq" => numbers (· == ·)
  | "-ne" => numbers (· != ·)
  | "-lt" => numbers (· < ·)
  | "-le" => numbers (· ≤ ·)
  | "-gt" => numbers (· > ·)
  | "-ge" => numbers (· ≥ ·)
  | "-ef" => some (.ok (match disk.find true base (toPath a), disk.find true base (toPath b) with
    | .ok (x, _), .ok (y, _) => x == y
    | _, _ => false))
  | _ => none

mutual

/-- Reads alternatives, and what follows them. -/
def readEither (disk : Disk) (base : Location) (words : List Text) :
    Nat → Except ConditionError (Bool × List Text)
  | 0 => .error .argumentExpected
  | fuel + 1 => do
    let (a, rest) ← readBoth disk base words fuel
    match rest with
    | ['-', 'o'] :: rest =>
      let (b, rest) ← readEither disk base rest fuel
      return (a || b, rest)
    | _ => return (a, rest)

/-- Reads conditions that must all hold, and what follows them. -/
def readBoth (disk : Disk) (base : Location) (words : List Text) :
    Nat → Except ConditionError (Bool × List Text)
  | 0 => .error .argumentExpected
  | fuel + 1 => do
    let (a, rest) ← readNot disk base words fuel
    match rest with
    | ['-', 'a'] :: rest =>
      let (b, rest) ← readBoth disk base rest fuel
      return (a && b, rest)
    | _ => return (a, rest)

/-- Reads one condition, and what follows it. -/
def readNot (disk : Disk) (base : Location) (words : List Text) :
    Nat → Except ConditionError (Bool × List Text)
  | 0 => .error .argumentExpected
  | fuel + 1 =>
    match words with
    | [] => .error .argumentExpected
    | [a] => .ok (!a.isEmpty, [])
    | a :: op :: rest =>
      let three := match rest with
        | b :: after => (binary? disk base a op b).map (·, after)
        | [] => none
      match three with
      | some (answer, after) => answer.map (·, after)
      | none =>
        if a = ['!'] then do
          let (x, rest) ← readNot disk base (op :: rest) fuel
          return (!x, rest)
        else if a = ['('] then do
          let (x, rest) ← readEither disk base (op :: rest) fuel
          match rest with
          | [')'] :: rest => return (x, rest)
          | _ => .error .missingParenthesis
        else match unary? disk base a op with
          | some x => .ok (x, rest)
          | none => .ok (!a.isEmpty, op :: rest)

end

/-- The truth value of the words of a condition; no words are false. -/
def condition (disk : Disk) (base : Location) (words : List Text) : Except ConditionError Bool :=
  match words with
  | [] => .ok false
  | _ => do
    let (answer, rest) ← readEither disk base words (8 * words.length + 8)
    match rest with
    | [] => return answer
    | word :: _ => .error (.unexpectedOperator word)

end Shell

end Sandscript
