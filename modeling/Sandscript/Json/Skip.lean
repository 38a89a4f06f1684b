import Sandscript.Json.Cursor

/-!
# Reading JSON: values that are not kept

A value that nobody asked for is passed over. It has to be well-formed, but its numbers have no
range, its escapes may name any code unit, and it may be nested to any depth: the open brackets are
kept on a list.
-/

namespace Sandscript

namespace Json

/-- An open bracket. -/
inductive Bracket where
  | list
  | object
deriving DecidableEq, Repr

/-- The bracket that closes an open one. -/
def Bracket.closing : Bracket → Char
  | list => ']'
  | object => '\x7d'

/-- The fault of a text that ends inside a bracket. -/
def Bracket.endFault : Bracket → Fault
  | list => .endInList
  | object => .endInObject

/-- The fault of a missing comma. -/
def Bracket.commaFault : Bracket → Fault
  | list => .commaOrBracket
  | object => .commaOrBrace

/-- Hexadecimal digits. -/
def isHexDigit (b : UInt8) : Bool :=
  Cursor.isDigit b || (0x41 ≤ b && b ≤ 0x46) || (0x61 ≤ b && b ≤ 0x66)

/-- Passes over an escape after its backslash. -/
def skipEscape (c : Cursor) : Except Located Cursor :=
  match c.peek? with
  | none => c.fail .endInString
  | some 'u' =>
    let c := c.advance 1
    if c.rest.length < 4 then (c.advance c.rest.length).fail .endInString
    else if (c.rest.take 4).all isHexDigit then .ok (c.advance 4)
    else (c.advance 4).fail .escape
  | some x =>
    if "\"\\/bfnrt".toList.contains x then .ok (c.advance 1) else (c.advance 1).fail .escape

/-- Passes over a string after its opening quote; each round takes at least one byte. -/
def skipString (c : Cursor) : Nat → Except Located Cursor
  | 0 => c.fail .endInString
  | fuel + 1 =>
    match c.rest with
    | [] => c.fail .endInString
    | b :: _ =>
      if b = 0x22 then .ok (c.advance 1)
      else if b = 0x5C then
        match skipEscape (c.advance 1) with
        | .error fault => .error fault
        | .ok c => skipString c fuel
      else if b < 0x20 then c.fail .controlCharacter
      else skipString (c.advance 1) fuel

/-- The cursor after digits. -/
def skipDigits (c : Cursor) : Cursor := c.advance (c.rest.takeWhile Cursor.isDigit).length

/-- Passes over an exponent after its mark. -/
def skipExponent (c : Cursor) : Except Located Cursor :=
  let c := match c.peek? with
    | some '+' | some '-' => c.advance 1
    | _ => c
  match c.rest with
  | [] => c.fail .number
  | b :: _ => if Cursor.isDigit b then .ok (skipDigits c) else (c.advance 1).fail .number

/-- Passes over the exponent of a number, if there is one. -/
def skipScale (c : Cursor) : Except Located Cursor :=
  match c.peek? with
  | some 'e' | some 'E' => skipExponent (c.advance 1)
  | _ => .ok c

/-- Passes over a fraction after its point. -/
def skipFraction (c : Cursor) : Except Located Cursor :=
  match c.rest with
  | b :: _ => if Cursor.isDigit b then skipScale (skipDigits c) else c.failNext .number
  | [] => c.failNext .number

/-- Passes over what follows the whole part of a number. -/
def skipAfterWhole (c : Cursor) : Except Located Cursor :=
  match c.peek? with
  | some '.' => skipFraction (c.advance 1)
  | _ => skipScale c

/-- Passes over a number after its sign. -/
def skipNumber (c : Cursor) : Except Located Cursor :=
  match c.rest with
  | [] => c.fail .number
  | b :: rest =>
    if !Cursor.isDigit b then (c.advance 1).fail .number
    else if b = 0x30 then
      if (rest.head?.map Cursor.isDigit).getD false then (c.advance 1).failNext .number
      else skipAfterWhole (c.advance 1)
    else skipAfterWhole (skipDigits c)

/-- Passes over one scalar, or opens a bracket. -/
def skipItem (c : Cursor) : Except Located (Option Bracket × Cursor) :=
  match c.peek? with
  | none => c.failNext .endInValue
  | some 'n' => (expect (c.advance 1) "ull".toList).map (none, ·)
  | some 't' => (expect (c.advance 1) "rue".toList).map (none, ·)
  | some 'f' => (expect (c.advance 1) "alse".toList).map (none, ·)
  | some '-' => (skipNumber (c.advance 1)).map (none, ·)
  | some '"' => (skipString (c.advance 1) (c.rest.length + 1)).map (none, ·)
  | some '[' => .ok (some .list, c.advance 1)
  | some '\x7b' => .ok (some .object, c.advance 1)
  | some x => if x.isDigit then (skipNumber c).map (none, ·) else c.failNext .value

/-- Passes over the key of an object and the colon after it. -/
def skipKey (c : Cursor) : Except Located Cursor :=
  let c := c.skipSpace
  match c.peek? with
  | some '"' =>
    match skipString (c.advance 1) (c.rest.length + 1) with
    | .error fault => .error fault
    | .ok c =>
      let c := c.skipSpace
      match c.peek? with
      | some ':' => .ok (c.advance 1)
      | some _ => c.failNext .colon
      | none => c.failNext .endInObject
  | some _ => c.failNext .keyNotString
  | none => c.failNext .endInObject

/-- After an item, or after an opening bracket (`fresh`): closes brackets and passes over a comma.
The answer is the list of brackets that are still open, and the cursor at the next item. -/
def skipBetween (fresh : Bool) (c : Cursor) : List Bracket → Except Located (List Bracket × Cursor)
  | [] => .ok ([], c)
  | b :: stack =>
    let c := c.skipSpace
    match c.peek? with
    | none => c.failNext b.endFault
    | some x =>
      if x = ',' && !fresh then .ok (b :: stack, c.advance 1)
      else if x = b.closing then skipBetween false (c.advance 1) stack
      else if fresh then .ok (b :: stack, c)
      else c.failNext b.commaFault

/-- Passes over a value, inside brackets that are already open. Each round takes at least one byte.
-/
def skipValues (c : Cursor) (stack : List Bracket) : Nat → Except Located Cursor
  | 0 => c.failNext .endInValue
  | fuel + 1 => do
    let (bracket, c) ← skipItem c.skipSpace
    let (stack, c) ← match bracket with
      | some b => skipBetween true c (b :: stack)
      | none => skipBetween false c stack
    match stack with
    | [] => return c
    | b :: _ =>
      let c ← if b = .object then skipKey c else pure c
      skipValues c stack fuel

/-- Passes over one value. -/
def skipValue (c : Cursor) : Except Located Cursor := skipValues c [] (c.rest.length + 1)

end Json

end Sandscript
