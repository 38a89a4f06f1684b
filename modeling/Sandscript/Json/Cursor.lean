import Sandscript.Text.Utf8

/-!
# Reading JSON: cursors and faults

JSON is read byte by byte, and a fault names the place where it was noticed. A `Cursor` is the bytes
still to be read and the number of bytes before them. A fault is reported at the cursor (`fail`), or
one byte further if the next byte is at fault and was only looked at (`failNext`).
-/

namespace Sandscript

namespace Json

/-- What is wrong with a JSON text. -/
inductive Fault where
  | endInObject
  | endInList
  | endInValue
  | endInString
  | keyNotString
  | commaOrBrace
  | commaOrBracket
  | colon
  | trailingComma
  | trailingCharacters
  | value
  | ident
  | number
  | numberRange
  | controlCharacter
  | escape
  | loneSurrogate
  | endOfHexEscape
  /-- A value of another type than wanted. -/
  | wrongType (found wanted : Text)
  /-- A value of the wanted type that is not allowed. -/
  | wrongValue (found wanted : Text)
  | duplicateField (name : Text)
deriving DecidableEq, Repr

/-- The wording of a fault. -/
def Fault.message : Fault → Text
  | endInObject => "EOF while parsing an object".toList
  | endInList => "EOF while parsing a list".toList
  | endInValue => "EOF while parsing a value".toList
  | endInString => "EOF while parsing a string".toList
  | keyNotString => "key must be a string".toList
  | commaOrBrace => "expected `,` or `\x7d`".toList
  | commaOrBracket => "expected `,` or `]`".toList
  | colon => "expected `:`".toList
  | trailingComma => "trailing comma".toList
  | trailingCharacters => "trailing characters".toList
  | value => "expected value".toList
  | ident => "expected ident".toList
  | number => "invalid number".toList
  | numberRange => "number out of range".toList
  | controlCharacter =>
    "control character (\\u0000-\\u001F) found while parsing a string".toList
  | escape => "invalid escape".toList
  | loneSurrogate => "lone leading surrogate in hex escape".toList
  | endOfHexEscape => "unexpected end of hex escape".toList
  | wrongType found wanted =>
    "invalid type: ".toList ++ found ++ ", expected ".toList ++ wanted
  | wrongValue found wanted =>
    "invalid value: ".toList ++ found ++ ", expected ".toList ++ wanted
  | duplicateField name => "duplicate field `".toList ++ name ++ "`".toList

/-- A place in a JSON text. -/
structure Cursor where
  /-- The bytes from here on. -/
  rest : Bytes
  /-- The number of bytes before here. -/
  index : Nat
deriving Repr

/-- A fault and the number of bytes before the place it is reported at. -/
structure Located where
  fault : Fault
  index : Nat
deriving Repr

namespace Cursor

/-- The start of a text. -/
def start (bytes : Bytes) : Cursor := ⟨bytes, 0⟩

/-- The cursor after the next `n` bytes. -/
def advance (c : Cursor) (n : Nat) : Cursor := ⟨c.rest.drop n, c.index + min n c.rest.length⟩

/-- The next byte, read as a character. -/
def peek? (c : Cursor) : Option Char := c.rest.head?.map fun b => Char.ofNat b.toNat

/-- Reports a fault here. -/
def fail {α : Type} (c : Cursor) (fault : Fault) : Except Located α := .error ⟨fault, c.index⟩

/-- Reports a fault of the next byte. -/
def failNext {α : Type} (c : Cursor) (fault : Fault) : Except Located α :=
  (c.advance 1).fail fault

/-- JSON's own blanks. -/
def isSpace (b : UInt8) : Bool := b == 0x20 || b == 0x0A || b == 0x09 || b == 0x0D

/-- Decimal digits. -/
def isDigit (b : UInt8) : Bool := 0x30 ≤ b && b ≤ 0x39

/-- The cursor after blanks. -/
def skipSpace (c : Cursor) : Cursor := c.advance (c.rest.takeWhile isSpace).length

end Cursor

/-- Reads the given characters one by one. -/
def expect (c : Cursor) : Text → Except Located Cursor
  | [] => .ok c
  | x :: xs =>
    match c.peek? with
    | none => c.fail .endInValue
    | some y => if x = y then expect (c.advance 1) xs else (c.advance 1).fail .ident

/-- The line of a place and the bytes before it on its line. -/
def position (bytes : Bytes) (index : Nat) : Nat × Nat :=
  let before := bytes.take index
  (1 + before.count 0x0A, (before.reverse.takeWhile (· != 0x0A)).length)

/-- The wording of a fault with its place. -/
def Located.message (bytes : Bytes) (f : Located) : Text :=
  let (line, column) := position bytes f.index
  f.fault.message ++ " at line ".toList ++ Text.ofNat line ++ " column ".toList ++
    Text.ofNat column

end Json

end Sandscript
