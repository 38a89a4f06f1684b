import Sandscript.Decimal.Shortest
import Sandscript.Json.Cursor
import Sandscript.Text.Quoted

/-!
# Reading JSON: scalars

Strings, numbers and the three literals. A number that fits is an integer; any other is rounded to
a double by scaling its leading digits with a power of ten.
-/

namespace Sandscript

namespace Json

/-- A value that is neither a list nor an object. -/
inductive Scalar where
  | null
  | bool (b : Bool)
  | unsigned (n : Nat)
  | negative (n : Int)
  | float (x : Float)
  | string (t : Text)

/-- Doubles are written with the fewest digits, in full from `0.00001` on and below `10 ^ 16`. -/
def floatLayout : Decimal.Layout := { leastPlain := -5, greatestPlain := 15, exponentDigits := 2 }

/-- How a scalar is named in a message. -/
def Scalar.describe : Scalar → Text
  | null => "null".toList
  | bool true => "boolean `true`".toList
  | bool false => "boolean `false`".toList
  | unsigned n => "integer `".toList ++ Text.ofNat n ++ "`".toList
  | negative n => "integer `-".toList ++ Text.ofNat n.natAbs ++ "`".toList
  | float x => "floating point `".toList ++ Decimal.render floatLayout x ++ "`".toList
  | string t => "string ".toList ++ Text.quote t

-- ---------------------------------------------------------------------------
-- Strings
-- ---------------------------------------------------------------------------

/-- The value of four hexadecimal digits. -/
def hex4? (bytes : Bytes) : Option Nat :=
  bytes.foldlM step 0
where
  step (n : Nat) (b : UInt8) : Option Nat :=
    let d := b.toNat
    if 0x30 ≤ d && d ≤ 0x39 then some (n * 16 + (d - 0x30))
    else if 0x41 ≤ d && d ≤ 0x46 then some (n * 16 + (d - 0x37))
    else if 0x61 ≤ d && d ≤ 0x66 then some (n * 16 + (d - 0x57))
    else none

/-- Reads the four digits of an escape. -/
def readHex4 (c : Cursor) : Except Located (Nat × Cursor) :=
  if c.rest.length < 4 then (c.advance c.rest.length).fail .endInString
  else match hex4? (c.rest.take 4) with
    | none => (c.advance 4).fail .escape
    | some n => .ok (n, c.advance 4)

/-- Reads the mark that a second escape starts with. -/
def expectMark (c : Cursor) (mark : Char) : Except Located Cursor :=
  match c.peek? with
  | none => c.fail .endInString
  | some x => if x = mark then .ok (c.advance 1) else (c.advance 1).fail .endOfHexEscape

/-- Reads an escape by code point, after its mark. A character beyond the first plane takes two. -/
def readCodePoint (c : Cursor) : Except Located (Char × Cursor) := do
  let (n, c) ← readHex4 c
  if 0xDC00 ≤ n && n ≤ 0xDFFF then c.fail .loneSurrogate
  else if 0xD800 ≤ n && n ≤ 0xDBFF then
    let c ← expectMark c '\\'
    let c ← expectMark c 'u'
    let (m, c) ← readHex4 c
    if 0xDC00 ≤ m && m ≤ 0xDFFF then
      return (Char.ofNat (0x10000 + (n - 0xD800) * 0x400 + (m - 0xDC00)), c)
    else c.fail .loneSurrogate
  else return (Char.ofNat n, c)

/-- What an escape of one character stands for. -/
def simpleEscape? : Char → Option Char
  | '"' => some '"'
  | '\\' => some '\\'
  | '/' => some '/'
  | 'b' => some '\x08'
  | 'f' => some '\x0c'
  | 'n' => some '\n'
  | 'r' => some '\r'
  | 't' => some '\t'
  | _ => none

/-- Reads an escape after its backslash. -/
def readEscape (c : Cursor) : Except Located (Char × Cursor) :=
  match c.peek? with
  | none => c.fail .endInString
  | some 'u' => readCodePoint (c.advance 1)
  | some x =>
    match simpleEscape? x with
    | some y => .ok (y, c.advance 1)
    | none => (c.advance 1).fail .escape

/-- Reads a string after its opening quote, given the bytes collected so far; each round takes at
least one byte, so the number of bytes left is fuel enough. -/
def readStringBytes (taken : Bytes) (c : Cursor) : Nat → Except Located (Bytes × Cursor)
  | 0 => c.fail .endInString
  | fuel + 1 =>
    match c.rest with
    | [] => c.fail .endInString
    | b :: _ =>
      if b = 0x22 then .ok (taken, c.advance 1)
      else if b = 0x5C then do
        let (x, c) ← readEscape (c.advance 1)
        readStringBytes (taken ++ Utf8.encode [x]) c fuel
      else if b < 0x20 then (c.advance 1).fail .controlCharacter
      else readStringBytes (taken ++ [b]) (c.advance 1) fuel

/-- Reads a string after its opening quote. -/
def readString (c : Cursor) : Except Located (Text × Cursor) := do
  let (bytes, c) ← readStringBytes [] c (c.rest.length + 1)
  return (Utf8.decodeLossy bytes, c)

-- ---------------------------------------------------------------------------
-- Numbers
-- ---------------------------------------------------------------------------

/-- The greatest integer that is kept as such. -/
def wordMax : Nat := Nat.pow 2 64 - 1

/-- Leading digits, and the power of ten that goes with them. -/
structure Scaled where
  significand : Nat
  exponent : Int

/-- Takes in the digits of the whole part. Once a digit does not fit, it and all that follow only
raise the exponent. -/
def Scaled.whole (s : Scaled) : List Nat → Scaled
  | [] => s
  | d :: ds =>
    if s.exponent = 0 && s.significand * 10 + d ≤ wordMax then
      Scaled.whole { s with significand := s.significand * 10 + d } ds
    else Scaled.whole { s with exponent := s.exponent + 1 } ds

/-- Takes in the digits of the fraction up to the first that does not fit. -/
def Scaled.fraction (s : Scaled) : List Nat → Scaled
  | [] => s
  | d :: ds =>
    if s.significand * 10 + d ≤ wordMax then
      Scaled.fraction ⟨s.significand * 10 + d, s.exponent - 1⟩ ds
    else s

/-- Scales a double down by the greatest power of ten that a double holds until the rest of the
exponent is such a power too. -/
def scaleDown (x : Float) (exponent : Nat) : Nat → Float
  | 0 => x
  | fuel + 1 =>
    if exponent ≤ 308 then x / Float.ofScientific 1 false exponent
    else if x == 0.0 then x
    else scaleDown (x / 1e308) (exponent - 308) fuel

/-- The double of scaled digits, or nothing if it is out of range. -/
def Scaled.toFloat? (s : Scaled) : Option Float :=
  let x := s.significand.toUInt64.toFloat
  if s.exponent < 0 then some (scaleDown x s.exponent.natAbs (s.exponent.natAbs / 308 + 1))
  else if s.exponent > 308 then if s.significand = 0 then some x else none
  else
    let y := x * Float.ofScientific 1 false s.exponent.toNat
    if y.isInf then none else some y

/-- The values of digit characters. -/
def digitValues (bytes : Bytes) : List Nat := bytes.map fun b => b.toNat - 0x30

/-- The digits at a cursor, and the cursor after them. -/
def takeDigits (c : Cursor) : List Nat × Cursor :=
  let digits := c.rest.takeWhile Cursor.isDigit
  (digitValues digits, c.advance digits.length)

/-- The value of digits. -/
def digitsToNat (ds : List Nat) : Nat := ds.foldl (· * 10 + ·) 0

/-- Reads the whole part of a number: a zero alone, or digits that start with none. -/
def readWhole (c : Cursor) : Except Located (List Nat × Cursor) :=
  match c.rest with
  | [] => c.fail .endInValue
  | b :: rest =>
    if !Cursor.isDigit b then (c.advance 1).fail .number
    else if b = 0x30 then
      match rest with
      | b' :: _ => if Cursor.isDigit b' then (c.advance 1).failNext .number
                   else .ok ([0], c.advance 1)
      | [] => .ok ([0], c.advance 1)
    else .ok (takeDigits c)

/-- Reads the digits after a point. -/
def readFraction (c : Cursor) : Except Located (List Nat × Cursor) :=
  match takeDigits c with
  | ([], c) => if c.rest.isEmpty then c.failNext .endInValue else c.failNext .number
  | (ds, c) => .ok (ds, c)

/-- The greatest exponent that is kept exactly. -/
def exponentMax : Nat := Nat.pow 2 31 - 1

/-- The number of leading digits after which an exponent has become too large. -/
def exponentOverflow? (value count : Nat) : List Nat → Option Nat
  | [] => none
  | d :: ds =>
    if value * 10 + d > exponentMax then some (count + 1)
    else exponentOverflow? (value * 10 + d) (count + 1) ds

/-- Reads an exponent after its mark. An exponent that is too large is answered with the cursor at
which that shows. -/
def readExponent (c : Cursor) : Except Located ((Bool × Nat × Option Cursor) × Cursor) :=
  let (negative, c) := match c.peek? with
    | some '+' => (false, c.advance 1)
    | some '-' => (true, c.advance 1)
    | _ => (false, c)
  match c.rest with
  | [] => c.fail .endInValue
  | b :: _ =>
    if !Cursor.isDigit b then (c.advance 1).fail .number
    else
      let (ds, after) := takeDigits c
      match exponentOverflow? 0 0 ds with
      | none => .ok ((negative, digitsToNat ds, none), after)
      | some count => .ok ((negative, 0, some (c.advance count)), after)

/-- The number of scaled digits and an exponent. -/
def scaledNumber (negative : Bool) (s : Scaled) (c : Cursor) : Except Located (Scalar × Cursor) :=
  match s.toFloat? with
  | none => c.fail .numberRange
  | some x => .ok (.float (if negative then -x else x), c)

/-- Reads the exponent of a number, if there is one, after its digits. -/
def readScaled (negative : Bool) (s : Scaled) (c : Cursor) : Except Located (Scalar × Cursor) :=
  match c.peek? with
  | some 'e' | some 'E' => do
    let ((down, exponent, overflow), c) ← readExponent (c.advance 1)
    match overflow with
    | some place =>
      if s.significand != 0 && !down then place.fail .numberRange
      else return (.float (if negative then -0.0 else 0.0), c)
    | none =>
      let exponent := if down then s.exponent - exponent else s.exponent + exponent
      scaledNumber negative { s with exponent } c
  | _ => scaledNumber negative s c

/-- An integer, if it fits; negative zero is none. -/
def integer? (negative : Bool) (n : Nat) : Option Scalar :=
  if negative then
    if 0 < n && n ≤ Nat.pow 2 63 then some (.negative (-n)) else none
  else if n ≤ wordMax then some (.unsigned n) else none

/-- Reads a number after its sign. -/
def readNumber (negative : Bool) (c : Cursor) : Except Located (Scalar × Cursor) := do
  let (ds, c) ← readWhole c
  let s := Scaled.whole ⟨0, 0⟩ ds
  match c.peek? with
  | some '.' =>
    let (fs, c) ← readFraction (c.advance 1)
    readScaled negative (s.fraction fs) c
  | some 'e' | some 'E' => readScaled negative s c
  | _ =>
    match integer? negative (digitsToNat ds) with
    | some n => return (n, c)
    | none => scaledNumber negative s c

-- ---------------------------------------------------------------------------
-- Any scalar
-- ---------------------------------------------------------------------------

/-- Reads the scalar at a cursor. Lists, objects and anything else are not read. -/
def readScalar? (c : Cursor) : Option (Except Located (Scalar × Cursor)) :=
  match c.peek? with
  | some 'n' => some ((expect (c.advance 1) "ull".toList).map (Scalar.null, ·))
  | some 't' => some ((expect (c.advance 1) "rue".toList).map (Scalar.bool true, ·))
  | some 'f' => some ((expect (c.advance 1) "alse".toList).map (Scalar.bool false, ·))
  | some '-' => some (readNumber true (c.advance 1))
  | some '"' => some ((readString (c.advance 1)).map fun (t, c) => (.string t, c))
  | some x => if x.isDigit then some (readNumber false c) else none
  | none => none

/-- The complaint about a value of another type than wanted. A scalar is read first, and a fault in
it comes before the complaint. -/
def wrongType {α : Type} (c : Cursor) (wanted : Text) : Except Located α :=
  match readScalar? c with
  | some (.error fault) => .error fault
  | some (.ok (s, c)) => c.fail (.wrongType s.describe wanted)
  | none =>
    match c.peek? with
    | some '[' => c.fail (.wrongType "sequence".toList wanted)
    | some '\x7b' => c.fail (.wrongType "map".toList wanted)
    | _ => c.failNext .value

end Json

end Sandscript
