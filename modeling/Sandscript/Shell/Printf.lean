import Sandscript.Shell.Arithmetic

/-!
# Printed texts

What the two printing commands write. Both know escapes that start with a backslash; `echo` prints
its words with blanks between them, `printf` fills the conversions of a format and starts over while
words are left.
-/

namespace Sandscript

namespace Shell

/-- The character that a letter stands for after a backslash. -/
def escaped? : Char → Option Char
  | 'a' => some '\x07'
  | 'b' => some '\x08'
  | 'e' => some '\x1b'
  | 'f' => some '\x0c'
  | 'n' => some '\n'
  | 'r' => some '\r'
  | 't' => some '\t'
  | 'v' => some '\x0b'
  | '\\' => some '\\'
  | _ => none

/-- A digit in base eight. -/
def isOctal (c : Char) : Bool := '0' ≤ c && c ≤ '7'

/-- The byte that up to `most` digits in base eight stand for, and the rest. -/
def takeOctal (most : Nat) (t : Text) : Char × Text :=
  let digits := (t.take most).takeWhile isOctal
  let n := digits.foldl (fun n c => n * 8 + (c.toNat - '0'.toNat)) 0
  (Char.ofNat (n % 256), t.drop digits.length)

/-- An escape after its backslash: the characters it stands for, and the rest. -/
def readEscape (t : Text) : Text × Text :=
  match t with
  | [] => (['\\'], [])
  | c :: rest =>
    if isOctal c then
      let (x, rest) := takeOctal 3 t
      ([x], rest)
    else match escaped? c with
      | some x => ([x], rest)
      | none => (['\\'], t)

/-- A printed text, and whether printing ends with it. -/
structure Printed where
  text : Text
  ends : Bool

/-- A text with the escapes of words: a byte in base eight has a leading zero, and `\c` ends all
printing. -/
def unescape (t : Text) : Nat → Printed
  | 0 => ⟨[], false⟩
  | fuel + 1 =>
    match t with
    | [] => ⟨[], false⟩
    | '\\' :: 'c' :: _ => ⟨[], true⟩
    | '\\' :: '0' :: rest =>
      let (x, rest) := takeOctal 3 rest
      let after := unescape rest fuel
      ⟨x :: after.text, after.ends⟩
    | '\\' :: rest =>
      let (xs, rest) := readEscape rest
      let after := unescape rest fuel
      ⟨xs ++ after.text, after.ends⟩
    | c :: rest =>
      let after := unescape rest fuel
      ⟨c :: after.text, after.ends⟩

/-- What `echo` prints. -/
def echo (words : List Text) : Text :=
  let (newline, words) := match words with
    | ['-', 'n'] :: ws => (false, ws)
    | ws => (true, ws)
  let body := Text.join [' '] words
  let printed := unescape body (body.length + 1)
  if printed.ends || !newline then printed.text else printed.text ++ ['\n']

-- ---------------------------------------------------------------------------
-- Conversions
-- ---------------------------------------------------------------------------

/-- A conversion of a format. -/
structure Conversion where
  flags : List Char
  width : Nat
  precision : Option Nat
  letter : Char

/-- A conversion after its percent sign, and the rest. -/
def readConversion (t : Text) : Option (Conversion × Text) :=
  let isFlag := fun c => "-+ #0".toList.contains c
  let flags := t.takeWhile isFlag
  let t := t.drop flags.length
  let width := t.takeWhile Char.isDigit
  let t := t.drop width.length
  let (precision, t) := match t with
    | '.' :: t =>
      let digits := t.takeWhile Char.isDigit
      (some digits, t.drop digits.length)
    | t => (none, t)
  let number := fun (ds : Text) => ds.foldl (fun n c => n * 10 + (c.toNat - '0'.toNat)) 0
  match t with
  | [] => none
  | letter :: rest => some (⟨flags, number width, precision.map number, letter⟩, rest)

/-- A text brought to a width, on the left or with zeros if the flags say so. -/
def pad (c : Conversion) (zeros : Bool) (sign body : Text) : Text :=
  let missing := c.width - (sign.length + body.length)
  if c.flags.contains '-' then sign ++ body ++ List.replicate missing ' '
  else if zeros && c.flags.contains '0' then sign ++ List.replicate missing '0' ++ body
  else List.replicate missing ' ' ++ sign ++ body

/-- The digits of a number in a base. -/
def digitsIn (base n : Nat) : Text := Nat.toDigits base n

/-- The number that a word stands for, and whether it stands for one. -/
def numberOf (word : Text) : Int × Bool :=
  match word with
  | [] => (0, true)
  | '"' :: c :: _ | '\'' :: c :: _ => (c.toNat, true)
  | _ =>
    match readInteger? (word.dropWhile isSpace) with
    | some n => (n, true)
    | none => (0, false)

/-- A number as a conversion writes it. -/
def formatNumber (c : Conversion) (n : Int) : Text :=
  let atLeast := fun (ds : Text) =>
    match c.precision with
    | some p => List.replicate (p - ds.length) '0' ++ ds
    | none => ds
  let zeros := c.precision.isNone
  let unsigned := (n % Nat.pow 2 64).toNat
  let alternative := c.flags.contains '#' && unsigned != 0
  match c.letter with
  | 'u' => pad c zeros [] (atLeast (digitsIn 10 unsigned))
  | 'o' => pad c zeros (if alternative then ['0'] else []) (atLeast (digitsIn 8 unsigned))
  | 'x' => pad c zeros (if alternative then ['0', 'x'] else []) (atLeast (digitsIn 16 unsigned))
  | 'X' =>
    let digits := (digitsIn 16 unsigned).map Char.toUpper
    pad c zeros (if alternative then ['0', 'X'] else []) (atLeast digits)
  | _ =>
    let sign := if n < 0 then ['-'] else if c.flags.contains '+' then ['+']
      else if c.flags.contains ' ' then [' '] else []
    pad c zeros sign (atLeast (digitsIn 10 n.natAbs))

/-- What has been printed from a format, the words left, and the words that are no numbers. -/
structure Filled where
  text : Text := []
  words : List Text
  wrong : List Text := []
  /-- A word has been used. -/
  used : Bool := false
  ends : Bool := false

/-- Prints one conversion with the next word. -/
def fillOne (c : Conversion) (f : Filled) : Filled :=
  let word := f.words.headD []
  let f := { f with words := f.words.drop 1, used := f.used || !f.words.isEmpty }
  let cut := fun (t : Text) => match c.precision with
    | some p => t.take p
    | none => t
  match c.letter with
  | 's' => { f with text := f.text ++ pad c false [] (cut word) }
  | 'c' => { f with text := f.text ++ pad c false [] (word.take 1) }
  | 'b' =>
    let printed := unescape word (word.length + 1)
    { f with text := f.text ++ pad c false [] (cut printed.text), ends := printed.ends }
  | _ =>
    let (n, isNumber) := numberOf word
    { f with
      text := f.text ++ formatNumber c n
      wrong := if isNumber then f.wrong else f.wrong ++ [word] }

/-- Goes through a format once. -/
def fill (t : Text) (f : Filled) : Nat → Filled
  | 0 => f
  | fuel + 1 =>
    if f.ends then f
    else match t with
      | [] => f
      | '\\' :: rest =>
        let (xs, rest) := readEscape rest
        fill rest { f with text := f.text ++ xs } fuel
      | '%' :: '%' :: rest => fill rest { f with text := f.text ++ ['%'] } fuel
      | '%' :: rest =>
        match readConversion rest with
        | none => { f with text := f.text ++ ['%'], ends := true }
        | some (c, rest) => fill rest (fillOne c f) fuel
      | c :: rest => fill rest { f with text := f.text ++ [c] } fuel

/-- Goes through a format until no words are left. -/
def fillAll (format : Text) (f : Filled) : Nat → Filled
  | 0 => f
  | rounds + 1 =>
    let f := fill format { f with used := false } (format.length + 1)
    if f.words.isEmpty || !f.used || f.ends then f else fillAll format f rounds

/-- What `printf` prints, and the words that should have been numbers. -/
def printf (format : Text) (words : List Text) : Text × List Text :=
  let filled := fillAll format { words } (words.length + 1)
  (filled.text, filled.wrong)

end Shell

end Sandscript
