/-!
# Texts

A text is a list of code points. This module holds the operations on texts that every stage of
the toolchain uses: blanks and trimming, cutting at a separator and joining again, and looking for
one text inside another.

Cutting and joining are inverse to each other in the direction that matters for line accounting:
`join_split` says that the pieces of a text, joined with the separator, are the text.
-/

namespace Sandscript

/-- Texts are sequences of code points. -/
abbrev Text := List Char

namespace Text

-- ---------------------------------------------------------------------------
-- Blanks
-- ---------------------------------------------------------------------------

/-- The characters with the Unicode property White_Space. -/
def isBlank (c : Char) : Bool :=
  let n := c.toNat
  (9 ≤ n && n ≤ 13) || n == 0x20 || n == 0x85 || n == 0xA0 || n == 0x1680 ||
    (0x2000 ≤ n && n ≤ 0x200A) || n == 0x2028 || n == 0x2029 || n == 0x202F || n == 0x205F ||
    n == 0x3000

/-- The blanks that a text starts with. -/
def indent (t : Text) : Text := t.takeWhile isBlank

/-- A text without the blanks that it starts with. -/
def trimStart (t : Text) : Text := t.dropWhile isBlank

/-- A text without the blanks that it ends with. -/
def trimEnd (t : Text) : Text := (t.reverse.dropWhile isBlank).reverse

/-- A text without the blanks at either end. -/
def trim (t : Text) : Text := trimEnd (trimStart t)

/-- What may follow the last word of a statement: blanks, at most one `;`, blanks. -/
def isStatementEnd (t : Text) : Bool :=
  match trimStart t with
  | [] => true
  | c :: rest => c == ';' && (trimStart rest).isEmpty

theorem indent_append_trimStart (t : Text) : indent t ++ trimStart t = t :=
  List.takeWhile_append_dropWhile

-- ---------------------------------------------------------------------------
-- Cutting and joining
-- ---------------------------------------------------------------------------

/-- The pieces of a text between the occurrences of a separator; there is always at least one. -/
def split (sep : Char) : Text → List Text
  | [] => [[]]
  | c :: t =>
    if c = sep then [] :: split sep t
    else match split sep t with
      | [] => [[c]]
      | piece :: pieces => (c :: piece) :: pieces

/-- The pieces one after the other, with a separator text between neighbours. -/
def join (sep : Text) : List Text → Text
  | [] => []
  | [piece] => piece
  | piece :: pieces => piece ++ sep ++ join sep pieces

/-- There is at least one piece. -/
theorem split_ne_nil (sep : Char) (t : Text) : split sep t ≠ [] := by
  cases t with
  | nil => simp [split]
  | cons c t =>
    rw [split]
    split
    · simp
    · split <;> simp

theorem join_cons_of_ne_nil (sep piece : Text) {pieces : List Text} (h : pieces ≠ []) :
    join sep (piece :: pieces) = piece ++ sep ++ join sep pieces := by
  cases pieces with
  | nil => exact absurd rfl h
  | cons _ _ => rfl

/-- Joining the pieces of a text with the separator gives the text back. -/
theorem join_split (sep : Char) (t : Text) : join [sep] (split sep t) = t := by
  induction t with
  | nil => rfl
  | cons c t ih =>
    rw [split]
    split
    · next h =>
      rw [join_cons_of_ne_nil _ _ (split_ne_nil sep t), ih, h]
      rfl
    · split
      · next h => exact absurd h (split_ne_nil sep t)
      · next piece pieces h =>
        rw [h] at ih
        rw [← ih]
        cases pieces <;> rfl

/-- The lines of a text are its pieces between newlines. -/
def lines (t : Text) : List Text := split '\n' t

/-- Lines joined to a text again. -/
def unlines (ls : List Text) : Text := join ['\n'] ls

/-- The lines of a text as a reader of line-ended text counts them: a final newline starts no
further line, and one carriage return directly before a newline belongs to the line end. -/
def endedLines (t : Text) : List Text :=
  match (lines t).reverse with
  | [] => []
  | last :: before =>
    let ended := before.reverse.map fun l =>
      if l.getLast? = some '\r' then l.dropLast else l
    if last.isEmpty then ended else ended ++ [last]

-- ---------------------------------------------------------------------------
-- Looking for a text
-- ---------------------------------------------------------------------------

/-- The first text occurs somewhere in the second. -/
def occursIn (needle : Text) : Text → Bool
  | [] => needle.isEmpty
  | c :: t => needle.isPrefixOf (c :: t) || occursIn needle t

/-- The first text opens the second. -/
def opens (start t : Text) : Bool := start.isPrefixOf t

/-- The first text ends the second. -/
def closes (ending t : Text) : Bool := ending.isSuffixOf t

/-- The decimal digits of a number. -/
def ofNat (n : Nat) : Text := Nat.toDigits 10 n

end Text

end Sandscript
