import Sandscript.Text.Basic

/-!
# Numbered listings

A listing shows the lines of a text behind their numbers. The numbers are right-aligned in a column
of at least four places, so that all lines of a listing start at the same place.
-/

namespace Sandscript

namespace Text

/-- The places that the line numbers of a listing take. -/
def numberWidth (count : Nat) : Nat := max 4 (ofNat (max count 1)).length

/-- A number in a column of the given width. -/
def alignRight (width : Nat) (t : Text) : Text := List.replicate (width - t.length) ' ' ++ t

/-- The lines of a listing, the first with the given number. -/
def listing (width : Nat) : Nat → List Text → Text
  | _, [] => []
  | n, l :: ls =>
    alignRight width (ofNat n) ++ " | ".toList ++ l ++ '\n' :: listing width (n + 1) ls

/-- The listing of a text. -/
def numbered (t : Text) : Text :=
  let ls := endedLines t
  listing (numberWidth ls.length) 1 ls

end Text

end Sandscript
