import Mathlib
import Sandscript.Proofs.Listing

/-!
# Reading a listing back

A listing can be undone without knowing what was listed. Its rows are cut off at their newlines, and
a row is cut behind the first divider: what stands before is the label and what stands after is the
line. That this finds the line needs only that a label holds no divider of its own
(`cutLabel_label`).

All labels of a listing are of one length. The width is taken once, from the count of the lines,
and each number is written on its own, so this rests on the numbers up to the count having no more
digits than the count (`length_ofNat_le`).

* `map_cutLabel_labelled` — the rows of a listing, cut, are the labels and the lines;
* `numbered_recovers` — hence a listing determines the lines of its text.
-/

namespace Sandscript

namespace Text

/-- The lines of a text in which every line is ended with a newline. -/
def rows (t : Text) : List Text := (lines t).dropLast

/-- What divides a label from its line. -/
def divider : Text := " | ".toList

/-- A row up to its first divider, which is included, and what stands behind it. A row without a
divider is all label. -/
def cutLabel : Text → Text × Text
  | [] => ([], [])
  | c :: t =>
    if divider.isPrefixOf (c :: t) then (divider, (c :: t).drop divider.length)
    else ((cutLabel t).map (c :: ·) id)

/-- The labels of a listing. -/
def labels (listing : Text) : List Text := ((rows listing).map cutLabel).map Prod.fst

/-- The lines of a listing without their labels. -/
def unlabelled (listing : Text) : List Text := ((rows listing).map cutLabel).map Prod.snd

/-- The number that a label shows: spaces, digits, and the divider. -/
def readLabel? (label : Text) : Option Nat :=
  let shown := label.dropWhile (· == ' ')
  let digits := shown.takeWhile Char.isDigit
  if digits ≠ [] ∧ shown.dropWhile Char.isDigit = divider then some (Nat.ofDigitChars 10 digits 0)
  else none

-- ---------------------------------------------------------------------------
-- Labels
-- ---------------------------------------------------------------------------

/-- A number has no more digits than a larger one. -/
theorem length_ofNat_le {n m : Nat} (h : n ≤ m) : (ofNat n).length ≤ (ofNat m).length := by
  have hpos : 0 < (ofNat m).length := Nat.length_toDigits_pos
  have hm : m < 10 ^ (ofNat m).length :=
    (Nat.length_toDigits_le_iff (by omega) hpos).mp (Nat.le_refl _)
  exact (Nat.length_toDigits_le_iff (by omega) hpos).mpr (by omega)

/-- The width of the numbers is that of the last one, and four at least. -/
theorem numberWidth_eq (count : Nat) : numberWidth count = max 4 (ofNat count).length := by
  unfold numberWidth
  cases count with
  | zero => decide
  | succ count => rw [show max (count + 1) 1 = count + 1 by omega]

theorem length_alignRight {width : Nat} {t : Text} (h : t.length ≤ width) :
    (alignRight width t).length = width := by
  unfold alignRight
  rw [List.length_append, List.length_replicate]
  omega

/-- All labels of a listing have the same length, so the lines stand below each other. -/
theorem length_label {n count : Nat} (h : n ≤ count) :
    (label (numberWidth count) n).length = max 4 (ofNat count).length + 3 := by
  have hdigits := length_ofNat_le h
  have hfits : (ofNat n).length ≤ numberWidth count := by
    rw [numberWidth_eq]
    omega
  rw [label, List.length_append, length_alignRight hfits, numberWidth_eq]
  rfl

/-- The first divider of a row stands behind everything that holds no stroke. So the line itself may
hold dividers, and the row is still cut at the right place. -/
theorem cutLabel_append {before : Text} (h : '|' ∉ before) (line : Text) :
    cutLabel (before ++ divider ++ line) = (before ++ divider, line) := by
  induction before with
  | nil => rfl
  | cons c before ih =>
    rw [List.mem_cons, not_or] at h
    -- a divider that starts here would have its stroke in the next place
    have hnot : divider.isPrefixOf (c :: (before ++ divider ++ line)) = false := by
      rw [← Bool.not_eq_true, List.isPrefixOf_iff_prefix]
      intro hin
      have hnext := (List.cons_prefix_cons.mp hin).2
      cases before with
      | nil => exact absurd (List.cons_prefix_cons.mp hnext).1 (by decide)
      | cons d before =>
        have hd := (List.cons_prefix_cons.mp hnext).1
        exact h.2 (hd ▸ List.mem_cons_self ..)
    rw [List.cons_append, List.cons_append, cutLabel, hnot, if_neg Bool.false_ne_true, ih h.2]
    rfl

theorem stroke_notMem_alignRight (width n : Nat) : '|' ∉ alignRight width (ofNat n) := by
  intro hin
  rcases List.mem_append.mp hin with hpad | hdigit
  · exact absurd (List.mem_replicate.mp hpad).2 (by decide)
  · exact absurd (Nat.isDigit_of_mem_toDigits (by decide) (by decide) hdigit) (by decide)

/-- A label is cut off at its stroke, whatever the line holds, strokes included. -/
theorem cutLabel_label (width n : Nat) (line : Text) :
    cutLabel (label width n ++ line) = (label width n, line) :=
  cutLabel_append (stroke_notMem_alignRight width n) line

/-- The number of a label is read back. The blanks in front are skipped, and then come the digits of
the number and the divider. -/
theorem readLabel?_label (width n : Nat) : readLabel? (label width n) = some n := by
  have hdigits : ∀ c ∈ ofNat n, c.isDigit = true := fun c hc =>
    Nat.isDigit_of_mem_toDigits (by decide) (by decide) hc
  obtain ⟨first, more, hfirst⟩ := List.exists_cons_of_ne_nil
    (show ofNat n ≠ [] from Nat.toDigits_ne_nil)
  have hblank : (first == ' ') = false := by
    have hdigit := hdigits first (hfirst ▸ List.mem_cons_self ..)
    rw [beq_eq_false_iff_ne]
    rintro rfl
    exact absurd hdigit (by decide)
  -- the blanks in front are those of the alignment
  have hshown : (label width n).dropWhile (· == ' ') = ofNat n ++ divider := by
    show (alignRight width (ofNat n) ++ divider).dropWhile (· == ' ') = ofNat n ++ divider
    rw [alignRight, List.append_assoc, List.dropWhile_append_of_pos (by simp), hfirst]
    simp [hblank]
  have htake : (ofNat n ++ divider).takeWhile Char.isDigit = ofNat n := by
    rw [List.takeWhile_append_of_pos hdigits]
    simp [divider]
  have hdrop : (ofNat n ++ divider).dropWhile Char.isDigit = divider := by
    rw [List.dropWhile_append_of_pos hdigits]
    rfl
  have hne : ofNat n ≠ [] := by simp [hfirst]
  simp only [readLabel?, hshown, htake, hdrop, and_true]
  rw [if_pos hne]
  exact congrArg some Nat.ofDigitChars_ten_toDigits

-- ---------------------------------------------------------------------------
-- Rows
-- ---------------------------------------------------------------------------

/-- The rows of a listing, cut behind their labels. -/
theorem map_cutLabel_labelled (width n : Nat) (ls : List Text) :
    (labelled width n ls).map cutLabel =
      ((List.range' n ls.length).map (label width)).zip ls := by
  induction ls generalizing n with
  | nil => rfl
  | cons l ls ih =>
    rw [labelled, List.map_cons, cutLabel_label, ih, List.length_cons, List.range'_succ,
      List.map_cons, List.zip_cons_cons]

theorem rows_numbered (t : Text) :
    rows (numbered t) = labelled (numberWidth (endedLines t).length) 1 (endedLines t) := by
  rw [rows, lines_numbered, List.dropLast_concat]

theorem closed_rows_numbered (t : Text) : closed (rows (numbered t)) = numbered t := by
  rw [rows_numbered, ← listing_eq_closed]
  rfl

theorem labels_numbered (t : Text) :
    labels (numbered t) =
      (List.range' 1 (endedLines t).length).map (label (numberWidth (endedLines t).length)) := by
  rw [labels, rows_numbered, map_cutLabel_labelled, List.map_fst_zip (by simp)]

/-- Without its labels a listing is the lines of the text. -/
theorem unlabelled_numbered (t : Text) : unlabelled (numbered t) = endedLines t := by
  rw [unlabelled, rows_numbered, map_cutLabel_labelled, List.map_snd_zip (by simp)]

theorem length_of_mem_labels {t label : Text} (h : label ∈ labels (numbered t)) :
    label.length = max 4 (ofNat (endedLines t).length).length + 3 := by
  rw [labels_numbered] at h
  obtain ⟨k, hk, rfl⟩ := List.mem_map.mp h
  have hrange := List.mem_range'_1.mp hk
  exact length_label (by omega)

/-- **A listing can be read back.** It consists of as many newline-ended rows as the text has lines.
The labels of all rows have the same length, with room for the digits of the count and for four at
least; they show the numbers from one on; and what stands behind them are the lines of the text. So
texts with the same listing have the same lines. -/
theorem numbered_recovers (t : Text) :
    numbered t = closed (rows (numbered t)) ∧
    (rows (numbered t)).length = (endedLines t).length ∧
    (∀ label ∈ labels (numbered t),
      label.length = max 4 (ofNat (endedLines t).length).length + 3) ∧
    (labels (numbered t)).map readLabel? = (List.range' 1 (endedLines t).length).map some ∧
    unlabelled (numbered t) = endedLines t ∧
    ∀ t', numbered t' = numbered t → endedLines t' = endedLines t := by
  refine ⟨(closed_rows_numbered t).symm, ?_, fun _ => length_of_mem_labels, ?_,
    unlabelled_numbered t, fun t' h => ?_⟩
  · rw [rows_numbered, length_labelled]
  · rw [labels_numbered, List.map_map]
    exact List.map_congr_left fun k _ => readLabel?_label _ k
  · rw [← unlabelled_numbered t', h, unlabelled_numbered]

/-- A line that looks like a row itself, an empty one and one that ends inside a line end: the same
listing as without the carriage return before the newline, and another one than without the last. -/
theorem numbered_recovers_line_ends :
    let t := "12 | a\r\n\nb\r".toList
    numbered t = "   1 | 12 | a\n   2 | \n   3 | b\r\n".toList ∧
    unlabelled (numbered t) = ["12 | a".toList, [], "b\r".toList] ∧
    (∀ label ∈ labels (numbered t), label.length = 7) ∧
    endedLines "12 | a\n\nb\r\r\n".toList = endedLines t := by
  intro t
  obtain ⟨-, -, hlength, -, hlines, hsame⟩ := numbered_recovers t
  refine ⟨by decide, hlines.trans (by decide), fun label hin => ?_, hsame _ (by decide)⟩
  exact (hlength label hin).trans (by decide)

end Text

end Sandscript
