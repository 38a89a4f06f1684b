import Mathlib.Data.Nat.Digits.Defs
import Sandscript.Proofs.Positions
import Sandscript.Text.Numbered

/-!
# Lines of a listing

A listing has one line for each line of its text (`lines_numbered`), and that line is the number, a
divider and the line of the text (`numbered_line`). Which lines a text has is a matter of who reads
it: the last one counts only if there is something on it, and a carriage return before a newline is
dropped (`getElem?_endedLines_of_below`, `getElem?_endedLines_last`).
-/

namespace Sandscript

namespace Text

/-- What stands before a line of a listing. -/
def label (width n : Nat) : Text := alignRight width (ofNat n) ++ " | ".toList

/-- The lines of a listing. -/
def labelled (width : Nat) : Nat → List Text → List Text
  | _, [] => []
  | n, l :: ls => (label width n ++ l) :: labelled width (n + 1) ls

/-- A line as a listing shows it: without a carriage return at its end. -/
def chomp (l : Text) : Text := if l.getLast? = some '\r' then l.dropLast else l

theorem listing_eq_closed (width n : Nat) (ls : List Text) :
    listing width n ls = closed (labelled width n ls) := by
  induction ls generalizing n with
  | nil => rfl
  | cons l ls ih => rw [listing, labelled, closed_cons, ih, label]

/-- A labelled line is the label of its number and then the line itself. -/
theorem getElem?_labelled (width n : Nat) (ls : List Text) (k : Nat) :
    (labelled width n ls)[k]? = ls[k]?.map (label width (n + k) ++ ·) := by
  induction ls generalizing n k with
  | nil => simp [labelled]
  | cons l ls ih =>
    cases k with
    | zero => rfl
    | succ k =>
      rw [labelled, List.getElem?_cons_succ, List.getElem?_cons_succ, ih, Nat.add_assoc,
        Nat.add_comm 1 k]

/-- A label stays on its line. -/
theorem newline_notMem_label (width n : Nat) : '\n' ∉ label width n := by
  rw [label, alignRight, ofNat]
  simp only [List.mem_append, List.mem_replicate, not_or, not_and]
  refine ⟨⟨fun _ => by decide, fun hin => ?_⟩, by decide⟩
  have hdigit := Nat.isDigit_of_mem_toDigits (by decide) (by decide) hin
  exact absurd hdigit (by decide)

/-- Labelling keeps every line one line. -/
theorem newline_notMem_labelled {width n : Nat} {ls : List Text} (h : ∀ l ∈ ls, '\n' ∉ l) :
    ∀ l ∈ labelled width n ls, '\n' ∉ l := by
  induction ls generalizing n with
  | nil => simp [labelled]
  | cons l ls ih =>
    intro l' hl'
    rcases List.mem_cons.mp hl' with rfl | hl'
    · rw [List.mem_append, not_or]
      exact ⟨newline_notMem_label width n, h l (List.mem_cons_self ..)⟩
    · exact ih (fun l'' hl'' => h l'' (List.mem_cons_of_mem _ hl'')) l' hl'

/-- The lines of a text as a reader of ended lines counts them. -/
theorem endedLines_eq {t : Text} {init : List Text} {last : Text} (h : lines t = init ++ [last]) :
    endedLines t = init.map chomp ++ (if last.isEmpty then [] else [last]) := by
  have hrev : (lines t).reverse = last :: init.reverse := by
    rw [h, List.reverse_append]
    rfl
  have hchomp : init.map (fun l => if l.getLast? = some '\r' then l.dropLast else l) =
      init.map chomp := rfl
  simp only [endedLines, hrev, List.reverse_reverse, hchomp]
  split <;> simp

/-- A line of a text that another line follows is counted, without a carriage return. -/
theorem getElem?_endedLines_of_below {t : Text} {above : List Text} {line : Text}
    {below : List Text} (h : lines t = above ++ line :: below) (hbelow : below ≠ []) :
    (endedLines t)[above.length]? = some (chomp line) := by
  obtain ⟨init, last, rfl⟩ := List.eq_nil_or_concat below |>.resolve_left hbelow
  have hlines : lines t = (above ++ line :: init) ++ [last] := by
    rw [h, List.concat_eq_append]
    simp
  rw [endedLines_eq hlines]
  simp

/-- The last line of a text is counted if there is something on it. -/
theorem getElem?_endedLines_last {t : Text} {above : List Text} {line : Text}
    (h : lines t = above ++ [line]) (hline : line ≠ []) :
    (endedLines t)[above.length]? = some line := by
  rw [endedLines_eq h]
  simp [hline]

/-- An ended line is a single line. It is a line of the text, of which the carriage return at its
end may have been taken off. -/
theorem newline_notMem_of_mem_endedLines {t line : Text} (h : line ∈ endedLines t) :
    '\n' ∉ line := by
  obtain ⟨init, last, hlines⟩ := List.eq_nil_or_concat (lines t) |>.resolve_left (lines_ne_nil t)
  rw [List.concat_eq_append] at hlines
  have hmem : ∀ l ∈ init ++ [last], '\n' ∉ l := fun l hl =>
    newline_notMem_of_mem_lines (hlines ▸ hl)
  rw [endedLines_eq hlines] at h
  rcases List.mem_append.mp h with hin | hin
  · obtain ⟨l, hl, rfl⟩ := List.mem_map.mp hin
    have hnl := hmem l (List.mem_append_left _ hl)
    rw [chomp]
    split
    · exact fun hin => hnl (List.dropLast_subset l hin)
    · exact hnl
  · split at hin
    · simp at hin
    · rw [List.mem_singleton] at hin
      subst hin
      exact hmem line (by simp)

/-- A listing holds one labelled line for each line of the text, each ended with a newline. -/
theorem lines_numbered (t : Text) :
    lines (numbered t) =
      labelled (numberWidth (endedLines t).length) 1 (endedLines t) ++ [[]] := by
  have hnl : ∀ l ∈ labelled (numberWidth (endedLines t).length) 1 (endedLines t), '\n' ∉ l :=
    newline_notMem_labelled fun l hl => newline_notMem_of_mem_endedLines hl
  have hclosed : numbered t =
      closed (labelled (numberWidth (endedLines t).length) 1 (endedLines t)) ++ [] := by
    rw [List.append_nil]
    exact listing_eq_closed _ 1 (endedLines t)
  rw [hclosed, lines_closed_append, flatMap_lines_of_notMem hnl, lines_nil]

/-- A line of a listing: the number, and the line of the text. -/
theorem numbered_line {t line : Text} {k : Nat} (h : (endedLines t)[k]? = some line) :
    (lines (numbered t))[k]? =
      some (label (numberWidth (endedLines t).length) (k + 1) ++ line) := by
  set width := numberWidth (endedLines t).length with hwidth
  have hget : (labelled width 1 (endedLines t))[k]? = some (label width (k + 1) ++ line) := by
    rw [getElem?_labelled, h, Nat.add_comm 1 k]
    rfl
  have hk := (List.getElem?_eq_some_iff.mp hget).1
  rw [lines_numbered, List.getElem?_append_left hk, hget]

theorem length_labelled (width n : Nat) (ls : List Text) :
    (labelled width n ls).length = ls.length := by
  induction ls generalizing n with
  | nil => rfl
  | cons l ls ih => rw [labelled, List.length_cons, ih, List.length_cons]

theorem count_newline_numbered (t : Text) :
    (numbered t).count '\n' = (endedLines t).length := by
  unfold numbered
  rw [listing_eq_closed, count_newline_closed, length_labelled]
  exact newline_notMem_labelled fun l hl => newline_notMem_of_mem_endedLines hl

/-- A listing starts with the blanks before the number of its first line. -/
theorem head?_numbered {t : Text} (h : endedLines t ≠ []) : (numbered t).head? = some ' ' := by
  obtain ⟨l, ls, hls⟩ := List.exists_cons_of_ne_nil h
  have hroom : ∃ k, numberWidth (l :: ls).length - (ofNat 1).length = k + 1 := by
    have hwidth : 4 ≤ numberWidth (l :: ls).length := Nat.le_max_left ..
    have hdigits : (ofNat 1).length = 1 := rfl
    exact ⟨numberWidth (l :: ls).length - 2, by omega⟩
  obtain ⟨k, hk⟩ := hroom
  unfold numbered
  rw [hls, listing, alignRight, hk, List.replicate_succ]
  rfl

end Text

end Sandscript
