import Mathlib
import Sandscript.Proofs.Scanning

/-!
# The scanner's account of lines

A statement carries its text, the number of its first line, and how many lines it covers. The three
are kept apart, and every message about a script rests on their agreement. They agree on all texts,
also on one that ends inside a call:

* `Follows` — a statement starts where the one before it ended;
* `isChain_number`, `sum_lineCount_number` — numbering groups one after another keeps the account;
* `scan_accounts` — nothing of a text is lost or added, and every line is counted once.
-/

namespace Sandscript

namespace Statement

open Text (lines unlines)

/-- The second statement starts on the line after the last line of the first. -/
def Follows (s next : Statement) : Prop := next.line = s.line + s.lineCount

instance (s next : Statement) : Decidable (Follows s next) :=
  inferInstanceAs (Decidable (_ = _))

-- ---------------------------------------------------------------------------
-- Numbering
-- ---------------------------------------------------------------------------

/-- The first of numbered statements has the number that numbering began with. -/
theorem line_of_mem_head?_number {n : Nat} {gs : List (List Text)} {s : Statement}
    (h : s ∈ (number n gs).head?) : s.line = n := by
  cases gs with
  | nil => simp [number] at h
  | cons g gs =>
    rw [number, List.head?_cons, Option.mem_some_iff] at h
    rw [← h]
    rfl

/-- Numbered groups follow one another: each starts where the one before it ends. -/
theorem isChain_number (n : Nat) (gs : List (List Text)) : (number n gs).IsChain Follows := by
  induction gs generalizing n with
  | nil => exact .nil
  | cons g gs ih =>
    rw [number, List.isChain_cons]
    refine ⟨fun next hnext => ?_, ih (n + g.length)⟩
    exact line_of_mem_head?_number hnext

/-- A statement has as many lines as the group it is made of. -/
theorem map_lineCount_number (n : Nat) (gs : List (List Text)) :
    (number n gs).map lineCount = gs.map List.length := by
  induction gs generalizing n with
  | nil => rfl
  | cons g gs ih =>
    rw [number, List.map_cons, List.map_cons, ih]
    rfl

theorem sum_lineCount_number (n : Nat) (gs : List (List Text)) :
    ((number n gs).map lineCount).sum = gs.flatten.length := by
  rw [map_lineCount_number, List.length_flatten]

-- ---------------------------------------------------------------------------
-- Scripts
-- ---------------------------------------------------------------------------

/-- The count that a statement carries is the number of lines of its text. -/
theorem MadeOf.lineCount_eq {s : Statement} {g : List Text} (h : MadeOf s g) :
    s.lineCount = s.text.count '\n' + 1 := by
  rw [h.count_eq, ← Text.length_lines, h.lines_eq]

/-- **Every line of a script is accounted for once.** The texts of the statements, joined again, are
the script. The first statement is on line one, each other one follows the one before it, a
statement covers as many lines as its text has, and all of them together cover the script. -/
theorem scan_accounts (t : Text) :
    unlines ((scan t).map text) = t ∧
    (scan t).head?.map line = some 1 ∧
    (scan t).IsChain Follows ∧
    (∀ s ∈ scan t, s.lineCount = s.text.count '\n' + 1) ∧
    ((scan t).map lineCount).sum = t.count '\n' + 1 := by
  refine ⟨scan_texts t, ?_, isChain_number _ _, fun s hs => ?_, ?_⟩
  · obtain ⟨first, rest, hscan⟩ := List.exists_cons_of_ne_nil (scan_ne_nil t)
    have hfirst : first ∈ (scan t).head? := by rw [hscan]; rfl
    rw [hscan, List.head?_cons, Option.map_some, line_of_mem_head?_number hfirst]
  · obtain ⟨pre, post, hsplit⟩ := List.append_of_mem hs
    obtain ⟨⟨g, hmade⟩, -⟩ := scan_split hsplit
    exact hmade.lineCount_eq
  · rw [scan, sum_lineCount_number, group_flatten, List.nil_append, Text.length_lines]

/-- A call over two lines with a carriage return in it, a blank line, and a call that the script
ends inside of: the last statement is on line four and covers the two lines that are left. -/
theorem scan_accounts_open_end :
    let t := "f(1,\r\n2)\n\ng(\n".toList
    ∃ s, s ∈ scan t ∧ s.unterminated = true ∧ s.line = 4 ∧ s.lineCount = s.text.count '\n' + 1 ∧
      s.text = "g(\n".toList ∧ unlines ((scan t).map text) = t ∧
      ((scan t).map lineCount).sum = 5 := by
  intro t
  obtain ⟨htexts, -, -, hcounts, hsum⟩ := scan_accounts t
  have hs : (⟨"g(\n".toList, 4, 2, true⟩ : Statement) ∈ scan t := by decide
  exact ⟨_, hs, rfl, rfl, hcounts _ hs, rfl, htexts, hsum⟩

end Statement

end Sandscript
