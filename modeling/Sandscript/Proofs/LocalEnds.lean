import Mathlib
import Sandscript.Proofs.EntryLines
import Sandscript.Proofs.LoweredLines

/-!
# Ends are set locally

The mark that ends a statement is decided on from the trimmed statement and set in the statement as
it stands, in the place of the blanks at its end (`EndedAs`). Those blanks may hold newlines, and
then setting the mark takes lines away: the number of lines is kept if no newline is among them, and
otherwise only if no mark is set (`length_lines_terminate_iff`). The scanner rules this out. A
statement of several lines that it calls terminated has a closing parenthesis on its last line, so
its blanks at the end stand on that line (`newline_notMem_trail`), and the mark changes this line
only, behind all of its parentheses.

* `endedAs_iff` — where the mark is set, against the trimming that sets it;
* `exists_ended_last_line` — the one line that the mark changes;
* `terminate_closed_local` — what ending keeps of a statement, and that it is done once.
-/

namespace Sandscript

open Text (lines trimEnd trail AllBlank isBlank)
open Terminator (terminate needsEnd)
open Statement (scan balance)

-- ---------------------------------------------------------------------------
-- Setting the mark
-- ---------------------------------------------------------------------------

/-- The second text is the first one with the mark in the place of the blanks at its end. -/
def Terminator.EndedAs (t ended : Text) : Prop :=
  ∃ body blanks, t = body ++ blanks ∧ AllBlank blanks ∧
    (∀ c, body.getLast? = some c → isBlank c = false) ∧ ended = body ++ [';']

open Terminator (EndedAs)

/-- To be ended as a text is to be that text up to its last character that is not blank, and then
the mark. -/
theorem endedAs_iff {t ended : Text} :
    EndedAs t ended ↔ ended = trimEnd t ++ [Terminator.mark] := by
  constructor
  · rintro ⟨body, blanks, rfl, hblanks, hlast, rfl⟩
    rw [Text.trimEnd_append_of_allBlank body hblanks, Text.trimEnd_of_last hlast]
    rfl
  · intro h
    exact ⟨trimEnd t, trail t, (Text.trimEnd_append_trail t).symm, Text.allBlank_trail t,
      Text.last_trimEnd t, h⟩

-- ---------------------------------------------------------------------------
-- Lines
-- ---------------------------------------------------------------------------

/-- Ending a text keeps the number of its lines, unless the mark takes the place of blank ones. This
is the one way in which the ending of a statement can move what follows it. -/
theorem length_lines_terminate_iff {t : Text} :
    (lines (terminate t)).length = (lines t).length ↔ (needsEnd t = true → '\n' ∉ trail t) := by
  rw [Text.length_lines, Text.length_lines]
  cases hneeds : needsEnd t with
  | false => simp [terminate_eq_self_iff.mpr hneeds]
  | true =>
    have hsplit : t.count '\n' = (trimEnd t).count '\n' + (trail t).count '\n' := by
      rw [← List.count_append, Text.trimEnd_append_trail]
    have hmark : [Terminator.mark].count '\n' = 0 := by decide
    have hended : (terminate t).count '\n' = (trimEnd t).count '\n' := by
      rw [terminate, if_pos hneeds, List.count_append, hmark, Nat.add_zero]
    rw [hended, hsplit, ← List.count_eq_zero]
    constructor
    · intro h _
      omega
    · intro h
      rw [h rfl]

/-- A call that is left open loses the blank line behind it. -/
example : lines (terminate "f(\n".toList) = ["f(;".toList] := by decide

/-- The mark changes the last line only. -/
theorem exists_ended_last_line {t : Text} (hneeds : needsEnd t = true) (h : '\n' ∉ trail t) :
    ∃ above body blanks, AllBlank blanks ∧ lines t = above ++ [body ++ blanks] ∧
      lines (terminate t) = above ++ [body ++ [Terminator.mark]] := by
  obtain ⟨above, body, blanks, below, -, hblanks, -, hlines, hended⟩ :=
    Program.exists_ended_line hneeds
  -- a line below this one would be lost, but none is
  have hlen := length_lines_terminate_iff.mpr fun _ => h
  rw [hlines, hended] at hlen
  obtain rfl : below = [] := by simpa using hlen
  exact ⟨above, body, blanks, hblanks, hlines, hended⟩

/-- Ending a statement changes its last line only, if nothing but that line is behind its last
character. -/
theorem dropLast_lines_terminate {t : Text} (h : '\n' ∉ trail t) :
    (lines (terminate t)).dropLast = (lines t).dropLast := by
  cases hneeds : needsEnd t with
  | false => rw [terminate_eq_self_iff.mpr hneeds]
  | true =>
    obtain ⟨above, body, blanks, -, hlines, hended⟩ := exists_ended_last_line hneeds h
    rw [hlines, hended, List.dropLast_concat, List.dropLast_concat]

/-- The mark is no parenthesis, so the balances of all lines stay the same. -/
theorem map_balance_lines_terminate {t : Text} (h : '\n' ∉ trail t) :
    (lines (terminate t)).map balance = (lines t).map balance :=
  map_balance_lines_congr (marks_terminate h)

/-- The blanks at the end of a complete statement hold no line break, because its last line is the
one that closes it. -/
theorem Statement.newline_notMem_trail {script : Text} {s : Statement} (hs : s ∈ scan script)
    (hended : s.unterminated = false) : '\n' ∉ trail s.text := by
  obtain ⟨pre, post, hscan⟩ := List.append_of_mem hs
  obtain ⟨⟨g, hmade⟩, -⟩ := scan_split hscan
  exact hmade.newline_notMem_blanks hended (Text.trimEnd_append_trail s.text).symm
    (Text.allBlank_trail s.text)

/-- **Ending a statement is a closed, local edit.** It leaves the statement as it is or, if the
statement needs an end, puts the mark in the place of the blanks at its end. After that no end is
needed, and ending it again changes nothing. Blanks at either end of a statement have no part in the
decision. A terminated statement of a script keeps its number of lines, the balance of each line and
all of its lines but the last. -/
theorem terminate_closed_local :
    (∀ t, (needsEnd t = false ∧ terminate t = t) ∨
      (needsEnd t = true ∧ EndedAs t (terminate t))) ∧
    (∀ t, needsEnd (terminate t) = false ∧ terminate (terminate t) = terminate t) ∧
    (∀ lead t behind, AllBlank lead → AllBlank behind →
      needsEnd (lead ++ t ++ behind) = needsEnd t) ∧
    ∀ script, ∀ s ∈ scan script, s.unterminated = false →
      (lines (terminate s.text)).length = (lines s.text).length ∧
      (lines (terminate s.text)).map balance = (lines s.text).map balance ∧
      (lines (terminate s.text)).dropLast = (lines s.text).dropLast := by
  refine ⟨fun t => ?_, fun t => ⟨needsEnd_terminate t, terminate_terminate t⟩,
    fun lead t behind hlead hbehind => needsEnd_append_blanks hlead hbehind t,
    fun script s hs hended => ?_⟩
  · cases hneeds : needsEnd t with
    | false => exact Or.inl ⟨rfl, terminate_eq_self_iff.mpr hneeds⟩
    | true => exact Or.inr ⟨rfl, endedAs_iff.mpr (by rw [terminate, if_pos hneeds])⟩
  · have htrail := Statement.newline_notMem_trail hs hended
    exact ⟨length_lines_terminate_iff.mpr fun _ => htrail, map_balance_lines_terminate htrail,
      dropLast_lines_terminate htrail⟩

/-- A call over three lines, with a tab, a wide blank and a carriage return behind it, and an open
call below: the first one is ended on its third line, and no line is lost. -/
theorem terminate_closed_local_three_lines :
    let t := "log(\n  (1\n))\t\u3000\r".toList
    let script := t ++ "\nf(\n".toList
    ∃ s, s ∈ scan script ∧ s.unterminated = false ∧ s.text = t ∧ EndedAs t (terminate t) ∧
      needsEnd (terminate t) = false ∧
      needsEnd ("\n ".toList ++ t ++ "\n".toList) = true ∧
      (lines (terminate t)).length = 3 ∧ (lines (terminate t)).map balance = [1, 1, -2] ∧
      (lines (terminate t)).dropLast = ["log(".toList, "  (1".toList] := by
  intro t script
  obtain ⟨hedit, honce, hdecision, hlines⟩ := terminate_closed_local
  have hs : (⟨t, 1, 3, false⟩ : Statement) ∈ scan script := by decide
  have hneeds : needsEnd t = true := by decide
  obtain ⟨hlength, hbalance, habove⟩ := hlines script _ hs rfl
  refine ⟨_, hs, rfl, rfl, ?_, (honce t).1, ?_, hlength, hbalance, habove⟩
  · rcases hedit t with ⟨hno, -⟩ | ⟨-, hended⟩
    · rw [hneeds] at hno
      exact Bool.noConfusion hno
    · exact hended
  · rw [hdecision _ t _ (by decide) (by decide)]
    exact hneeds

end Sandscript
