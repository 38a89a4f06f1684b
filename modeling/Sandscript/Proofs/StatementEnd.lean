import Sandscript.Proofs.Blanks
import Sandscript.Terminator

/-!
# Ending a statement

Ending a statement leaves it as it is or puts the mark in the place of the blanks at its end
(`terminate_eq`). Which of the two happens depends on the whole statement (`needsEnd_iff`), the
blanks at its ends apart (`needsEnd_append_blanks`). But behind the mark and behind a brace nothing
is ever appended (`terminate_of_closer`), so a statement is ended once (`terminate_terminate`).
-/

namespace Sandscript

open Text (trim trimEnd AllBlank)
open Terminator (terminate needsEnd)

/-- A blank text gets no mark. -/
theorem terminate_of_allBlank {t : Text} (h : AllBlank t) : terminate t = t := by
  have hno : needsEnd t = false := by
    rw [needsEnd, Text.trim_eq_nil_iff.mpr h]
    rfl
  rw [terminate, hno]
  exact if_neg Bool.false_ne_true

/-- On a text that does not end with a blank, ending it appends the mark or nothing. -/
theorem terminate_cases {t : Text} (h : ∀ c, t.getLast? = some c → Text.isBlank c = false) :
    (needsEnd t = false ∧ terminate t = t) ∨
      (needsEnd t = true ∧ terminate t = t ++ [Terminator.mark]) := by
  rw [terminate, Text.trimEnd_of_last h]
  cases hneeds : needsEnd t with
  | false => exact Or.inl ⟨rfl, if_neg Bool.false_ne_true⟩
  | true => exact Or.inr ⟨rfl, if_pos rfl⟩

/-- The characters after which a statement gets no end. -/
def Terminator.closers : List Char := [Terminator.mark, '\x7b', '\x7d']

/-- The text ends with a closer. -/
def Terminator.EndsClosed (t : Text) : Prop := ∃ c ∈ Terminator.closers, t.getLast? = some c

instance (t : Text) : Decidable (Terminator.EndsClosed t) :=
  List.decidableBEx (t.getLast? = some ·) Terminator.closers

/-- When a statement gets the mark: no earlier case of the list applies, and the last one does. A
closing parenthesis at its end asks for an assignment or a call. -/
theorem needsEnd_iff {t : Text} :
    needsEnd t = true ↔
      ¬ Terminator.EndsClosed (trim t) ∧ Terminator.startsWithHead (trim t) = false ∧
      Terminator.isTerminable (trim t) = true ∧
      ((trim t).getLast? = some ')' → Terminator.hasAssignmentOrCall (trim t) = true) := by
  have hclosed : Terminator.EndsClosed (trim t) ↔ (trim t).getLast? = some Terminator.mark ∨
      (trim t).getLast? = some '\x7b' ∨ (trim t).getLast? = some '\x7d' := by
    simp [Terminator.EndsClosed, Terminator.closers]
  rw [hclosed, needsEnd, Terminator.needsEndTrimmed]
  split_ifs with hnil hmark hbrace hparen hhead
  · rw [List.isEmpty_iff.mp hnil]
    decide
  · simp [hmark]
  · simp only [Bool.or_eq_true, decide_eq_true_eq] at hbrace
    rcases hbrace with hbrace | hbrace <;> simp [hbrace]
  · simp only [Bool.and_eq_true, decide_eq_true_eq, Bool.not_eq_true'] at hparen
    simp [hparen]
  · simp [hhead]
  · simp only [Bool.or_eq_true, decide_eq_true_eq, not_or] at hbrace
    have hcall : (trim t).getLast? = some ')' → Terminator.hasAssignmentOrCall (trim t) = true := by
      simpa using hparen
    rw [Bool.not_eq_true] at hhead
    simp only [hmark, hbrace, or_self, not_false_eq_true, hhead, true_and]
    exact ⟨fun hterminable => ⟨hterminable, hcall⟩, fun h => h.1⟩

/-- Blanks at the ends of a statement have no part in the decision. -/
theorem needsEnd_append_blanks {lead behind : Text} (hlead : AllBlank lead)
    (hbehind : AllBlank behind) (t : Text) : needsEnd (lead ++ t ++ behind) = needsEnd t := by
  rw [needsEnd, needsEnd, Text.trim_append_of_allBlank hlead hbehind]

theorem needsEnd_of_closer {t : Text} {c : Char} (hc : c ∈ Terminator.closers)
    (h : (trim t).getLast? = some c) : needsEnd t = false := by
  rw [← Bool.not_eq_true, needsEnd_iff]
  exact fun hneeds => hneeds.1 ⟨c, hc, h⟩

/-- A text that ends with a closer, up to blanks, is ended. -/
theorem terminate_of_closer (t : Text) {c : Char} (hc : c ∈ Terminator.closers) {b : Text}
    (hb : AllBlank b) : terminate (t ++ c :: b) = t ++ c :: b := by
  have hblank : Text.isBlank c = false := by
    simp only [Terminator.closers, List.mem_cons, List.not_mem_nil, or_false] at hc
    rcases hc with rfl | rfl | rfl <;> decide
  have hno := needsEnd_of_closer hc (Text.getLast?_trim_append t hblank hb)
  rw [terminate, hno, if_neg Bool.false_ne_true]

/-- A statement that gets the mark does not stay as it was. -/
theorem terminate_eq_self_iff {t : Text} : terminate t = t ↔ needsEnd t = false := by
  constructor
  · intro h
    by_contra hneeds
    rw [Bool.not_eq_false] at hneeds
    rw [terminate, if_pos hneeds] at h
    -- it would have to end with the mark already
    have hlast := Text.getLast?_trim_append (trimEnd t) (c := Terminator.mark) (b := []) (by decide)
      (by simp [AllBlank])
    rw [h] at hlast
    exact (needsEnd_iff.mp hneeds).1 ⟨Terminator.mark, by decide, hlast⟩
  · intro h
    rw [terminate, h, if_neg Bool.false_ne_true]

/-- Ending a text leaves it alone or puts the mark behind its last character, without the blanks
there. -/
theorem terminate_eq (t : Text) :
    terminate t = t ∨ terminate t = trimEnd t ++ [Terminator.mark] := by
  unfold terminate
  split
  · exact Or.inr rfl
  · exact Or.inl rfl

/-- A statement is ended once. -/
theorem terminate_terminate (t : Text) : terminate (terminate t) = terminate t := by
  rcases terminate_eq t with heq | heq
  · rw [heq, heq]
  · rw [heq]
    exact terminate_of_closer (trimEnd t) (by decide) fun _ hc => absurd hc List.not_mem_nil

/-- After it was ended a text needs no end, whether it was changed or not. -/
theorem needsEnd_terminate (t : Text) : needsEnd (terminate t) = false :=
  terminate_eq_self_iff.mp (terminate_terminate t)

end Sandscript
