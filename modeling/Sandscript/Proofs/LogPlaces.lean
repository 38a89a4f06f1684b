import Sandscript.Proofs.LoweredLines

/-!
# Where the logging alias is written out

`expandLog` goes through a text from left to right. Here its result is said of the text as a whole:
`console.` is put before the characters at which a free call starts, and the rest stays. Whether a
call is free depends on one character before it, and a line break leaves it free just as the start
of a text does, so lines can be written out apart.

* `FreeCall t n` — a free call starts at position `n` of `t`.
* `expandLogAfter_eq_insertBefore` — the recursion puts the text before these positions.
* `lines_expandLog` — the lines of the result are the lines, each written out.
* `expandLog_exact` — all of this, and what follows from it for lines and parentheses.
-/

namespace Sandscript

open Text (lines unlines isWord)

-- ---------------------------------------------------------------------------
-- Positions
-- ---------------------------------------------------------------------------

/-- A text with another one put before the characters at the chosen positions. -/
def insertBefore (added : Text) (chosen : Nat → Prop) [DecidablePred chosen] (t : Text) : Text :=
  t.zipIdx.flatMap fun p => if chosen p.2 then added ++ [p.1] else [p.1]

/-- A free call of the logging alias starts at a position: `log(` stands there, and the character
before it, if there is one, is no word character, no dot and no dollar sign. -/
def FreeCall (t : Text) (n : Nat) : Prop :=
  "log(".toList <+: t.drop n ∧
    ∀ c ∈ (t.take n).getLast?, isWord c = false ∧ c ≠ '.' ∧ c ≠ '$'

instance (t : Text) : DecidablePred (FreeCall t) := fun _ => inferInstanceAs (Decidable (_ ∧ _))

/-- A free call starts at a position, where the character before the text is given. -/
def FreeCallAfter (before : Option Char) (t : Text) (n : Nat) : Prop :=
  logCall <+: t.drop n ∧ isFreeAfter ((t.take n).getLast?.or before) = true

instance (before : Option Char) (t : Text) : DecidablePred (FreeCallAfter before t) := fun _ =>
  inferInstanceAs (Decidable (_ ∧ _))

/-- A place is free if no character of a name, no dot and no dollar sign stands before it. -/
theorem isFreeAfter_iff {before : Option Char} :
    isFreeAfter before = true ↔ ∀ c ∈ before, isWord c = false ∧ c ≠ '.' ∧ c ≠ '$' := by
  cases before with
  | none => simp [isFreeAfter]
  | some c => simp [isFreeAfter, and_assoc]

theorem freeCallAfter_none {t : Text} {n : Nat} : FreeCallAfter none t n ↔ FreeCall t n := by
  unfold FreeCallAfter FreeCall
  rw [Option.or_none, isFreeAfter_iff]
  rfl

theorem freeCallAfter_zero {before : Option Char} {t : Text} :
    FreeCallAfter before t 0 ↔ logCall <+: t ∧ isFreeAfter before = true := by
  simp [FreeCallAfter]

/-- At any later place the text can be taken without its first character, which is then the one
before it. -/
theorem freeCallAfter_succ {before : Option Char} {c : Char} {t : Text} {n : Nat} :
    FreeCallAfter before (c :: t) (n + 1) ↔ FreeCallAfter (some c) t n := by
  unfold FreeCallAfter
  rw [List.take_succ_cons, Text.getLast?_cons_or, List.drop_succ_cons]

/-- The inserted text depends on which places are chosen and not on how they are described. -/
theorem insertBefore_congr {chosen chosen' : Nat → Prop} [DecidablePred chosen]
    [DecidablePred chosen'] (h : ∀ n, chosen n ↔ chosen' n) (added t : Text) :
    insertBefore added chosen t = insertBefore added chosen' t := by
  unfold insertBefore
  simp only [h]

/-- The first place is decided at once, and the others are those of the rest, one place further. -/
theorem insertBefore_cons (added : Text) (chosen : Nat → Prop) [DecidablePred chosen] (c : Char)
    (t : Text) :
    insertBefore added chosen (c :: t) =
      (if chosen 0 then added ++ [c] else [c]) ++
        insertBefore added (fun n => chosen (n + 1)) t := by
  unfold insertBefore
  rw [List.zipIdx_cons, List.flatMap_cons, List.zipIdx_succ, List.flatMap_map]

/-- The text that is written out is put before the free calls. The recursion over the text and the
choice of places agree at the first place, and the rest is the same with this character before it.
-/
theorem expandLogAfter_eq_insertBefore (before : Option Char) (t : Text) :
    expandLogAfter before t = insertBefore "console.".toList (FreeCallAfter before t) t := by
  induction t generalizing before with
  | nil => rfl
  | cons c t ih =>
    have hrest : insertBefore "console.".toList (fun n => FreeCallAfter before (c :: t) (n + 1)) t =
        expandLogAfter (some c) t := by
      rw [ih]
      exact insertBefore_congr (fun _ => freeCallAfter_succ) _ _
    rw [insertBefore_cons, hrest]
    rcases expandLogAfter_cases before c t with ⟨hfree, hcall, heq⟩ | ⟨hkeep, heq⟩
    · rw [heq, if_pos (freeCallAfter_zero.mpr ⟨hcall, hfree⟩), List.append_assoc]
      rfl
    · rw [heq, if_neg fun hzero => ?_]
      · rfl
      · obtain ⟨hcall, hfree⟩ := freeCallAfter_zero.mp hzero
        exact hkeep hfree hcall

-- ---------------------------------------------------------------------------
-- Lines
-- ---------------------------------------------------------------------------

/-- A line break leaves what follows it as free as the start of a text does. -/
theorem expandLog_append_newline (a b : Text) :
    expandLog (a ++ '\n' :: b) = expandLog a ++ '\n' :: expandLog b := by
  have hfree : isFreeAfter (some '\n') = isFreeAfter none := by decide
  unfold expandLog
  rw [expandLogAfter_append_cons (by decide), expandLogAfter_congr hfree]

/-- The alias never reaches over a line break, so the lines are expanded one by one. -/
theorem expandLog_unlines (ls : List Text) :
    expandLog (unlines ls) = unlines (ls.map expandLog) := by
  induction ls with
  | nil => rfl
  | cons l ls ih =>
    cases ls with
    | nil => rfl
    | cons next ls =>
      rw [Text.unlines_cons_cons, expandLog_append_newline, ih]
      simp only [List.map_cons, Text.unlines_cons_cons]

/-- Marks are neither added nor lost. -/
theorem count_expandLog {c : Char} (hc : isMark c = true) (t : Text) :
    (expandLog t).count c = t.count c := by
  have hmarks : ∀ u : Text, (marks u).count c = u.count c := fun _ => List.count_filter hc
  rw [← hmarks, marks_expandLog, hmarks]

/-- The lines of the result are the lines of the text, each written out. -/
theorem lines_expandLog (t : Text) : lines (expandLog t) = (lines t).map expandLog := by
  have hlines : ∀ l ∈ (lines t).map expandLog, '\n' ∉ l := by
    intro l hl
    obtain ⟨line, hline, rfl⟩ := List.mem_map.mp hl
    have hnone := List.count_eq_zero_of_not_mem (Text.newline_notMem_of_mem_lines hline)
    rw [← count_expandLog (by decide)] at hnone
    exact List.count_eq_zero.mp hnone
  have hne : (lines t).map expandLog ≠ [] := by simp [Text.lines_ne_nil t]
  calc lines (expandLog t) = lines (unlines ((lines t).map expandLog)) := by
        rw [← expandLog_unlines, Text.unlines_lines]
    _ = (lines t).map expandLog := Text.lines_unlines_of_notMem hne hlines

/-- **The logging alias is written out exactly.** `console.` is put before each free call and
nothing else is changed. So writing out twice is writing out once, the lines and the parentheses on
each of them keep their number, and a text may be written out line by line. -/
theorem expandLog_exact (t : Text) :
    expandLog t = insertBefore "console.".toList (FreeCall t) t ∧
    expandLog (expandLog t) = expandLog t ∧
    (lines (expandLog t)).length = (lines t).length ∧
    (lines (expandLog t)).map (fun l => (l.count '(', l.count ')')) =
      (lines t).map (fun l => (l.count '(', l.count ')')) ∧
    unlines ((lines t).map expandLog) = expandLog t := by
  refine ⟨?_, expandLog_expandLog t, ?_, ?_, ?_⟩
  · rw [expandLog, expandLogAfter_eq_insertBefore]
    exact insertBefore_congr (fun _ => freeCallAfter_none) _ t
  · rw [lines_expandLog, List.length_map]
  · rw [lines_expandLog, List.map_map]
    refine List.map_congr_left fun l _ => ?_
    show ((expandLog l).count '(', (expandLog l).count ')') = _
    rw [count_expandLog (by decide), count_expandLog (by decide)]
  · rw [← expandLog_unlines, Text.unlines_lines]

/-- Calls next to each other, nested, after a line break, and three that are not free. -/
example : expandLog "log(log(1))\nlog(a.log(2), $log(3), blog(4))".toList =
    "console.log(console.log(1))\nconsole.log(a.log(2), $log(3), blog(4))".toList := by decide

end Sandscript
