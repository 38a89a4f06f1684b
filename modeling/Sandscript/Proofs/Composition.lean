import Sandscript.Proofs.LoweringRun
import Sandscript.Proofs.Scanning

/-!
# Scripts one after the other

Nothing is carried over from one statement to the next: not the open parentheses, not the way the
statement before was lowered. So a script that is put together from two scripts, the first of them
without an open statement at its end, is scanned and lowered as the two are, and the second one only
stands further down. That is visible in the numbers of its statements and in the line that a
failure points at, and nowhere else.

* `scan_append` — the statements of the whole;
* `lower_below`, `lowerAll_below` — lowering further down;
* `script_append` — the statements of the whole and what they are lowered to.
-/

namespace Sandscript

open Text (lines unlines)

-- ---------------------------------------------------------------------------
-- Further down
-- ---------------------------------------------------------------------------

/-- The statement, some lines further down. -/
def Statement.below (n : Nat) (s : Statement) : Statement := { s with line := s.line + n }

namespace Failure

/-- The line of the script that a failure points at. -/
def line? : Failure → Option Nat
  | forbiddenImport line => some line
  | badStatement line _ => some line
  | _ => none

/-- The failure, some lines further down. -/
def below (n : Nat) : Failure → Failure
  | forbiddenImport line => forbiddenImport (line + n)
  | badStatement line reason => badStatement (line + n) reason
  | failure => failure

theorem line?_below (n : Nat) (f : Failure) : (f.below n).line? = f.line?.map (· + n) := by
  cases f <;> rfl

end Failure

-- ---------------------------------------------------------------------------
-- Scanning
-- ---------------------------------------------------------------------------

namespace Statement

/-- Numbering goes on after the lines of the groups before. -/
theorem number_append (line : Nat) (gs gs' : List (List Text)) :
    number line (gs ++ gs') = number line gs ++ number (line + gs.flatten.length) gs' := by
  induction gs generalizing line with
  | nil => rfl
  | cons g gs ih =>
    rw [List.cons_append, number, number, ih, List.flatten_cons, List.length_append,
      Nat.add_assoc, List.cons_append]

/-- Numbering from a later line gives the same statements, moved down. -/
theorem number_below (line n : Nat) (gs : List (List Text)) :
    number (line + n) gs = (number line gs).map (below n) := by
  induction gs generalizing line with
  | nil => rfl
  | cons g gs ih =>
    have hnext : line + n + g.length = line + g.length + n := by omega
    rw [number, number, List.map_cons, hnext, ih]
    rfl

/-- A script without an open statement consists of blocks. -/
theorem block_of_terminated {t : Text} (h : ∀ s ∈ scan t, s.unterminated = false) :
    ∀ g ∈ group [] (lines t), Block g := by
  intro g hg
  obtain ⟨before, after, hgroup⟩ := List.append_of_mem hg
  have hmem : ofGroup (1 + before.flatten.length) g ∈ scan t := by
    rw [scan, hgroup, number_append, number]
    simp
  have hflag : decide (depth g > 0) = false := h _ hmem
  rw [decide_eq_false_iff_not] at hflag
  exact ⟨group_ne_nil hg, openInside_of_mem_group hg, by omega⟩

/-- Behind a script without an open statement the scanner starts afresh. -/
theorem scan_append {a : Text} (ha : ∀ s ∈ scan a, s.unterminated = false) (b : Text) :
    scan (a ++ '\n' :: b) = scan a ++ (scan b).map (below (lines a).length) := by
  have hflat : (group [] (lines a)).flatten = lines a := group_flatten [] (lines a)
  have hgroup : group [] (lines (a ++ '\n' :: b)) = group [] (lines a) ++ group [] (lines b) := by
    conv_lhs => rw [Text.lines_append_newline, ← hflat]
    exact group_blocks (block_of_terminated ha) (lines b)
  rw [scan, hgroup, number_append, hflat, number_below]
  rfl

end Statement

-- ---------------------------------------------------------------------------
-- Lowering
-- ---------------------------------------------------------------------------

theorem forbiddenLine?_below (n : Nat) (s : Statement) :
    forbiddenLine? (s.below n) = (forbiddenLine? s).map (· + n) := by
  have hline : ∀ k, s.line + n + k = s.line + k + n := fun k => by omega
  simp only [forbiddenLine?, Statement.below, Option.map_map, Function.comp_def, hline]

/-- A statement further down is lowered to the same text, and fails further down. The line of a
statement is used for nothing but the failures, so it can be moved out of the lowering. -/
theorem lower_below (ctx : Context) (n : Nat) (s : Statement) :
    lower ctx (s.below n) = (lower ctx s).mapError (Failure.below n) := by
  have hblank : (s.below n).isBlank = s.isBlank := rfl
  have htext : (s.below n).text = s.text := rfl
  have hline : (s.below n).line = s.line + n := rfl
  rw [lower, lower, forbiddenLine?_below, hblank, htext, hline]
  cases forbiddenLine? s with
  | some line => rfl
  | none =>
    cases s.isBlank with
    | true => rfl
    | false =>
      simp only [Option.map_none, Bool.false_eq_true, if_false]
      cases lowerText ctx (Text.indent s.text) (Text.trim s.text) with
      | error fault => rfl
      | ok lowered => rfl

/-- Lowering statements that are moved down gives the same result, and a failure is moved down with
them. -/
theorem lowerAll_below (ctx : Context) (n : Nat) (ss : List Statement) :
    lowerAll ctx (ss.map (Statement.below n)) = (lowerAll ctx ss).mapError (Failure.below n) := by
  induction ss with
  | nil => rfl
  | cons s ss ih =>
    rw [List.map_cons, lowerAll, lowerAll, lower_below, ih]
    cases lower ctx s with
    | error f => rfl
    | ok r =>
      cases lowerAll ctx ss with
      | error f => rfl
      | ok rs => rfl

/-- If the first statements fail, the others make no difference. By induction on the statements: the
failure is that of the first one, or it comes from those behind it. -/
theorem lowerAll_append_of_error {ctx : Context} {ss : List Statement} {f : Failure}
    (h : lowerAll ctx ss = .error f) (ss' : List Statement) :
    lowerAll ctx (ss ++ ss') = .error f := by
  induction ss with
  | nil => simp [lowerAll] at h
  | cons s ss ih =>
    rw [lowerAll] at h
    rw [List.cons_append, lowerAll]
    cases hs : lower ctx s with
    | error f' =>
      rw [hs] at h
      exact h
    | ok r =>
      rw [hs] at h
      cases hss : lowerAll ctx ss with
      | error f' =>
        rw [hss] at h
        rw [ih (hss.trans h)]
      | ok rs =>
        rw [hss] at h
        cases h

/-- If the first statements are lowered, the result is theirs and then that of the others. -/
theorem lowerAll_append_of_ok {ctx : Context} {ss : List Statement} {rs : List Lowered}
    (h : lowerAll ctx ss = .ok rs) (ss' : List Statement) :
    lowerAll ctx (ss ++ ss') = (lowerAll ctx ss').map (rs ++ ·) := by
  rw [lowerAll_eq_ok_iff] at h
  induction h with
  | nil =>
    rw [List.nil_append]
    cases lowerAll ctx ss' <;> rfl
  | cons hr _ ih =>
    rw [List.cons_append, lowerAll, hr, ih]
    cases lowerAll ctx ss' <;> rfl

/-- Lowering fails at a line of the script. -/
theorem line?_of_lower {ctx : Context} {s : Statement} {f : Failure}
    (h : lower ctx s = .error f) : ∃ line, f.line? = some line := by
  rw [lower] at h
  split at h
  · next line _ =>
    obtain rfl := Except.error.inj h
    exact ⟨line, rfl⟩
  · split at h
    · cases h
    · split at h
      · obtain rfl := Except.error.inj h
        exact ⟨s.line, rfl⟩
      · cases h

-- ---------------------------------------------------------------------------
-- Scripts
-- ---------------------------------------------------------------------------

/-- **A script of two scripts.** If no statement of the first one is left open, the statements of
the whole are those of the first and those of the second, which stand as many lines further down as
the first has. If both are lowered, so is the whole, to the one result behind the other. If the
first fails, the whole fails in the same way; if only the second does, the whole fails in that way,
further down. -/
theorem script_append {a : Text} (ha : ∀ s ∈ Statement.scan a, s.unterminated = false) (b : Text) :
    Statement.scan (a ++ '\n' :: b) =
      Statement.scan a ++ (Statement.scan b).map (Statement.below (lines a).length) ∧
    ∀ ctx,
      (∀ ra rb, lowerAll ctx (Statement.scan a) = .ok ra →
        lowerAll ctx (Statement.scan b) = .ok rb →
        lowerAll ctx (Statement.scan (a ++ '\n' :: b)) = .ok (ra ++ rb)) ∧
      (∀ f, lowerAll ctx (Statement.scan a) = .error f →
        lowerAll ctx (Statement.scan (a ++ '\n' :: b)) = .error f) ∧
      (∀ ra f, lowerAll ctx (Statement.scan a) = .ok ra →
        lowerAll ctx (Statement.scan b) = .error f →
        lowerAll ctx (Statement.scan (a ++ '\n' :: b)) = .error (f.below (lines a).length) ∧
          ∃ line, f.line? = some line ∧
            (f.below (lines a).length).line? = some (line + (lines a).length)) := by
  have hscan := Statement.scan_append ha b
  refine ⟨hscan, fun ctx => ⟨?_, ?_, ?_⟩⟩
  · intro ra rb hra hrb
    rw [hscan, lowerAll_append_of_ok hra, lowerAll_below, hrb]
    rfl
  · intro f hf
    rw [hscan]
    exact lowerAll_append_of_error hf _
  · intro ra f hra hf
    refine ⟨?_, ?_⟩
    · rw [hscan, lowerAll_append_of_ok hra, lowerAll_below, hf]
      rfl
    · obtain ⟨-, s, -, -, -, hs⟩ := lowerAll_eq_error hf
      obtain ⟨line, hline⟩ := line?_of_lower hs
      exact ⟨line, hline, by rw [Failure.line?_below, hline]; rfl⟩

/-- A call over two lines, a stray closer, and behind them a declare statement that cannot be read,
on its second line: the failure points at the fifth line of the whole. -/
theorem script_append_malformed_declare :
    let a := "log(1,\n2)\n)".toList
    let b := "x = 1\ndeclare y".toList
    (∀ s ∈ Statement.scan a, s.unterminated = false) ∧
    (Statement.scan (a ++ '\n' :: b)).map Statement.line = [1, 3, 4, 5] ∧
    ∃ f, lowerAll ⟨⟨['/']⟩, []⟩ (Statement.scan b) = .error f ∧ f.line? = some 2 ∧
      lowerAll ⟨⟨['/']⟩, []⟩ (Statement.scan (a ++ '\n' :: b)) = .error (f.below 3) := by
  intro a b
  have ha : ∀ s ∈ Statement.scan a, s.unterminated = false := by decide
  have hlen : (lines a).length = 3 := by decide
  have hfirst : ∃ ra, lowerAll ⟨⟨['/']⟩, []⟩ (Statement.scan a) = .ok ra := ⟨_, rfl⟩
  have hsecond : ∃ f, lowerAll ⟨⟨['/']⟩, []⟩ (Statement.scan b) = .error f ∧ f.line? = some 2 :=
    ⟨_, rfl, rfl⟩
  obtain ⟨ra, hra⟩ := hfirst
  obtain ⟨f, hf, hline⟩ := hsecond
  obtain ⟨hscan, hlower⟩ := script_append ha b
  refine ⟨ha, by rw [hscan]; decide, f, hf, hline, ?_⟩
  rw [← hlen]
  exact ((hlower _).2.2 ra f hra hf).1

end Sandscript
