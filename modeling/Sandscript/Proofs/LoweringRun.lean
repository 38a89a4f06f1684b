import Mathlib.Data.List.Forall2
import Sandscript.Lowering

/-!
# What lowering can do

`Lowers` lists the ways in which a statement is lowered, each with everything it needs. All other
facts about lowered statements are read off this list and not off the definition
(`lowers_of_lower`). A run over several statements either lowers them all, each on its own
(`lowerAll_eq_ok_iff`), or stops at the first one that fails (`lowerAll_eq_error`).
-/

namespace Sandscript

open Text (trim indent)

/-- The ways in which a statement is lowered. -/
inductive Lowers (ctx : Context) (s : Statement) : Lowered → Prop where
  /-- A blank statement is kept. -/
  | blank (hb : s.isBlank = true) : Lowers ctx s (.raw s.text)
  /-- The function keyword is written out. -/
  | function {rest : Text} (hb : s.isBlank = false)
      (hf : functionRest? (trim s.text) = some rest) :
      Lowers ctx s (.raw (indent s.text ++ expandLog ("function ".toList ++ rest)))
  /-- A declare statement becomes an import. -/
  | declared {record : Import} (hb : s.isBlank = false) (hm : Declare.isMeant (trim s.text) = true)
      (hr : Declare.toImport ctx.aliases (trim s.text) = .ok record) :
      Lowers ctx s (.imported record (indent s.text ++ record.render ctx.sourceDir))
  /-- Anything else is kept up to its blanks and the logging alias. -/
  | plain (hb : s.isBlank = false) (hf : functionRest? (trim s.text) = none)
      (hm : Declare.isMeant (trim s.text) = false) :
      Lowers ctx s (.raw (indent s.text ++ expandLog (trim s.text)))

/-- A statement is refused for the keyword exactly if the check finds it, and at that line. -/
theorem lower_eq_forbidden_iff {ctx : Context} {s : Statement} {line : Nat} :
    lower ctx s = .error (.forbiddenImport line) ↔ forbiddenLine? s = some line := by
  rw [lower]
  split
  · next found hfound => simp [hfound]
  · next hnone =>
    rw [hnone]
    split
    · simp
    · split <;> simp

/-- A statement that is lowered holds no forbidden keyword, and is lowered in one of the ways. One
case for each branch of the lowering; later proofs go by cases on the relation instead. -/
theorem lowers_of_lower {ctx : Context} {s : Statement} {r : Lowered} (h : lower ctx s = .ok r) :
    forbiddenLine? s = none ∧ Lowers ctx s r := by
  rw [lower] at h
  split at h
  · simp at h
  · next hnone =>
    refine ⟨hnone, ?_⟩
    split at h
    · next hb =>
      obtain rfl := Except.ok.inj h
      exact .blank hb
    · next hb =>
      have hb : s.isBlank = false := by simpa using hb
      split at h
      · simp at h
      · next lowered htext =>
        obtain rfl := Except.ok.inj h
        rw [lowerText] at htext
        split at htext
        · next rest hf =>
          obtain rfl := Except.ok.inj htext
          exact .function hb hf
        · next hf =>
          split at htext
          · next hm =>
            split at htext
            · simp at htext
            · next record hr =>
              obtain rfl := Except.ok.inj htext
              exact .declared hb hm hr
          · next hm =>
            obtain rfl := Except.ok.inj htext
            exact .plain hb hf (by simpa using hm)

theorem lower_of_blank (ctx : Context) {s : Statement} (hn : forbiddenLine? s = none)
    (hb : s.isBlank = true) : lower ctx s = .ok (.raw s.text) := by
  simp [lower, hn, hb]

/-- A statement without a keyword is copied with its indentation, and the alias is expanded. -/
theorem lower_of_plain (ctx : Context) {s : Statement} (hn : forbiddenLine? s = none)
    (hb : s.isBlank = false) (hf : functionRest? (trim s.text) = none)
    (hm : Declare.isMeant (trim s.text) = false) :
    lower ctx s = .ok (.raw (indent s.text ++ expandLog (trim s.text))) := by
  simp [lower, lowerText, hn, hb, hf, hm]

/-- A function keeps its indentation, its keyword is rewritten, and the alias is expanded in all of
it. -/
theorem lower_of_function (ctx : Context) {s : Statement} {rest : Text}
    (hn : forbiddenLine? s = none) (hb : s.isBlank = false)
    (hf : functionRest? (trim s.text) = some rest) :
    lower ctx s = .ok (.raw (indent s.text ++ expandLog ("function ".toList ++ rest))) := by
  simp [lower, lowerText, hn, hb, hf]

/-- A run succeeds if every statement does, with their results in order. So facts about single
statements carry over to the run, place by place. -/
theorem lowerAll_eq_ok_iff {ctx : Context} {ss : List Statement} {rs : List Lowered} :
    lowerAll ctx ss = .ok rs ↔ List.Forall₂ (fun s r => lower ctx s = .ok r) ss rs := by
  induction ss generalizing rs with
  | nil => simp [lowerAll, eq_comm]
  | cons s ss ih =>
    rw [lowerAll]
    cases hs : lower ctx s with
    | error f => simp [hs, List.forall₂_cons_left_iff]
    | ok r =>
      cases hss : lowerAll ctx ss with
      | error f =>
        -- the results of the others would make up a successful run
        simp only [reduceCtorEq, false_iff]
        intro hall
        obtain ⟨r', rest, -, hrest, -⟩ := List.forall₂_cons_left_iff.mp hall
        rw [ih.mpr hrest] at hss
        simp at hss
      | ok rest =>
        simp only [Except.ok.injEq]
        constructor
        · rintro rfl
          exact .cons hs (ih.mp hss)
        · intro hall
          obtain ⟨r', rest', hr, hrest, rfl⟩ := List.forall₂_cons_left_iff.mp hall
          rw [hs] at hr
          rw [ih.mpr hrest] at hss
          obtain rfl := Except.ok.inj hr
          obtain rfl := Except.ok.inj hss
          rfl

/-- Each result comes from one of the statements. -/
theorem exists_of_mem_lowerAll {ctx : Context} {ss : List Statement} {rs : List Lowered}
    (h : lowerAll ctx ss = .ok rs) {r : Lowered} (hr : r ∈ rs) :
    ∃ s ∈ ss, lower ctx s = .ok r := by
  rw [lowerAll_eq_ok_iff] at h
  induction h with
  | nil => exact absurd hr List.not_mem_nil
  | @cons s r' ss rs hs _ ih =>
    rcases List.mem_cons.mp hr with rfl | hr
    · exact ⟨s, List.mem_cons_self .., hs⟩
    · obtain ⟨found, hmem, hfound⟩ := ih hr
      exact ⟨found, List.mem_cons_of_mem _ hmem, hfound⟩

/-- A run over statements is the run over those before one, that one, and the run over the rest. -/
theorem lowerAll_split {ctx : Context} {pre : List Statement} {s : Statement}
    {post : List Statement} {rs : List Lowered} (h : lowerAll ctx (pre ++ s :: post) = .ok rs) :
    ∃ rpre r rpost, rs = rpre ++ r :: rpost ∧ lowerAll ctx pre = .ok rpre ∧
      lower ctx s = .ok r ∧ lowerAll ctx post = .ok rpost := by
  rw [lowerAll_eq_ok_iff] at h
  induction pre generalizing rs with
  | nil =>
    obtain ⟨r, rpost, hr, hpost, rfl⟩ := List.forall₂_cons_left_iff.mp h
    exact ⟨[], r, rpost, rfl, rfl, hr, lowerAll_eq_ok_iff.mpr hpost⟩
  | cons p pre ih =>
    obtain ⟨r', rest, hr', hrest, rfl⟩ := List.forall₂_cons_left_iff.mp h
    obtain ⟨rpre, r, rpost, rfl, hpre, hr, hpost⟩ := ih hrest
    refine ⟨r' :: rpre, r, rpost, rfl, ?_, hr, hpost⟩
    exact lowerAll_eq_ok_iff.mpr (.cons hr' (lowerAll_eq_ok_iff.mp hpre))

/-- A run that fails has come to the first statement that does. All those before it were lowered,
and those behind it were not looked at. -/
theorem lowerAll_eq_error {ctx : Context} {ss : List Statement} {f : Failure}
    (h : lowerAll ctx ss = .error f) :
    ∃ pre s post, ss = pre ++ s :: post ∧ (∀ p ∈ pre, ∃ r, lower ctx p = .ok r) ∧
      lower ctx s = .error f := by
  induction ss with
  | nil => simp [lowerAll] at h
  | cons s ss ih =>
    rw [lowerAll] at h
    cases hs : lower ctx s with
    | error f' =>
      rw [hs] at h
      obtain rfl := Except.error.inj h
      exact ⟨[], s, ss, rfl, by simp, hs⟩
    | ok r =>
      rw [hs] at h
      cases hss : lowerAll ctx ss with
      | ok rest => simp [hss] at h
      | error f' =>
        rw [hss] at h
        obtain rfl := Except.error.inj h
        obtain ⟨pre, found, post, rfl, hpre, hfound⟩ := ih hss
        refine ⟨s :: pre, found, post, rfl, ?_, hfound⟩
        intro p hp
        rcases List.mem_cons.mp hp with rfl | hp
        · exact ⟨r, hs⟩
        · exact hpre p hp

end Sandscript
