import Sandscript.Proofs.ImportPlaces

/-!
# Compiling a compiled script

A script without declare statements is compiled to a program that is itself a script, and compiling
that changes nothing any more. The proof goes through texts that are `Settled`: scanned as one
statement, and lowered and ended to themselves. What a statement is compiled to is settled
(`settled_of_raw`), and so is the guarded call of `main` (`settled_guardCall`). A program is a
sequence of settled texts (`emit_eq_unlines`), and such a sequence is cut at the same places again
(`map_text_scan`), so that compiling it gives it back (`compile_settled`).
-/

namespace Sandscript

open Text (trim indent lines unlines AllBlank Trimmed)
open Terminator (terminate)

-- ---------------------------------------------------------------------------
-- Texts without a keyword at their start
-- ---------------------------------------------------------------------------

/-- A text starts with none of the keywords that lowering looks for. -/
def NoKeyword (t : Text) : Prop :=
  ∀ c, Text.isBlank c = true → ¬ "fn".toList ++ [c] <+: t ∧ ¬ Declare.keyword ++ [c] <+: t

/-- No keyword is there if the text is neither read as a function nor meant as a declaration. The
two tests of the lowering look at the same thing: a keyword at the start and a blank behind it. -/
theorem noKeyword_iff {t : Text} :
    NoKeyword t ↔ functionRest? t = none ∧ Declare.isMeant t = false := by
  -- a keyword with a character behind it, as the tests look for it
  have hstart : ∀ (word : Text) (c : Char), word ++ [c] <+: t ↔
      ∃ rest, word.isPrefixOf? t = some (c :: rest) := by
    intro word c
    simp only [List.isPrefixOf?_eq_some_iff_append_eq]
    constructor
    · rintro ⟨rest, rfl⟩
      exact ⟨rest, by simp⟩
    · rintro ⟨rest, rfl⟩
      exact ⟨rest, by simp⟩
  constructor
  · intro h
    constructor
    · rw [functionRest?]
      split
      · next c rest hfn =>
        rw [if_neg]
        intro hc
        exact (h c hc).1 ((hstart _ _).mpr ⟨rest, hfn⟩)
      · rfl
    · rw [Declare.isMeant]
      split
      · next c rest hdeclare =>
        rw [← Bool.not_eq_true]
        intro hc
        exact (h c hc).2 ((hstart _ _).mpr ⟨rest, hdeclare⟩)
      · rfl
  · rintro ⟨hf, hm⟩ c hc
    constructor
    · intro hin
      obtain ⟨rest, hrest⟩ := (hstart _ _).mp hin
      rw [functionRest?, hrest] at hf
      simp [hc] at hf
    · intro hin
      obtain ⟨rest, hrest⟩ := (hstart _ _).mp hin
      rw [Declare.isMeant, hrest] at hm
      simp [hc] at hm

/-- After the keyword was rewritten there is none left in front. -/
theorem Body.noKeyword {t body : Text} (h : Body t body) : NoKeyword body := by
  cases h with
  | plain hf hm => exact noKeyword_iff.mpr ⟨hf, hm⟩
  | function =>
    intro c _
    constructor
    · intro hin
      exact absurd (List.cons_prefix_cons.mp (List.cons_prefix_cons.mp hin).2).1 (by decide)
    · intro hin
      exact absurd (List.cons_prefix_cons.mp hin).1 (by decide)

/-- Expanding the alias puts no keyword in front. -/
theorem NoKeyword.expandLog {t : Text} (h : NoKeyword t) : NoKeyword (expandLog t) := by
  intro c hc
  constructor
  · intro hin
    exact (h c hc).1 (prefix_of_expandLog (by decide) (by decide) (by decide) hin)
  · intro hin
    exact (h c hc).2 (prefix_of_expandLog (by decide) (by decide) (by decide) hin)

/-- Nor does a character that is put at the end, unless it is blank. -/
theorem NoKeyword.concat {t : Text} (h : NoKeyword t) {c : Char} (hc : Text.isBlank c = false) :
    NoKeyword (t ++ [c]) := by
  -- the character after a keyword would be the appended one
  have hshort : ∀ (word : Text) (b : Char), Text.isBlank b = true → word ++ [b] <+: t ++ [c] →
      word ++ [b] <+: t := by
    intro word b hb hin
    rcases List.prefix_concat_iff.mp hin with heq | hin
    · have hlast := congrArg List.getLast? heq
      simp only [List.getLast?_append, List.getLast?_singleton, Option.some_or,
        Option.some.injEq] at hlast
      rw [hlast, hc] at hb
      exact Bool.noConfusion hb
    · exact hin
  intro b hb
  exact ⟨fun hin => (h b hb).1 (hshort _ b hb hin), fun hin => (h b hb).2 (hshort _ b hb hin)⟩

-- ---------------------------------------------------------------------------
-- Settled texts
-- ---------------------------------------------------------------------------

/-- A text that compiling leaves as it is: it is scanned as one statement, and that is lowered and
ended to the text. -/
structure Settled (e : Text) : Prop where
  block : Statement.Block (lines e)
  lowered : ∀ (ctx : Context) (s : Statement), s.text = e →
    ∃ r, lower ctx s = .ok r ∧ r.emitted = e

/-- A blank statement is settled. -/
theorem settled_of_allBlank {e : Text} (hblock : Statement.Block (lines e)) (h : AllBlank e) :
    Settled e := by
  refine ⟨hblock, ?_⟩
  rintro ctx s rfl
  have hb : s.isBlank = true := by
    rw [Statement.isBlank, Text.trim_eq_nil_iff.mpr h]
    rfl
  have hnone := forbiddenLine?_of_noImport (noImport_of_notMem (h.notMem (by decide)))
  exact ⟨_, lower_of_blank ctx hnone hb, terminate_of_allBlank h⟩

/-- An indented text is settled if there is nothing in it to lower or to end: no keyword, no alias,
and nothing that asks for a mark. Each hypothesis takes one step of the compilation away. -/
theorem settled_of_trimmed {lead x : Text} (hblock : Statement.Block (lines (lead ++ x)))
    (hlead : AllBlank lead) (hx : Trimmed x) (hne : x ≠ []) (hkeyword : NoKeyword x)
    (himport : NoImport x) (hlog : expandLog x = x) (hend : terminate (lead ++ x) = lead ++ x) :
    Settled (lead ++ x) := by
  refine ⟨hblock, fun ctx s htext => ?_⟩
  have hindent : indent s.text = lead := by
    rw [htext, ← List.append_nil (lead ++ x)]
    exact Text.indent_append hlead hx hne []
  have htrim : trim s.text = x := by
    rw [htext, ← List.append_nil (lead ++ x)]
    exact Text.trim_append hlead hx fun _ hc => absurd hc List.not_mem_nil
  have hb : s.isBlank = false := by
    rw [Statement.isBlank, htrim]
    simpa using hne
  have hnone : forbiddenLine? s = none :=
    forbiddenLine?_of_noImport (htext ▸ himport.append_blanks hlead)
  obtain ⟨hf, hm⟩ := noKeyword_iff.mp hkeyword
  refine ⟨_, lower_of_plain ctx hnone hb (htrim ▸ hf) (htrim ▸ hm), ?_⟩
  rw [Lowered.emitted, Lowered.text, hindent, htrim, hlog, hend]

/-- What a terminated statement is compiled to is settled. Compiling a second time meets the same
indentation, a body without a keyword, an alias that is expanded already, and an end that is there.
-/
theorem settled_of_raw {ctx : Context} {s : Statement} {g : List Text} {text : Text}
    (hmade : Statement.MadeOf s g) (hs : s.unterminated = false)
    (h : lower ctx s = .ok (.raw text)) : Settled (terminate text) := by
  have hlowers := (lowers_of_lower h).2
  have hblock := hmade.block_of_marks hs (marks_terminate_raw hmade hs hlowers)
  rcases hlowers.raw_cases with ⟨hblank, rfl⟩ | ⟨hb, body, hbody, rfl⟩
  · rw [terminate_of_allBlank hblank] at hblock ⊢
    exact settled_of_allBlank hblock hblank
  · -- what is known of the body of a statement that was lowered
    have htrim := trimmed_expandLog (hbody.trimmed (Text.trimmed_trim s.text))
    have hne := expandLog_ne_nil (hbody.ne_nil (Statement.trim_ne_nil hb))
    have himport := noImport_expandLog (hbody.noImport (noImport_of_raw h))
    have hkeyword := hbody.noKeyword.expandLog
    have hlead := Text.allBlank_indent s.text
    have hmark : Text.isBlank Terminator.mark = false := by decide
    rcases terminate_cases (htrim.last_append hne (indent s.text)) with ⟨-, heq⟩ | ⟨-, heq⟩
    · rw [heq] at hblock ⊢
      exact settled_of_trimmed hblock hlead htrim hne hkeyword himport (expandLog_expandLog body)
        heq
    · rw [heq, List.append_assoc] at hblock ⊢
      -- the mark is one more character of the body, and it is not blank
      have htrim' : Trimmed (expandLog body ++ [Terminator.mark]) := by
        refine ⟨fun c hc => ?_, fun c hc => ?_⟩
        · obtain ⟨d, rest, hd⟩ := List.exists_cons_of_ne_nil hne
          rw [hd] at hc htrim
          exact htrim.head c hc
        · rw [List.getLast?_append] at hc
          obtain rfl : Terminator.mark = c := Option.some.inj hc
          exact hmark
      refine settled_of_trimmed hblock hlead htrim' (by simp) (hkeyword.concat hmark)
        (himport.concat (by decide)) ?_ ?_
      · rw [Sandscript.expandLog, expandLogAfter_concat (by decide), ← Sandscript.expandLog,
          expandLog_expandLog]
      · rw [← List.append_assoc]
        exact terminate_of_closer _ (by decide) fun _ hc => absurd hc List.not_mem_nil

-- ---------------------------------------------------------------------------
-- Sequences of settled texts
-- ---------------------------------------------------------------------------

theorem settled_nil : Settled [] :=
  settled_of_allBlank (Statement.block_singleton (by decide)) fun _ hc => absurd hc List.not_mem_nil

/-- The guarded call of `main` is settled. -/
theorem settled_guardCall : Settled Program.guardCall := by
  have htrimmed : Trimmed Program.guardCall := by
    refine ⟨fun c hc => ?_, fun c hc => ?_⟩
    · obtain rfl : 'i' = c := Option.some.inj hc
      decide
    · obtain rfl : '\x7d' = c := Option.some.inj hc
      decide
  have hblock : Statement.Block (lines ([] ++ Program.guardCall)) := Program.block_guardCall
  exact settled_of_trimmed hblock (fun _ hc => absurd hc List.not_mem_nil) htrimmed (by decide)
    (noKeyword_iff.mpr ⟨by decide, by decide⟩) noImport_guardCall (by decide) (by decide)

/-- Settled texts that are joined are cut at the same places again. -/
theorem map_text_scan {pieces : List Text} (hne : pieces ≠ []) (h : ∀ e ∈ pieces, Settled e) :
    (Statement.scan (unlines pieces)).map Statement.text = pieces :=
  Statement.map_text_scan_unlines hne (Statement.grouping_of_blocks fun e he => (h e he).block)

/-- Settled statements are lowered to themselves. -/
theorem lowerAll_settled (ctx : Context) {ss : List Statement}
    (h : ∀ e ∈ ss.map Statement.text, Settled e) :
    ∃ rs, lowerAll ctx ss = .ok rs ∧ rs.map Lowered.emitted = ss.map Statement.text := by
  induction ss with
  | nil => exact ⟨[], rfl, rfl⟩
  | cons s ss ih =>
    obtain ⟨r, hr, hemitted⟩ := (h s.text (by simp)).lowered ctx s rfl
    obtain ⟨rs, hrs, hmap⟩ := ih fun e he => h e (List.mem_cons_of_mem _ he)
    refine ⟨r :: rs, ?_, ?_⟩
    · rw [lowerAll, hr, hrs]
    · rw [List.map_cons, List.map_cons, hemitted, hmap]

/-- Compiling a sequence of settled texts that has an entry point gives it back. -/
theorem compile_settled (ctx : Context) {pieces : List Text} (hne : pieces ≠ [])
    (h : ∀ e ∈ pieces, Settled e) (hentry : Program.hasEntryPoint (unlines pieces) = true) :
    ∃ rs, lowerAll ctx (Statement.scan (unlines pieces)) = .ok rs ∧
      Program.emit rs = ⟨unlines pieces⟩ := by
  have htexts := map_text_scan hne h
  obtain ⟨rs, hrs, hmap⟩ := lowerAll_settled ctx (htexts.symm ▸ h)
  refine ⟨rs, hrs, ?_⟩
  have hjoined : unlines (rs.map Lowered.emitted) = unlines pieces := by rw [hmap, htexts]
  calc Program.emit rs = ⟨Program.withEntryPoint (unlines (rs.map Lowered.emitted))⟩ := rfl
    _ = ⟨unlines pieces⟩ := by rw [hjoined, Program.withEntryPoint, if_pos hentry]

-- ---------------------------------------------------------------------------
-- Programs
-- ---------------------------------------------------------------------------

/-- A program of settled texts is again a sequence of settled texts, with an entry point. What is
appended for the entry point is one more piece, and it is settled too. -/
theorem emit_eq_unlines {rs : List Lowered} (hne : rs ≠ [])
    (h : ∀ e ∈ rs.map Lowered.emitted, Settled e) :
    ∃ pieces, pieces ≠ [] ∧ (∀ e ∈ pieces, Settled e) ∧
      (Program.emit rs).text = unlines pieces ∧
      Program.hasEntryPoint (unlines pieces) = true := by
  have hemit : (Program.emit rs).text =
      Program.withEntryPoint (unlines (rs.map Lowered.emitted)) := rfl
  obtain ⟨pieces, hpieces, htext, hmem⟩ := Program.withEntryPoint_unlines
    (show rs.map Lowered.emitted ≠ [] by simpa using hne)
    fun e he => (h e he).block.getLast?_ne_newline
  refine ⟨pieces, hpieces, ?_, hemit.trans htext, ?_⟩
  · intro e he
    rcases hmem e he with hold | rfl | rfl
    · exact h e hold
    · exact settled_guardCall
    · exact settled_nil
  · rw [← htext]
    exact Program.hasEntryPoint_withEntryPoint _

/-- **Compiling twice is compiling once.** If all statements of a script are terminated and become
host text, then the program of the script is lowered, in whatever context, and gives itself. -/
theorem compile_idempotent {ctx : Context} {t : Text} {rs : List Lowered}
    (h : lowerAll ctx (Statement.scan t) = .ok rs) (hraw : ∀ r ∈ rs, r.import? = none)
    (hended : ∀ s ∈ Statement.scan t, s.unterminated = false) (ctx' : Context) :
    ∃ rs', lowerAll ctx' (Statement.scan (Program.emit rs).text) = .ok rs' ∧
      Program.emit rs' = Program.emit rs := by
  have hlen : (Statement.scan t).length = rs.length := (lowerAll_eq_ok_iff.mp h).length_eq
  have hne : rs ≠ [] := by
    rintro rfl
    exact Statement.scan_ne_nil t (List.length_eq_zero_iff.mp hlen)
  have hsettled : ∀ e ∈ rs.map Lowered.emitted, Settled e := by
    intro e he
    obtain ⟨r, hr, rfl⟩ := List.mem_map.mp he
    obtain ⟨i, hi, hget⟩ := List.mem_iff_getElem.mp hr
    have hs := List.getElem?_eq_getElem (show i < (Statement.scan t).length by omega)
    obtain ⟨⟨g, hmade⟩, -, -⟩ := Statement.scan_split (eq_take_cons_drop hs)
    have hlower := (lowerAll_eq_ok_iff.mp h).get (by omega) hi
    rw [List.get_eq_getElem, List.get_eq_getElem, hget] at hlower
    cases r with
    | raw text => exact settled_of_raw hmade (hended _ (List.getElem_mem _)) hlower
    | imported record text => exact absurd (hraw _ hr) (by simp [Lowered.import?])
  obtain ⟨pieces, hpieces, hall, htext, hentry⟩ := emit_eq_unlines hne hsettled
  obtain ⟨rs', hrs', hemit⟩ := compile_settled ctx' hpieces hall hentry
  refine ⟨rs', htext ▸ hrs', ?_⟩
  rw [hemit, ← htext]

/-- A function without an entry point, with the alias in a call over two lines: the program is
another text, and compiling that in another directory leaves it as it is. -/
theorem compile_idempotent_logging_main :
    let t := "fn  main() \x7b\n  log(1,\n    log(2))\n\x7d".toList
    ∃ rs, lowerAll ⟨⟨['/']⟩, []⟩ (Statement.scan t) = .ok rs ∧
      (∀ r ∈ rs, r.import? = none) ∧ (∀ s ∈ Statement.scan t, s.unterminated = false) ∧
      (Program.emit rs).text ≠ t ∧
      ∃ rs', lowerAll ⟨⟨['/', 'a']⟩, []⟩ (Statement.scan (Program.emit rs).text) = .ok rs' ∧
        Program.emit rs' = Program.emit rs := by
  intro t
  have hfirst : ∃ rs, lowerAll ⟨⟨['/']⟩, []⟩ (Statement.scan t) = .ok rs ∧
      (∀ r ∈ rs, r.import? = none) ∧ (Program.emit rs).text ≠ t :=
    ⟨_, rfl, by decide, by decide⟩
  have hended : ∀ s ∈ Statement.scan t, s.unterminated = false := by decide
  obtain ⟨rs, h, hraw, hother⟩ := hfirst
  exact ⟨rs, h, hraw, hended, hother, compile_idempotent h hraw hended _⟩

end Sandscript
