import Sandscript.Proofs.EntryPoint
import Sandscript.Proofs.ImportGate
import Sandscript.Proofs.LineAlignment

/-!
# Where a program can hold the import keyword

The gate looks at the script, but it is the program that the host runs. Between the two a statement
is trimmed, its first keyword and the logging alias are written out, it is ended, and the statements
are joined and followed by a call of `main`. None of this makes a word out of something that was
none, so the keyword enters a program through declare statements only.

* `noImport_of_raw` — a statement that becomes host text does not hold the keyword;
* `noImport_text` — nor does the host text;
* `hasForm_of_imported` — what becomes an import is a declare statement;
* `imports_centralised` — where the keyword stands in a program.
-/

namespace Sandscript

open Text (trim indent trail unlines closed AllBlank WordAt)
open Terminator (terminate)

-- ---------------------------------------------------------------------------
-- Texts without the import keyword
-- ---------------------------------------------------------------------------

/-- The import keyword stands nowhere in a text. -/
def NoImport (t : Text) : Prop := ∀ n, ¬ WordAt importWord t n

theorem noImport_of_notMem {t : Text} (h : 'i' ∉ t) : NoImport t := by
  intro n hword
  exact h (List.mem_of_mem_drop (hword.1.subset (List.mem_cons_self ..)))

/-- A part of a text does not hold the keyword if the whole does not, provided no word crosses its
ends. Otherwise cutting could make a word out of a piece of a longer one. -/
theorem NoImport.of_append {left t right : Text} (h : NoImport (left ++ t ++ right))
    (hl : Text.endsWord left.getLast? = true) (hr : Text.endsWord right.head? = true) :
    NoImport t :=
  fun n hword => h (left.length + n) (Text.WordAt.append hword importWord_ne_nil hl hr)

/-- Blanks in front bring no keyword in. -/
theorem NoImport.append_blanks {lead t : Text} (h : NoImport t) (hlead : AllBlank lead) :
    NoImport (lead ++ t) := by
  intro n hword
  have hfirst : 'i' ∉ lead := hlead.notMem (by decide)
  obtain ⟨m, rfl, -⟩ := Text.prefix_drop_behind hword.1 hfirst
  have hfits := Text.WordAt.length_le hword importWord_ne_nil
  rw [← List.append_nil (lead ++ t)] at hword
  rw [List.length_append] at hfits
  exact h m (hword.of_append (by omega))

/-- A character that is not in the keyword parts the texts on its two sides. -/
theorem NoImport.append_cons {a b : Text} (ha : NoImport a) (hb : NoImport b) {c : Char}
    (hc : c ∉ importWord) : NoImport (a ++ c :: b) := by
  intro n hword
  have hfits := Text.WordAt.length_le hword importWord_ne_nil
  rw [List.length_append, List.length_cons] at hfits
  rcases Text.prefix_drop_avoids hword.1 hc with hin | hbehind
  · have hword' : WordAt importWord ([] ++ a ++ c :: b) (([] : Text).length + n) := by
      simpa using hword
    exact ha n (hword'.of_append hin)
  · obtain ⟨m, rfl⟩ : ∃ m, n = a.length + 1 + m := ⟨n - (a.length + 1), by omega⟩
    have hword' : WordAt importWord (a ++ [c] ++ b ++ []) ((a ++ [c]).length + m) := by
      simpa using hword
    exact hb m (hword'.of_append (by omega))

theorem noImport_nil : NoImport [] := noImport_of_notMem List.not_mem_nil

theorem NoImport.concat {t : Text} (h : NoImport t) {c : Char} (hc : c ∉ importWord) :
    NoImport (t ++ [c]) :=
  h.append_cons noImport_nil hc

/-- What the check of the lowering lets through does not hold the keyword. -/
theorem noImport_of_hasWord {t : Text} (h : Text.hasWord importWord t = false) : NoImport t := by
  rw [Text.hasWord, Option.isSome_eq_false_iff, Option.isNone_iff_eq_none] at h
  exact Text.beforeWord?_none importWord_ne_nil h

/-- No blank is a character of the keyword. -/
theorem notMem_importWord {c : Char} (h : Text.isBlank c = true) : c ∉ importWord := by
  have hletters : importWord.all (!Text.isBlank ·) = true := by decide
  intro hin
  have hletter := List.all_eq_true.mp hletters c hin
  rw [h] at hletter
  exact absurd hletter (by decide)

/-- Blanks between two texts part them. -/
theorem NoImport.append_gap {a b gap : Text} (ha : NoImport a) (hgap : Declare.Gap gap)
    (hb : NoImport b) : NoImport (a ++ gap ++ b) := by
  obtain ⟨c, blanks, rfl, hc⟩ := hgap.exists_first
  have hrest : NoImport (blanks ++ b) :=
    hb.append_blanks fun d hd => hgap.allBlank d (List.mem_cons_of_mem _ hd)
  rw [List.append_assoc]
  exact ha.append_cons hrest (notMem_importWord hc)

/-- The blanks around a statement do not hold the keyword either. -/
theorem NoImport.of_trim {t : Text} (h : NoImport (trim t)) : NoImport t := by
  rw [← Text.indent_trim_trail t, List.append_assoc]
  refine NoImport.append_blanks ?_ (Text.allBlank_indent t)
  by_cases hnil : trail (Text.trimStart t) = []
  · rw [hnil, List.append_nil]
    exact h
  · rw [← List.append_nil (trim t ++ _)]
    exact h.append_gap ⟨hnil, Text.allBlank_trail _⟩ noImport_nil

theorem noImport_expandLog {t : Text} (h : NoImport t) : NoImport (expandLog t) := by
  intro n hword
  obtain ⟨m, hm⟩ := wordAt_of_expandLog hword
  exact h m hm

/-- A statement without the keyword has no forbidden line. -/
theorem forbiddenLine?_of_noImport {s : Statement} (h : NoImport s.text) :
    forbiddenLine? s = none := by
  cases hline : forbiddenLine? s with
  | none => rfl
  | some line =>
    obtain ⟨n, hfirst, -⟩ := forbiddenLine?_eq_some hline
    exact absurd hfirst.word (h n)

/-- A declare statement means to be one, and is no function. The reading of functions comes first in
the lowering, so that this is needed to know which branch is taken. -/
theorem isMeant_of_hasForm {t : Text} (h : Declare.HasForm t) :
    Declare.isMeant t = true ∧ functionRest? t = none := by
  obtain ⟨d, ⟨o⟩⟩ := h
  obtain ⟨c, space, hspace, hblank⟩ := o.space_gap.exists_first
  obtain ⟨rest, hrest⟩ : ∃ rest, t = Declare.keyword ++ c :: rest := by
    rw [o.text_eq, o.lead_eq, hspace]
    exact ⟨_, by simp; rfl⟩
  have hkeyword : Declare.keyword.isPrefixOf? t = some (c :: rest) :=
    List.isPrefixOf?_eq_some_iff_append_eq.mpr hrest.symm
  refine ⟨by rw [Declare.isMeant, hkeyword]; exact hblank, ?_⟩
  cases hf : functionRest? t with
  | none => rfl
  | some tail =>
    obtain ⟨gap, -, heq⟩ := functionRest?_eq_some hf
    rw [hrest] at heq
    exact absurd (List.cons.inj heq).1 (by decide)

/-- A statement that becomes host text holds the import keyword nowhere. -/
theorem noImport_of_raw {ctx : Context} {s : Statement} {text : Text}
    (h : lower ctx s = .ok (.raw text)) : NoImport s.text := by
  obtain ⟨hnone, hlowers⟩ := lowers_of_lower h
  intro n hword
  refine forbiddenLine?_eq_none hnone hword (Or.inl fun hform => ?_)
  obtain ⟨hmeant, hfunction⟩ := isMeant_of_hasForm hform
  cases hlowers with
  | blank hb =>
    have hnil : trim s.text = [] := by simpa [Statement.isBlank] using hb
    rw [hnil] at hmeant
    exact absurd hmeant (by decide)
  | function _ hf => rw [hfunction] at hf; cases hf
  | plain _ _ hm => rw [hmeant] at hm; cases hm

/-- The body of a statement holds the keyword only where the statement does. Rewriting the keyword
of a function puts a blank in front of the rest, so that no word is made of two pieces. -/
theorem Body.noImport {s : Statement} {body : Text} (h : Body (trim s.text) body)
    (hs : NoImport s.text) : NoImport body := by
  have htrim : NoImport (trim s.text) := by
    rw [← Text.indent_trim_trail s.text] at hs
    exact hs.of_append (Text.allBlank_indent _).endsWord_getLast?
      (Text.allBlank_trail _).endsWord_head?
  generalize trim s.text = t at h htrim
  cases h with
  | plain => exact htrim
  | function hgap heq =>
    next gap rest =>
    have hrest : NoImport rest := by
      rw [heq, ← List.append_nil ("fn".toList ++ gap ++ rest)] at htrim
      exact htrim.of_append (hgap.endsWord_getLast?_append _) rfl
    have hkeyword : NoImport "function".toList :=
      Text.beforeWord?_none importWord_ne_nil (by decide)
    -- the blank after the host's keyword parts it from the rest
    exact hkeyword.append_cons hrest (c := ' ') (by decide)

/-- Ending a statement brings no keyword in. -/
theorem NoImport.terminate {t : Text} (h : NoImport t) : NoImport (terminate t) := by
  rcases terminate_eq t with heq | heq
  · rw [heq]
    exact h
  · have htrim : NoImport (Text.trimEnd t) := by
      have hparts : NoImport ([] ++ Text.trimEnd t ++ trail t) := by
        rw [List.nil_append, Text.trimEnd_append_trail]
        exact h
      exact hparts.of_append rfl (Text.allBlank_trail t).endsWord_head?
    rw [heq]
    exact htrim.concat (by decide)

-- ---------------------------------------------------------------------------
-- Lowered statements
-- ---------------------------------------------------------------------------

/-- Host text does not hold the import keyword. -/
theorem noImport_text {ctx : Context} {s : Statement} {text : Text}
    (h : lower ctx s = .ok (.raw text)) : NoImport text := by
  have hlowers := (lowers_of_lower h).2
  have hsource := noImport_of_raw h
  rcases hlowers.raw_cases with ⟨-, rfl⟩ | ⟨-, body, hbody, rfl⟩
  · exact hsource
  · exact (noImport_expandLog (hbody.noImport hsource)).append_blanks (Text.allBlank_indent s.text)

/-- Only a declare statement becomes an import. -/
theorem hasForm_of_imported {ctx : Context} {s : Statement} {record : Import} {text : Text}
    (h : Lowers ctx s (.imported record text)) : Declare.HasForm (trim s.text) := by
  cases h with
  | declared _ _ hr =>
    rw [← Declare.isSome_read?_iff]
    cases hread : Declare.read? (trim s.text) with
    | some d => rfl
    | none =>
      rw [Declare.toImport, hread] at hr
      cases hr

/-- An import is ended as it stands. -/
theorem emitted_of_imported {ctx : Context} {s : Statement} {record : Import} {text : Text}
    (h : Lowers ctx s (.imported record text)) :
    (Lowered.imported record text).emitted = text := by
  cases h with
  | declared =>
    obtain ⟨front, hfront⟩ := List.getLast?_eq_some_iff.mp
      (Import.getLast?_render record ctx.sourceDir)
    rw [Lowered.emitted, Lowered.text, hfront, ← List.append_assoc]
    exact terminate_of_closer _ (by decide) fun _ hc => absurd hc List.not_mem_nil

-- ---------------------------------------------------------------------------
-- Programs
-- ---------------------------------------------------------------------------

theorem noImport_guardCall : NoImport Program.guardCall :=
  Text.beforeWord?_none importWord_ne_nil (by decide)

/-- The keyword at a position of a program would lie within the text of an import. -/
def WithinImport (rs : List Lowered) (n : Nat) : Prop :=
  ∃ pre record text post, rs = pre ++ .imported record text :: post ∧
    closed (pre.map Lowered.emitted) ++ text <+: (Program.emit rs).text ∧
    (closed (pre.map Lowered.emitted)).length ≤ n ∧
    n + importWord.length ≤ (closed (pre.map Lowered.emitted)).length + text.length

/-- Where the keyword stands in a program there is an import. Of the lowered texts only imports hold
the keyword, and neither the marks nor the entry point bring it in. -/
theorem withinImport_of_wordAt {ctx : Context} {ss : List Statement} {rs : List Lowered}
    (h : lowerAll ctx ss = .ok rs) {n : Nat}
    (hword : WordAt importWord (Program.emit rs).text n) : WithinImport rs n := by
  have hjoined : WordAt importWord (unlines (rs.map Lowered.emitted)) n :=
    Program.wordAt_of_withEntryPoint importWord_ne_nil newline_notMem_importWord
      noImport_guardCall hword
  obtain ⟨before, piece, after, k, hpieces, rfl, hk, hpiece⟩ :=
    Text.wordAt_unlines importWord_ne_nil newline_notMem_importWord hjoined
  obtain ⟨pre, tail, hrs, rfl, htail⟩ := List.map_eq_append_iff.mp hpieces
  obtain ⟨r, post, rfl, rfl, rfl⟩ := List.map_eq_cons_iff.mp htail
  obtain ⟨s, -, hlower⟩ := exists_of_mem_lowerAll h (show r ∈ rs by rw [hrs]; simp)
  cases r with
  | raw text => exact absurd hpiece ((noImport_text hlower).terminate k)
  | imported record text =>
    have hemitted := emitted_of_imported (lowers_of_lower hlower).2
    rw [hemitted] at hk
    refine ⟨pre, record, text, post, hrs, ?_, by omega, by omega⟩
    obtain ⟨rest, hrest, -⟩ := Program.withEntryPoint_eq_append (unlines (rs.map Lowered.emitted))
    have hemit : (Program.emit rs).text = unlines (rs.map Lowered.emitted) ++ rest := hrest
    rw [hemit, hrs, List.map_append, List.map_cons, Text.unlines_eq_closed, hemitted,
      List.append_assoc _ _ rest]
    exact List.prefix_append _ _

/-- **Imports are centralised.** If a script is lowered, no host text holds the import keyword, and
where the keyword stands in the program it stands in the import of a declare statement. So a script
without declare statements has a program without the keyword. -/
theorem imports_centralised {ctx : Context} {t : Text} {rs : List Lowered}
    (h : lowerAll ctx (Statement.scan t) = .ok rs) :
    (∀ text, Lowered.raw text ∈ rs → NoImport text) ∧
    (∀ n, WordAt importWord (Program.emit rs).text n → WithinImport rs n) ∧
    ((∀ s ∈ Statement.scan t, ¬ Declare.HasForm (trim s.text)) →
      NoImport (Program.emit rs).text) := by
  refine ⟨?_, fun n hword => withinImport_of_wordAt h hword, ?_⟩
  · intro text hmem
    obtain ⟨s, -, hlower⟩ := exists_of_mem_lowerAll h hmem
    exact noImport_text hlower
  · intro hnone n hword
    obtain ⟨pre, record, text, post, hrs, -⟩ := withinImport_of_wordAt h hword
    obtain ⟨s, hs, hlower⟩ := exists_of_mem_lowerAll h
      (show Lowered.imported record text ∈ rs by rw [hrs]; simp)
    exact hnone s hs (hasForm_of_imported (lowers_of_lower hlower).2)

/-- The keyword in the module of a declare statement, and in longer words around it: in the program
it stands at the start of the import and in its module, and the call behind it is free of it. A
script of that call alone has a program without the keyword. -/
theorem imports_centralised_module_and_call :
    let t := "declare a from 'import'\nlog(important, $reimport)".toList
    let u := "log(important, $reimport)".toList
    (∃ rs, lowerAll ⟨⟨['/']⟩, []⟩ (Statement.scan t) = .ok rs ∧
      WordAt importWord (Program.emit rs).text 0 ∧ WithinImport rs 0 ∧
      WordAt importWord (Program.emit rs).text 15 ∧ WithinImport rs 15 ∧
      NoImport "console.log(important, $reimport)".toList) ∧
    ∃ rs, lowerAll ⟨⟨['/']⟩, []⟩ (Statement.scan u) = .ok rs ∧
      (∀ s ∈ Statement.scan u, ¬ Declare.HasForm (trim s.text)) ∧
      NoImport (Program.emit rs).text := by
  intro t u
  have ht : ∃ rs, lowerAll ⟨⟨['/']⟩, []⟩ (Statement.scan t) = .ok rs ∧
      WordAt importWord (Program.emit rs).text 0 ∧ WordAt importWord (Program.emit rs).text 15 ∧
      Lowered.raw "console.log(important, $reimport)".toList ∈ rs :=
    ⟨_, rfl, by decide, by decide, by decide⟩
  have hu : ∃ rs, lowerAll ⟨⟨['/']⟩, []⟩ (Statement.scan u) = .ok rs := ⟨_, rfl⟩
  have hforms : ∀ s ∈ Statement.scan u, ¬ Declare.HasForm (trim s.text) := by
    have hread : ∀ s ∈ Statement.scan u, (Declare.read? (trim s.text)).isSome = false := by decide
    intro s hs hform
    rw [← Declare.isSome_read?_iff, hread s hs] at hform
    exact Bool.noConfusion hform
  obtain ⟨rs, hrs, hstart, hmodule, hcall⟩ := ht
  obtain ⟨rs', hrs'⟩ := hu
  obtain ⟨hraw, hplace, -⟩ := imports_centralised hrs
  exact ⟨⟨rs, hrs, hstart, hplace 0 hstart, hmodule, hplace 15 hmodule, hraw _ hcall⟩,
    rs', hrs', hforms, (imports_centralised hrs').2.2 hforms⟩

end Sandscript
