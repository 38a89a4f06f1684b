import Sandscript.Proofs.EntryPoint
import Sandscript.Proofs.Listing
import Sandscript.Proofs.LoweredLines

/-!
# Line numbers from the source to the listing

The host reports errors by line, and the listing that is shown after a failure numbers the lines of
the file the host was started with. Both can be read against the script, because a statement keeps
its line: what it is lowered to starts on the line of the program on which the statement starts in
the script.

* `count_newline_emitted` — a statement that is not the last one keeps its number of newlines;
* `count_newline_before` — so what stands before a statement keeps it too;
* `line_alignment` — the place of a lowered statement in the program, in the entry file and in the
  listing of the entry file.

Imports are the exception: they are written on one line, so a declare statement of several lines
moves what follows it.
-/

namespace Sandscript

open Text (trim indent lines unlines closed opened endedLines)
open Terminator (terminate)

-- ---------------------------------------------------------------------------
-- One statement
-- ---------------------------------------------------------------------------

/-- The host text of a lowered statement, ended where it needs to be. -/
def Lowered.emitted (r : Lowered) : Text := terminate r.text

/-- An import line ends with the mark. -/
theorem Import.getLast?_render (i : Import) (dir : Path) :
    (i.render dir).getLast? = some ';' := by
  have hend : ['"', ';'].getLast? = some ';' := rfl
  obtain ⟨front, hfront⟩ : ∃ front, i.render dir = front ++ ['"', ';'] := ⟨_, rfl⟩
  rw [hfront, List.getLast?_append, hend, Option.some_or]

/-- A statement that is not blank is lowered to a text that does not end with a blank. -/
theorem last_of_lower {ctx : Context} {s : Statement} {r : Lowered} (h : Lowers ctx s r)
    (hb : s.isBlank = false) :
    r.text ≠ [] ∧ ∀ c, r.text.getLast? = some c → Text.isBlank c = false := by
  cases r with
  | raw text =>
    rcases h.raw_cases with ⟨hblank, -⟩ | ⟨-, body, hbody, rfl⟩
    · exact absurd (Text.trim_eq_nil_iff.mpr hblank) (Statement.trim_ne_nil hb)
    · have htrim := trimmed_expandLog (hbody.trimmed (Text.trimmed_trim s.text))
      have hne := expandLog_ne_nil (hbody.ne_nil (Statement.trim_ne_nil hb))
      exact ⟨by simp [Lowered.text, hne], htrim.last_append hne _⟩
  | imported record text =>
    cases h with
    | declared =>
      have hlast : (indent s.text ++ record.render ctx.sourceDir).getLast? = some ';' := by
        rw [List.getLast?_append, Import.getLast?_render, Option.some_or]
      refine ⟨fun hnil => ?_, fun c hc => ?_⟩
      · rw [Lowered.text] at hnil
        rw [hnil] at hlast
        exact absurd hlast (by simp)
      · rw [Lowered.text, hlast] at hc
        obtain rfl : ';' = c := Option.some.inj hc
        decide

/-- A statement that is not blank is lowered to a text that does not end with a blank. So ending it
appends the mark on its last line. -/
theorem emitted_of_not_blank {ctx : Context} {s : Statement} {r : Lowered} (h : Lowers ctx s r)
    (hb : s.isBlank = false) :
    ∃ init c, r.emitted = init ++ [c] ∧ Text.isBlank c = false := by
  obtain ⟨hne, hlast⟩ := last_of_lower h hb
  rcases terminate_cases hlast with ⟨-, heq⟩ | ⟨-, heq⟩
  · obtain ⟨init, c, hr⟩ := List.eq_nil_or_concat r.text |>.resolve_left hne
    rw [List.concat_eq_append] at hr
    refine ⟨init, c, heq.trans hr, hlast c ?_⟩
    rw [hr]
    simp
  · exact ⟨r.text, Terminator.mark, heq, by decide⟩

/-- A statement that becomes an import covers one line, and so does the import. -/
def OneLineImport (s : Statement) : Lowered → Prop
  | .raw _ => True
  | .imported _ text => s.lineCount = 1 ∧ '\n' ∉ text

instance (s : Statement) : (r : Lowered) → Decidable (OneLineImport s r)
  | .raw _ => inferInstanceAs (Decidable True)
  | .imported _ text => inferInstanceAs (Decidable (s.lineCount = 1 ∧ '\n' ∉ text))

/-- A terminated statement keeps its newlines; so does a declare statement on one line whose import
is on one line. The mark goes behind the last character that is not blank, and there is no newline
behind that. -/
theorem count_newline_emitted {ctx : Context} {s : Statement} {g : List Text} {r : Lowered}
    (hmade : Statement.MadeOf s g) (hs : s.unterminated = false) (h : Lowers ctx s r)
    (himport : OneLineImport s r) :
    r.emitted.count '\n' = s.text.count '\n' := by
  cases r with
  | raw text =>
    have hmarks := marks_terminate_raw hmade hs h
    rw [← count_newline_marks s.text, ← hmarks, count_newline_marks]
    rfl
  | imported record text =>
    obtain ⟨hcount, hnl⟩ := himport
    have hb : s.isBlank = false := by
      cases h with
      | declared hb => exact hb
    have hzero : s.text.count '\n' = 0 := by
      have hlines := Text.length_lines s.text
      rw [hmade.lines_eq, ← hmade.count_eq, hcount] at hlines
      omega
    rw [hzero, List.count_eq_zero]
    rcases terminate_cases (last_of_lower h hb).2 with ⟨-, heq⟩ | ⟨-, heq⟩
    · rw [Lowered.emitted, heq]
      exact hnl
    · rw [Lowered.emitted, heq, List.mem_append, not_or]
      exact ⟨hnl, by decide⟩

-- ---------------------------------------------------------------------------
-- The program
-- ---------------------------------------------------------------------------

theorem eq_take_cons_drop {α : Type} {l : List α} {i : Nat} {a : α} (h : l[i]? = some a) :
    l = l.take i ++ a :: l.drop (i + 1) := by
  obtain ⟨hi, rfl⟩ := List.getElem?_eq_some_iff.mp h
  rw [← List.drop_eq_getElem_cons hi, List.take_append_drop]

/-- The statements of a script that is lowered, each with what it is lowered to. -/
theorem lowers_of_getElem? {ctx : Context} {ss : List Statement} {rs : List Lowered}
    (h : lowerAll ctx ss = .ok rs) {i : Nat} {s : Statement} {r : Lowered} (hs : ss[i]? = some s)
    (hr : rs[i]? = some r) : Lowers ctx s r := by
  have hall := lowerAll_eq_ok_iff.mp h
  obtain ⟨hi, rfl⟩ := List.getElem?_eq_some_iff.mp hs
  obtain ⟨hj, rfl⟩ := List.getElem?_eq_some_iff.mp hr
  exact (lowers_of_lower (hall.get hi hj)).2

/-- All statements that become imports cover one line each, and so do their imports. -/
def ImportsOnOneLine (ss : List Statement) (rs : List Lowered) : Prop :=
  ∀ p ∈ ss.zip rs, OneLineImport p.1 p.2

instance (ss : List Statement) (rs : List Lowered) : Decidable (ImportsOnOneLine ss rs) :=
  inferInstanceAs (Decidable (∀ p ∈ ss.zip rs, _))

section Alignment

variable {ctx : Context} {t : Text} {rs : List Lowered}

/-- A statement that another one follows keeps its newlines. -/
theorem count_newline_of_next (h : lowerAll ctx (Statement.scan t) = .ok rs)
    (himports : ImportsOnOneLine (Statement.scan t) rs) {i : Nat} {s : Statement} {r : Lowered}
    (hs : (Statement.scan t)[i]? = some s) (hr : rs[i]? = some r)
    (hi : i + 1 < (Statement.scan t).length) : r.emitted.count '\n' = s.text.count '\n' := by
  obtain ⟨⟨g, hmade⟩, -, hended⟩ := Statement.scan_split (eq_take_cons_drop hs)
  have hnext : (Statement.scan t).drop (i + 1) ≠ [] := by
    rw [ne_eq, List.drop_eq_nil_iff]
    omega
  refine count_newline_emitted hmade (hended hnext) (lowers_of_getElem? h hs hr) ?_
  refine himports (s, r) (List.mem_of_getElem? (i := i) ?_)
  rw [List.getElem?_zip_eq_some]
  exact ⟨hs, hr⟩

/-- Before a statement stand as many newlines in the program as in the script. -/
theorem count_newline_before (h : lowerAll ctx (Statement.scan t) = .ok rs)
    (himports : ImportsOnOneLine (Statement.scan t) rs) {i : Nat}
    (hi : i < (Statement.scan t).length) :
    (closed ((rs.take i).map Lowered.emitted)).count '\n' =
      (closed (((Statement.scan t).take i).map Statement.text)).count '\n' := by
  have hlen : (Statement.scan t).length = rs.length := (lowerAll_eq_ok_iff.mp h).length_eq
  -- along the statements before; none of them is the last one
  induction i with
  | zero => rfl
  | succ i ih =>
    have hs := List.getElem?_eq_getElem (show i < (Statement.scan t).length by omega)
    have hr := List.getElem?_eq_getElem (show i < rs.length by omega)
    have hone := count_newline_of_next h himports hs hr hi
    rw [List.take_add_one, List.take_add_one, hs, hr, Option.toList_some, Option.toList_some,
      List.map_append, List.map_append, Text.closed_append, Text.closed_append,
      List.count_append, List.count_append, ih (by omega)]
    simp only [List.map_cons, List.map_nil, Text.closed_cons, List.count_append, hone]

/-- Where a lowered statement stands in the program: behind the emitted texts of those before it,
each on lines of its own. What follows it starts on a new line, if it is not blank. -/
theorem emit_place (h : lowerAll ctx (Statement.scan t) = .ok rs) {i : Nat} {s : Statement}
    {r : Lowered} (hs : (Statement.scan t)[i]? = some s) (hr : rs[i]? = some r) :
    ∃ rest, (Program.emit rs).text =
        closed ((rs.take i).map Lowered.emitted) ++ r.emitted ++ rest ∧
      (s.isBlank = false → rest = [] ∨ rest.head? = some '\n') ∧
      (i + 1 < (Statement.scan t).length → rest.head? = some '\n') := by
  have hlen : (Statement.scan t).length = rs.length := (lowerAll_eq_ok_iff.mp h).length_eq
  -- the emitted texts, with the newlines that close those before and open those behind
  have hjoined : unlines (rs.map Lowered.emitted) = closed ((rs.take i).map Lowered.emitted) ++
      r.emitted ++ opened ((rs.drop (i + 1)).map Lowered.emitted) := by
    conv_lhs => rw [eq_take_cons_drop hr, List.map_append, List.map_cons]
    exact Text.unlines_eq_closed _ _ _
  obtain ⟨rest, hrest, hnew⟩ := Program.withEntryPoint_eq_append (unlines (rs.map Lowered.emitted))
  refine ⟨opened ((rs.drop (i + 1)).map Lowered.emitted) ++ rest, ?_, ?_, ?_⟩
  · calc (Program.emit rs).text = unlines (rs.map Lowered.emitted) ++ rest := hrest
      _ = _ := by rw [hjoined]; simp
  · intro hb
    cases hdrop : rs.drop (i + 1) with
    | nil =>
      -- the last statement: what is appended for the entry point starts on a new line
      obtain ⟨init, c, hinit, hc⟩ := emitted_of_not_blank (lowers_of_getElem? h hs hr) hb
      rw [hjoined, hdrop, hinit] at hnew
      refine hnew c (by simp [opened]) ?_
      rintro rfl
      exact absurd hc (by decide)
    | cons next more =>
      rw [List.map_cons, Text.opened_cons]
      exact Or.inr rfl
  · intro hi
    obtain ⟨next, more, hdrop⟩ : ∃ next more, rs.drop (i + 1) = next :: more :=
      ⟨_, _, List.drop_eq_getElem_cons (by omega)⟩
    rw [hdrop, List.map_cons, Text.opened_cons]
    rfl

/-- The line of the entry file on which a statement's host text starts, and what the line is. The
entry file has one line more in front, the import of the prelude, and this is the one in the count.
-/
theorem entry_line (h : lowerAll ctx (Statement.scan t) = .ok rs) {i : Nat} {s : Statement}
    {r : Lowered} (hs : (Statement.scan t)[i]? = some s) (hr : rs[i]? = some r)
    (hb : s.isBlank = false) {first : Text} {more : List Text}
    (hfirst : lines r.emitted = first :: more) :
    ∃ above below, lines (Program.emit rs).entryText = above ++ first :: below ∧
      above.length = (closed ((rs.take i).map Lowered.emitted)).count '\n' + 1 ∧
      (below = [] → first ≠ []) := by
  obtain ⟨rest, hplace, hnew, -⟩ := emit_place h hs hr
  set before := (rs.take i).map Lowered.emitted
  have hentry : (Program.emit rs).entryText =
      closed (Prelude.importLine :: before) ++ (r.emitted ++ rest) := by
    rw [Program.entryText, hplace, Text.closed_cons]
    simp
  have hone : lines Prelude.importLine = [Prelude.importLine] :=
    Text.lines_of_notMem (by decide)
  -- above stand the import of the prelude and the lines before the statement
  have habove : ((Prelude.importLine :: before).flatMap lines).length =
      (closed before).count '\n' + 1 := by
    have hlines := congrArg List.length (Text.lines_closed_append before [])
    rw [List.append_nil, Text.length_lines, List.length_append] at hlines
    rw [List.flatMap_cons, hone, List.length_append]
    simp only [Text.lines_nil, List.length_singleton] at hlines ⊢
    omega
  rcases hnew hb with rfl | hhead
  · refine ⟨_, more, ?_, habove, ?_⟩
    · rw [hentry, List.append_nil, Text.lines_closed_append, hfirst]
    · -- a text of one line that is not empty has something on that line
      rintro rfl rfl
      obtain ⟨init, c, hinit, -⟩ := emitted_of_not_blank (lowers_of_getElem? h hs hr) hb
      have hnil := Text.unlines_lines r.emitted
      rw [hfirst, hinit] at hnil
      simp at hnil
  · obtain ⟨tail, rfl⟩ := List.head?_eq_some_iff.mp hhead
    refine ⟨_, more ++ lines tail, ?_, habove, ?_⟩
    · rw [hentry, Text.lines_closed_append, Text.lines_append_newline, hfirst]
      rfl
    · intro hnil
      exact absurd (List.append_eq_nil_iff.mp hnil).2 (Text.lines_ne_nil tail)

end Alignment

/-- A text stands in another one, behind the given text and from the start of a line on. -/
structure StandsAt (whole before part : Text) (line : Nat) : Prop where
  place : before ++ part <+: whole
  fresh : before = [] ∨ before.getLast? = some '\n'
  number : before.count '\n' + 1 = line

/-- **Lines are aligned from the script to the listing.** If every declare statement covers one line
and is lowered to one, then the host text of each statement starts in the program on the line of the
statement, and covers as many lines if it is not the last one. So it starts in the entry file as
many lines further down as the program does, and where the listing of the entry file gives that
number it shows the first line of the text, up to a carriage return. -/
theorem line_alignment {ctx : Context} {t : Text} {rs : List Lowered}
    (h : lowerAll ctx (Statement.scan t) = .ok rs)
    (himports : ImportsOnOneLine (Statement.scan t) rs) {i : Nat} {s : Statement}
    (hs : (Statement.scan t)[i]? = some s) : ∃ r, rs[i]? = some r ∧
    StandsAt (Program.emit rs).text (closed ((rs.take i).map Lowered.emitted)) r.emitted s.line ∧
    (i + 1 < (Statement.scan t).length → (lines r.emitted).length = s.lineCount ∧
      closed ((rs.take i).map Lowered.emitted) ++ r.emitted ++ ['\n'] <+:
        (Program.emit rs).text) ∧
    StandsAt (Program.emit rs).entryText
      (Prelude.importLine ++ '\n' :: closed ((rs.take i).map Lowered.emitted)) r.emitted
      (s.line + Program.startLine - 1) ∧
    (s.isBlank = false → ∃ first more shown, lines r.emitted = first :: more ∧
      (lines (Text.numbered (Program.emit rs).entryText))[s.line + Program.startLine - 2]? =
        some (Text.label (Text.numberWidth (endedLines (Program.emit rs).entryText).length)
          (s.line + Program.startLine - 1) ++ shown) ∧
      (shown = first ∨ shown ++ ['\r'] = first)) := by
  obtain ⟨hi, -⟩ := List.getElem?_eq_some_iff.mp hs
  have hlen : (Statement.scan t).length = rs.length := (lowerAll_eq_ok_iff.mp h).length_eq
  obtain ⟨r, hr⟩ : ∃ r, rs[i]? = some r := ⟨_, List.getElem?_eq_getElem (by omega)⟩
  obtain ⟨⟨g, hmade⟩, hline, -⟩ := Statement.scan_split (eq_take_cons_drop hs)
  have hstart : Program.startLine = 2 := by decide
  have hbefore := count_newline_before h himports hi
  obtain ⟨rest, hplace, -, hnext⟩ := emit_place h hs hr
  refine ⟨r, hr, ⟨⟨rest, hplace.symm⟩, Text.closed_fresh _, by omega⟩, fun hmore => ⟨?_, ?_⟩, ?_,
    ?_⟩
  · -- as many lines as the statement covers
    rw [Text.length_lines, count_newline_of_next h himports hs hr hmore, hmade.count_eq,
      ← hmade.lines_eq, Text.length_lines]
  · obtain ⟨tail, rfl⟩ := List.head?_eq_some_iff.mp (hnext hmore)
    exact ⟨tail, by rw [hplace]; simp⟩
  · -- in the entry file, one line further down
    refine ⟨⟨rest, ?_⟩, Or.inr ?_, ?_⟩
    · rw [Program.entryText, hplace]
      simp
    · rcases Text.closed_fresh ((rs.take i).map Lowered.emitted) with hnil | hnl
      · rw [hnil]
        simp
      · rw [List.getLast?_append, List.getLast?_cons, hnl]
        rfl
    · have hone : Prelude.importLine.count '\n' = 0 := by decide
      rw [List.count_append, List.count_cons_self, hone]
      omega
  · intro hb
    obtain ⟨first, more, hfirst⟩ := List.exists_cons_of_ne_nil (Text.lines_ne_nil r.emitted)
    obtain ⟨above, below, hlines, habove, hlast⟩ := entry_line h hs hr hb hfirst
    -- in the listing, the number of the line is that of its row
    have hindex : s.line + Program.startLine - 2 = above.length := by omega
    have hnumber : s.line + Program.startLine - 1 = above.length + 1 := by omega
    rw [hindex, hnumber]
    by_cases hbelow : below = []
    · subst hbelow
      have hshown := Text.getElem?_endedLines_last hlines (hlast rfl)
      exact ⟨first, more, first, hfirst, Text.numbered_line hshown, Or.inl rfl⟩
    · have hshown := Text.getElem?_endedLines_of_below hlines hbelow
      refine ⟨first, more, Text.chomp first, hfirst, Text.numbered_line hshown, ?_⟩
      rw [Text.chomp]
      split
      · next hcr => exact Or.inr (List.dropLast_append_getLast? _ hcr)
      · exact Or.inl rfl

/-- A call over two lines behind an import and a blank line, with a carriage return: its text starts
on the third line of the program and the fourth line of the listing. -/
theorem line_alignment_two_line_call :
    let t := "declare a from 'b'\n\n fn f(\r\n log(1))  \nx = 2".toList
    ∃ rs, lowerAll ⟨⟨['/']⟩, []⟩ (Statement.scan t) = .ok rs ∧
      ImportsOnOneLine (Statement.scan t) rs ∧
      (∃ s, (Statement.scan t)[2]? = some s ∧ s.line = 3 ∧ s.lineCount = 2 ∧ ∃ r,
        rs[2]? = some r ∧ (lines r.emitted).length = 2 ∧
        StandsAt (Program.emit rs).text (closed ((rs.take 2).map Lowered.emitted)) r.emitted 3 ∧
        ∃ first more shown, lines r.emitted = first :: more ∧
          (lines (Text.numbered (Program.emit rs).entryText))[3]? =
            some (Text.label (Text.numberWidth (endedLines (Program.emit rs).entryText).length) 4 ++
              shown) ∧
          (shown = first ∨ shown ++ ['\r'] = first)) := by
  intro t
  have himports : ∃ rs, lowerAll ⟨⟨['/']⟩, []⟩ (Statement.scan t) = .ok rs ∧
      ImportsOnOneLine (Statement.scan t) rs := ⟨_, rfl, by decide⟩
  have hs : ∃ s, (Statement.scan t)[2]? = some s ∧ s.line = 3 ∧ s.lineCount = 2 ∧
      s.isBlank = false := ⟨_, rfl, rfl, rfl, by decide⟩
  obtain ⟨rs, h, himports⟩ := himports
  obtain ⟨s, hs, hline, hcount, hb⟩ := hs
  obtain ⟨r, hr, hplace, hcover, -, hshown⟩ := line_alignment h himports hs
  rw [hline] at hplace hshown
  rw [hcount] at hcover
  exact ⟨rs, h, himports, s, hs, hline, hcount, r, hr, (hcover (by decide)).1, hplace, hshown hb⟩

end Sandscript
