import Sandscript.Proofs.EntryPoint
import Sandscript.Proofs.LoweredLines

/-!
# Emitting an emitted program

A program is again a text of statements, and emitting these gives the program back. This holds for
every text, whether or not its parentheses are balanced, and rests on two facts:

* ending a statement keeps what the scanner sees of it. A block stays a block
  (`block_terminate`), because its newlines stand before its last parenthesis. An open last
  statement may lose blank lines at its end, but it stays open (`StaysOpen.terminate`);
* the guarded call goes on a line of its own behind blocks. Behind an open statement it becomes a
  part of that statement, which then needs no end because the call ends with a brace
  (`terminate_appendLine`).

In either case the program consists of texts that scanning and ending leave as they are (`Stable`),
and emitting such texts changes nothing once there is an entry point.
-/

namespace Sandscript

open Text (trimEnd lines unlines AllBlank)
open Terminator (terminate)

-- ---------------------------------------------------------------------------
-- What the scanner sees of an ended statement
-- ---------------------------------------------------------------------------

/-- A terminated statement that is ended is still a block. -/
theorem Statement.MadeOf.block_terminate {s : Statement} {g : List Text}
    (h : Statement.MadeOf s g) (hs : s.unterminated = false) :
    Statement.Block (lines (terminate s.text)) := by
  refine h.block_of_marks hs (marks_terminate ?_)
  exact h.newline_notMem_blanks hs (Text.trimEnd_append_trail s.text).symm
    (Text.allBlank_trail s.text)

theorem balance_of_allBlank {t : Text} (h : AllBlank t) : Statement.balance t = 0 := by
  have hopen : t.count '(' = 0 := List.count_eq_zero_of_not_mem (h.notMem (by decide))
  have hclose : t.count ')' = 0 := List.count_eq_zero_of_not_mem (h.notMem (by decide))
  rw [Statement.balance_eq_count, hopen, hclose]
  rfl

/-- Blanks behind a text add lines to it and change no balance: those that were there stay as they
are, and the new ones are blank. -/
theorem map_balance_lines_prefix (a : Text) {b : Text} (hb : AllBlank b) :
    (lines a).map Statement.balance <+: (lines (a ++ b)).map Statement.balance := by
  induction a with
  | nil =>
    obtain ⟨first, rest, hlines⟩ := List.exists_cons_of_ne_nil (Text.lines_ne_nil b)
    -- the first of the blanks go to the last line, and have no balance
    have hfirst : Statement.balance first = 0 := by
      refine balance_of_allBlank fun c hc => hb c ?_
      rw [← Text.unlines_lines b, hlines, Text.unlines_cons]
      exact List.mem_append_left _ hc
    rw [List.nil_append, hlines, Text.lines_nil, List.map_singleton, List.map_cons, hfirst]
    exact ⟨_, rfl⟩
  | cons c a ih =>
    obtain ⟨line, rest, hlines⟩ := List.exists_cons_of_ne_nil (Text.lines_ne_nil a)
    obtain ⟨line', rest', hlines'⟩ := List.exists_cons_of_ne_nil (Text.lines_ne_nil (a ++ b))
    by_cases hc : c = '\n'
    · subst hc
      rw [List.cons_append, Text.lines_cons_newline, Text.lines_cons_newline, List.map_cons,
        List.map_cons, List.cons_prefix_cons]
      exact ⟨rfl, ih⟩
    · rw [hlines, hlines', List.map_cons, List.map_cons, List.cons_prefix_cons] at ih
      rw [List.cons_append, Text.lines_cons_of_ne hc hlines, Text.lines_cons_of_ne hc hlines',
        List.map_cons, List.map_cons, List.cons_prefix_cons, Statement.balance_cons,
        Statement.balance_cons, ih.1]
      exact ⟨rfl, ih.2⟩

/-- An open statement that is ended is still open. -/
theorem Statement.StaysOpen.terminate {t : Text} (h : Statement.StaysOpen (lines t)) :
    Statement.StaysOpen (lines (terminate t)) := by
  rcases terminate_eq t with heq | heq
  · rw [heq]
    exact h
  · refine h.of_balances ?_
    have hmarks : marks (trimEnd t ++ [Terminator.mark]) = marks (trimEnd t) := by
      rw [marks_append, show marks [Terminator.mark] = [] by decide, List.append_nil]
    have hpre := map_balance_lines_prefix (trimEnd t) (Text.allBlank_trail t)
    rw [Text.trimEnd_append_trail] at hpre
    rw [heq, map_balance_lines_congr hmarks]
    exact hpre

/-- The call of `main` behind an open statement becomes a part of it. -/
theorem Statement.StaysOpen.appendLine {t : Text} (h : Statement.StaysOpen (lines t)) :
    Statement.StaysOpen (lines (Program.appendLine t Program.guardCall)) := by
  have hcall : lines Program.guardCall = [Program.guardCall] := Text.lines_of_notMem (by decide)
  have hbehind : ∀ u, Statement.StaysOpen (lines u) →
      Statement.StaysOpen (lines (unlines [u, Program.guardCall, []])) := by
    intro u hu
    have hlines : lines (unlines [u, Program.guardCall, []]) =
        lines u ++ [Program.guardCall] ++ [[]] := by
      rw [Text.lines_unlines (by simp)]
      simp [hcall]
    rw [hlines]
    exact (hu.concat (Text.lines_ne_nil u) (by decide)).concat (by simp) (by decide)
  rcases Program.appendLine_cases t Program.guardCall with ⟨rfl, -⟩ | ⟨-, -, heq⟩ | ⟨u, rfl, heq⟩
  · -- nothing is not open
    exact absurd (h [[]] (List.prefix_refl _) (by simp)) (by decide)
  · rw [heq]
    exact hbehind t h
  · rw [heq]
    have hlines : lines (u ++ ['\n']) = lines u ++ [[]] := Text.lines_append_newline u []
    exact hbehind u (h.of_prefix (hlines ▸ List.prefix_append _ _))

/-- With the call at its end a statement is ended. -/
theorem terminate_appendLine (t : Text) :
    terminate (Program.appendLine t Program.guardCall) =
      Program.appendLine t Program.guardCall := by
  obtain ⟨front, hfront⟩ : ∃ front,
      Program.appendLine t Program.guardCall = front ++ Program.guardCall ++ ['\n'] := ⟨_, rfl⟩
  obtain ⟨call, hcall⟩ : ∃ call, Program.guardCall = call ++ ['\x7d'] :=
    List.getLast?_eq_some_iff.mp (by decide)
  have hsplit : front ++ Program.guardCall ++ ['\n'] = (front ++ call) ++ '\x7d' :: ['\n'] := by
    rw [hcall]
    simp
  rw [hfront, hsplit]
  refine terminate_of_closer (front ++ call) (by decide) fun c hc => ?_
  rw [List.mem_singleton.mp hc]
  decide

-- ---------------------------------------------------------------------------
-- Stable texts
-- ---------------------------------------------------------------------------

/-- The program of a text that is host text already: its statements are ended and not lowered. -/
def Program.ofHostText (t : Text) : Program :=
  Program.emit ((Statement.scan t).map fun s => .raw s.text)

/-- The text of a program that is read again: its statements are ended, joined, and given an entry
point. -/
theorem Program.text_ofHostText (t : Text) :
    (Program.ofHostText t).text =
      Program.withEntryPoint (unlines (((Statement.scan t).map Statement.text).map terminate)) := by
  rw [Program.ofHostText, Program.emit, List.map_map, List.map_map]
  rfl

/-- Texts that scanning and ending leave as they are. -/
structure Stable (pieces : List Text) : Prop where
  nonempty : pieces ≠ []
  grouping : Statement.Grouping (pieces.flatMap lines) (pieces.map lines)
  ended : ∀ e ∈ pieces, terminate e = e

/-- Emitting stable texts with an entry point gives them back. -/
theorem Stable.text_ofHostText {pieces : List Text} (h : Stable pieces)
    (hentry : Program.hasEntryPoint (unlines pieces) = true) :
    (Program.ofHostText (unlines pieces)).text = unlines pieces := by
  have hended : pieces.map terminate = pieces := by
    conv_rhs => rw [← List.map_id pieces]
    exact List.map_congr_left h.ended
  rw [Program.text_ofHostText, Statement.map_text_scan_unlines h.nonempty h.grouping, hended,
    Program.withEntryPoint, if_pos hentry]

/-- The ended statements of a text are blocks, but for a last one that may be open. Ending keeps the
balances, so the groups of the scanner are still groups. -/
theorem ended_statements (t : Text) :
    ∃ init last, ((Statement.scan t).map Statement.text).map terminate = init ++ [last] ∧
      (∀ e ∈ init, Statement.Block (lines e)) ∧
      (Statement.Block (lines last) ∨ Statement.StaysOpen (lines last)) := by
  obtain ⟨pre, s, hscan⟩ := (List.eq_nil_or_concat (Statement.scan t)).resolve_left
    (Statement.scan_ne_nil t)
  rw [List.concat_eq_append] at hscan
  refine ⟨(pre.map Statement.text).map terminate, terminate s.text, by rw [hscan]; simp, ?_, ?_⟩
  · intro e he
    rw [List.map_map] at he
    obtain ⟨p, hp, rfl⟩ := List.mem_map.mp he
    obtain ⟨before, after, rfl⟩ := List.append_of_mem hp
    -- a statement before the last one is terminated
    have hsplit : Statement.scan t = before ++ p :: (after ++ [s]) := by
      rw [hscan]
      simp
    obtain ⟨⟨g, hmade⟩, -, hended⟩ := Statement.scan_split hsplit
    exact hmade.block_terminate (hended (by simp))
  · obtain ⟨⟨g, hmade⟩, -, -⟩ := Statement.scan_split hscan
    cases hs : s.unterminated with
    | false => exact Or.inl (hmade.block_terminate hs)
    | true =>
      have hopen : 0 < Statement.depth g := by
        rw [hmade.flag_eq, decide_eq_true_eq] at hs
        exact hs
      refine Or.inr (Statement.StaysOpen.terminate ?_)
      rw [hmade.lines_eq]
      exact hmade.open_inside.staysOpen hopen

/-- Blocks stay stable when the call is put on a line behind them. -/
theorem stable_withEntryPoint_of_blocks {pieces : List Text} (hne : pieces ≠ [])
    (hblocks : ∀ e ∈ pieces, Statement.Block (lines e)) (hended : ∀ e ∈ pieces, terminate e = e) :
    ∃ pieces', Stable pieces' ∧ Program.withEntryPoint (unlines pieces) = unlines pieces' := by
  obtain ⟨pieces', hne', htext, hmem⟩ := Program.withEntryPoint_unlines hne
    fun e he => (hblocks e he).getLast?_ne_newline
  refine ⟨pieces', ⟨hne', Statement.grouping_of_blocks fun e he => ?_, fun e he => ?_⟩, htext⟩
  · rcases hmem e he with hold | rfl | rfl
    · exact hblocks e hold
    · exact Program.block_guardCall
    · exact Statement.block_singleton (by decide)
  · rcases hmem e he with hold | rfl | rfl
    · exact hended e hold
    · decide
    · rfl

/-- So do texts of which the last one is open and takes in the call. -/
theorem stable_withEntryPoint_of_open {init : List Text} {last : Text}
    (hinit : ∀ e ∈ init, Statement.Block (lines e)) (hopen : Statement.StaysOpen (lines last))
    (hended : ∀ e ∈ init ++ [last], terminate e = e) :
    ∃ pieces, Stable pieces ∧
      Program.withEntryPoint (unlines (init ++ [last])) = unlines pieces := by
  rcases Program.withEntryPoint_cases (unlines (init ++ [last])) with ⟨-, heq⟩ | ⟨-, heq⟩
  · exact ⟨_, ⟨by simp, Statement.grouping_lines hinit hopen.openInside, hended⟩, heq⟩
  · refine ⟨init ++ [Program.appendLine last Program.guardCall],
      ⟨by simp, Statement.grouping_lines hinit hopen.appendLine.openInside, ?_⟩, ?_⟩
    · intro e he
      rcases List.mem_append.mp he with he | he
      · exact hended e (List.mem_append_left _ he)
      · rw [List.mem_singleton.mp he]
        exact terminate_appendLine last
    · rw [heq, Text.unlines_append, Text.unlines_append, Text.unlines_singleton,
        Text.unlines_singleton, Program.appendLine_closed_append]

/-- A program consists of stable texts: its statements with their ends, and the call of the entry
point, if it had to be appended. A last statement that is open takes the call in. -/
theorem exists_stable (t : Text) :
    ∃ pieces, Stable pieces ∧ (Program.ofHostText t).text = unlines pieces := by
  obtain ⟨init, last, hpieces, hinit, hlast⟩ := ended_statements t
  have hended : ∀ e ∈ init ++ [last], terminate e = e := by
    intro e he
    rw [← hpieces] at he
    obtain ⟨text, -, rfl⟩ := List.mem_map.mp he
    exact terminate_terminate text
  rw [Program.text_ofHostText, hpieces]
  rcases hlast with hblock | hopen
  · refine stable_withEntryPoint_of_blocks (by simp) (fun e he => ?_) hended
    rcases List.mem_append.mp he with he | he
    · exact hinit e he
    · rw [List.mem_singleton.mp he]
      exact hblock
  · exact stable_withEntryPoint_of_open hinit hopen hended

/-- **Emitting an emitted program changes nothing.** Whatever a text holds, the program of its
statements, taken as a text of statements, has itself as its program. -/
theorem reemit_emitted (t : Text) :
    (Program.ofHostText (Program.ofHostText t).text).text = (Program.ofHostText t).text := by
  have hentry : Program.hasEntryPoint (Program.ofHostText t).text = true := by
    rw [Program.text_ofHostText]
    exact Program.hasEntryPoint_withEntryPoint _
  obtain ⟨pieces, hstable, htext⟩ := exists_stable t
  rw [htext] at hentry ⊢
  exact hstable.text_ofHostText hentry

end Sandscript
