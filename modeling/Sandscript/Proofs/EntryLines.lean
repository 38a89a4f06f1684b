import Mathlib
import Sandscript.Proofs.DeclareForm
import Sandscript.Proofs.EntryPoint
import Sandscript.Proofs.StatementEnd

/-!
# Lines that start a program

A program starts itself if it calls `main` on lines of their own. Blanks are allowed around the
call, and newlines are blanks, so a call may be written over several lines: `await` on one, `main()`
on the next, `;` on a third (`CallOnLines`). Yet looking at one line at a time finds every such
program, because the line of `main()` alone is such a call already: what stands before it on its
line is what was allowed before it, without the lines above (`Opening.last_line`), and likewise
behind it (`ending_first_line`).

Whether a statement has got its end makes no difference. Ending it changes what stands behind its
last character that is no blank, and there a `;` and blanks are allowed alike
(`entryCall_append_iff`).

* `isEntryLine_iff` — the test of a line against the form of a call;
* `callOnLines_iff` — a call over several lines holds one on a single line;
* `exists_entryCall_terminate` — ending a statement neither makes nor breaks a call;
* `hasEntryPoint_line_local` — hence the test is a matter of single lines, ended or not.
-/

namespace Sandscript

open Text (lines unlines trimStart trimEnd trail AllBlank isBlank)
open Declare (Gap)
open Terminator (terminate needsEnd)

-- ---------------------------------------------------------------------------
-- Whole lines
-- ---------------------------------------------------------------------------

namespace Text

/-- What stands behind the text starts a line. -/
def EndsLines (before : Text) : Prop := before = [] ∨ before.getLast? = some '\n'

/-- What stands before the text ends a line. -/
def StartsBelow (after : Text) : Prop := after = [] ∨ after.head? = some '\n'

theorem EndsLines.append {a b : Text} (ha : EndsLines a) (hb : EndsLines b) :
    EndsLines (a ++ b) := by
  rcases hb with rfl | hlast
  · simpa using ha
  · exact Or.inr (by rw [List.getLast?_append, hlast, Option.some_or])

theorem StartsBelow.append {a b : Text} (ha : StartsBelow a) (hb : StartsBelow b) :
    StartsBelow (a ++ b) := by
  rcases ha with rfl | hhead
  · exact hb
  · exact Or.inr (by rw [List.head?_append, hhead, Option.some_or])

/-- The lines of a text below complete lines. -/
theorem EndsLines.lines_append {before : Text} (h : EndsLines before) :
    ∃ above, ∀ t, lines (before ++ t) = above ++ lines t := by
  rcases h with rfl | hlast
  · exact ⟨[], fun t => rfl⟩
  · obtain ⟨u, rfl⟩ := List.getLast?_eq_some_iff.mp hlast
    refine ⟨lines u, fun t => ?_⟩
    rw [List.append_assoc, List.singleton_append, lines_append_newline]

/-- The lines of a text above others, which hold nothing but what is appended. -/
theorem StartsBelow.lines_append {after : Text} (h : StartsBelow after) :
    ∃ below, (∀ t, lines (t ++ after) = lines t ++ below) ∧ ∀ l ∈ below, ∀ c ∈ l, c ∈ after := by
  rcases h with rfl | hhead
  · exact ⟨[], fun t => by simp, by simp⟩
  · obtain ⟨v, rfl⟩ := List.head?_eq_some_iff.mp hhead
    refine ⟨lines v, fun t => lines_append_newline t v, fun l hl c hc => ?_⟩
    exact List.mem_cons_of_mem _ (mem_of_mem_split hl hc)

/-- A line of a text is a part without newlines that starts and ends where lines do. This turns a
statement about the list of lines into one about the text and what stands around a part of it. -/
theorem mem_lines_iff {l t : Text} :
    l ∈ lines t ↔ '\n' ∉ l ∧ ∃ before after, t = before ++ l ++ after ∧ EndsLines before ∧
      StartsBelow after := by
  constructor
  · intro hl
    refine ⟨newline_notMem_of_mem_lines hl, ?_⟩
    obtain ⟨above, below, hlines⟩ := List.append_of_mem hl
    refine ⟨closed above, opened below, ?_, closed_fresh above, ?_⟩
    · rw [← unlines_eq_closed, ← hlines, unlines_lines]
    · cases below with
      | nil => exact Or.inl rfl
      | cons next below => exact Or.inr (by rw [opened_cons]; rfl)
  · rintro ⟨hnl, before, after, rfl, hbefore, hafter⟩
    obtain ⟨above, habove⟩ := hbefore.lines_append
    obtain ⟨below, hbelow, -⟩ := hafter.lines_append
    rw [List.append_assoc, habove, hbelow, lines_of_notMem hnl]
    simp

theorem exists_first_line (t : Text) :
    ∃ line after, t = line ++ after ∧ '\n' ∉ line ∧ StartsBelow after := by
  by_cases hnl : '\n' ∈ t
  · obtain ⟨line, after, rfl, hline⟩ := List.eq_append_cons_of_mem hnl
    exact ⟨line, '\n' :: after, rfl, hline, Or.inr rfl⟩
  · exact ⟨t, [], by simp, hnl, Or.inl rfl⟩

/-- Every text is something that ends with a line and then its last line. -/
theorem exists_last_line (t : Text) :
    ∃ before line, t = before ++ line ∧ '\n' ∉ line ∧ EndsLines before := by
  obtain ⟨line, after, hrev, hnl, hafter⟩ := exists_first_line t.reverse
  refine ⟨after.reverse, line.reverse, ?_, by simpa using hnl, ?_⟩
  · rw [← List.reverse_append, ← hrev, List.reverse_reverse]
  · rcases hafter with rfl | hhead
    · exact Or.inl rfl
    · exact Or.inr (by rw [List.getLast?_reverse, hhead])

/-- A text without newlines stands in a text exactly if it stands on one of its lines. -/
theorem infix_iff_exists_line {word t : Text} (hnl : '\n' ∉ word) :
    word <:+: t ↔ ∃ l ∈ lines t, word <:+: l := by
  constructor
  · rintro ⟨u, v, rfl⟩
    obtain ⟨before, lead, rfl, hlead, hbefore⟩ := exists_last_line u
    obtain ⟨rest, after, rfl, hrest, hafter⟩ := exists_first_line v
    refine ⟨lead ++ word ++ rest, mem_lines_iff.mpr ⟨?_, before, after, ?_, hbefore, hafter⟩,
      ⟨lead, rest, rfl⟩⟩
    · simp [hlead, hnl, hrest]
    · simp
  · rintro ⟨l, hl, hword⟩
    obtain ⟨-, before, after, rfl, -, -⟩ := mem_lines_iff.mp hl
    exact hword.trans ⟨before, after, rfl⟩

theorem AllBlank.of_subset {a b : Text} (h : AllBlank b) (hsub : a ⊆ b) : AllBlank a :=
  fun c hc => h c (hsub hc)

/-- A character that a word does not hold stands before the word or behind it. -/
theorem before_or_behind {u v a word b : Text} {c : Char} (hc : c ∉ word)
    (h : u ++ c :: v = a ++ word ++ b) :
    (∃ m, a = u ++ c :: m ∧ v = m ++ word ++ b) ∨ ∃ m, b = m ++ c :: v ∧ u = a ++ word ++ m := by
  rcases List.append_eq_append_iff.mp h with ⟨m, hfront, hback⟩ | ⟨m, hfront, hback⟩
  · rcases List.cons_eq_append_iff.mp hback with ⟨rfl, hb⟩ | ⟨m, rfl, hv⟩
    · exact Or.inr ⟨[], hb, by rw [hfront, List.append_nil, List.append_nil]⟩
    · -- so it stands in the first two parts, and not in the word
      rcases List.append_eq_append_iff.mp hfront with ⟨k, -, hword⟩ | ⟨k, ha, hk⟩
      · exact absurd (hword ▸ List.mem_append_right _ (List.mem_cons_self ..)) hc
      · rcases List.cons_eq_append_iff.mp hk with ⟨-, hword⟩ | ⟨k, rfl, hm⟩
        · exact absurd (hword ▸ List.mem_cons_self ..) hc
        · exact Or.inl ⟨k, ha, by rw [hv, hm]⟩
  · exact Or.inr ⟨m, hback, hfront⟩

/-- Two texts that are the same up to loose characters at their ends are the same if neither ends
with a loose one. -/
theorem eq_of_append_loose {loose : Char → Prop} {a b x y : Text} (h : a ++ x = b ++ y)
    (hx : ∀ c ∈ x, loose c) (hy : ∀ c ∈ y, loose c)
    (ha : ∀ c, a.getLast? = some c → ¬ loose c) (hb : ∀ c, b.getLast? = some c → ¬ loose c) :
    a = b := by
  -- a longer one would end with a character of what follows the other
  have hnothing : ∀ u m : Text, (∀ c ∈ m, loose c) →
      (∀ c, (u ++ m).getLast? = some c → ¬ loose c) → m = [] := by
    intro u m hm hlast
    by_contra hne
    obtain ⟨c, hc⟩ := Option.isSome_iff_exists.mp (List.getLast?_isSome.mpr hne)
    refine hlast c ?_ (hm c (List.mem_of_getLast? hc))
    rw [List.getLast?_append, hc, Option.some_or]
  rcases List.append_eq_append_iff.mp h with ⟨m, rfl, rfl⟩ | ⟨m, rfl, rfl⟩
  · rw [hnothing a m (fun c hc => hx c (List.mem_append_left _ hc)) hb, List.append_nil]
  · rw [hnothing b m (fun c hc => hy c (List.mem_append_left _ hc)) ha, List.append_nil]

/-- A text that does not end in what is appended stands in it only if it stood before. -/
theorem infix_append_iff {word t loose : Text} {c : Char} (hlast : word.getLast? = some c)
    (hc : c ∉ loose) : word <:+: t ++ loose ↔ word <:+: t := by
  constructor
  · rintro ⟨u, v, h⟩
    rcases List.append_eq_append_iff.mp h with ⟨m, hm, -⟩ | ⟨m, hm, hv⟩
    · exact ⟨u, m, hm.symm⟩
    · cases m with
      | nil => exact ⟨u, [], by simpa using hm⟩
      | cons d m =>
        -- then its last character stands in what is appended
        have hend := congrArg List.getLast? hm
        rw [List.getLast?_append, hlast, Option.some_or, List.getLast?_append_cons] at hend
        exact absurd (hv ▸ List.mem_append_left _ (List.mem_of_getLast? hend.symm)) hc
  · exact fun h => h.trans (List.prefix_append ..).isInfix

end Text

open Text (EndsLines StartsBelow)

namespace Program

-- ---------------------------------------------------------------------------
-- Calls
-- ---------------------------------------------------------------------------

/-- The call itself. -/
def mainCall : Text := "main()".toList

/-- What may stand before the call: blanks, or `await` between blanks. -/
def Opening (t : Text) : Prop :=
  AllBlank t ∨ ∃ before gap, t = before ++ "await".toList ++ gap ∧ AllBlank before ∧ Gap gap

/-- A call of `main`, possibly awaited and ended, with nothing but blanks around it. -/
def EntryCall (t : Text) : Prop :=
  ∃ front back, t = front ++ mainCall ++ back ∧ Opening front ∧ Declare.Ending back

/-- A call of `main` that takes up whole lines of a text, one or more of them. -/
def CallOnLines (t : Text) : Prop :=
  ∃ before call after, t = before ++ call ++ after ∧ EndsLines before ∧ StartsBelow after ∧
    EntryCall call

/-- The call is recognised exactly if its text is followed by nothing but an ending, that is, by
blanks and at most one semicolon. -/
theorem isMainCall_iff {t : Text} :
    isMainCall t = true ↔ ∃ back, t = mainCall ++ back ∧ Declare.Ending back := by
  unfold isMainCall
  constructor
  · intro h
    split at h
    · next back hback =>
      exact ⟨back, (List.isPrefixOf?_eq_some_iff_append_eq.mp hback).symm,
        Declare.isStatementEnd_iff.mp h⟩
    · exact absurd h Bool.false_ne_true
  · rintro ⟨back, rfl, hback⟩
    have hcall : "main()".toList.isPrefixOf? (mainCall ++ back) = some back :=
      List.isPrefixOf?_eq_some_iff_append_eq.mpr rfl
    rw [hcall]
    exact Declare.isStatementEnd_iff.mpr hback

theorem trimStart_append_mainCall {blanks : Text} (h : AllBlank blanks) (back : Text) :
    trimStart (blanks ++ mainCall ++ back) = mainCall ++ back := by
  rw [List.append_assoc, Text.trimStart_append_of_allBlank h]
  exact Text.trimStart_cons_of_not_blank (by decide) _

/-- The test of a line is whether it has the form of a call. The test goes over the words that may
stand before the call one by one; the form says only what stands before it and behind it. -/
theorem isEntryLine_iff {l : Text} : isEntryLine l = true ↔ EntryCall l := by
  have hl := Text.indent_append_trimStart l
  have hindent := Text.allBlank_indent l
  unfold isEntryLine
  dsimp only
  rw [Bool.or_eq_true]
  constructor
  · rintro (hplain | hawait)
    · obtain ⟨back, hback, hend⟩ := isMainCall_iff.mp hplain
      exact ⟨Text.indent l, back, by rw [List.append_assoc, ← hback, hl], Or.inl hindent, hend⟩
    · split at hawait
      · -- the blank behind the word and those that are skipped make up the gap
        next c rest hrest =>
        have hword := List.isPrefixOf?_eq_some_iff_append_eq.mp hrest
        rw [Bool.and_eq_true] at hawait
        obtain ⟨back, hback, hend⟩ := isMainCall_iff.mp hawait.2
        have hgap : Gap (c :: Text.indent rest) := by
          refine ⟨by simp, fun d hd => ?_⟩
          rcases List.mem_cons.mp hd with rfl | hd
          · exact hawait.1
          · exact Text.allBlank_indent rest d hd
        refine ⟨Text.indent l ++ "await".toList ++ (c :: Text.indent rest), back, ?_,
          Or.inr ⟨_, _, rfl, hindent, hgap⟩, hend⟩
        calc l = Text.indent l ++ ("await".toList ++ c :: rest) := by rw [hword, hl]
          _ = Text.indent l ++ ("await".toList ++ c :: (Text.indent rest ++ trimStart rest)) := by
            rw [Text.indent_append_trimStart]
          _ = _ := by rw [hback]; simp
      · exact absurd hawait Bool.false_ne_true
  · rintro ⟨front, back, rfl, hblank | ⟨before, gap, rfl, hbefore, hgap⟩, hend⟩
    · refine Or.inl (isMainCall_iff.mpr ⟨back, ?_, hend⟩)
      exact trimStart_append_mainCall hblank back
    · refine Or.inr ?_
      obtain ⟨c, more, rfl, hc⟩ := hgap.exists_first
      have hmore : AllBlank more := fun d hd => hgap.allBlank d (List.mem_cons_of_mem _ hd)
      have htrim : trimStart (before ++ "await".toList ++ c :: more ++ mainCall ++ back) =
          "await".toList ++ c :: (more ++ mainCall ++ back) := by
        rw [show before ++ "await".toList ++ c :: more ++ mainCall ++ back =
          before ++ ("await".toList ++ c :: (more ++ mainCall ++ back)) by simp,
          Text.trimStart_append_of_allBlank hbefore]
        exact Text.trimStart_cons_of_not_blank (by decide) _
      have hword : "await".toList.isPrefixOf?
          (trimStart (before ++ "await".toList ++ c :: more ++ mainCall ++ back)) =
          some (c :: (more ++ mainCall ++ back)) :=
        List.isPrefixOf?_eq_some_iff_append_eq.mpr htrim.symm
      rw [hword]
      dsimp only
      rw [hc, trimStart_append_mainCall hmore, Bool.true_and]
      exact isMainCall_iff.mpr ⟨back, rfl, hend⟩

/-- A program has an entry point exactly if it holds the guarded call or one of its lines is a call.
The lines are those of the text, so a line is looked at on its own. -/
theorem hasEntryPoint_iff {t : Text} :
    hasEntryPoint t = true ↔ guardCall <:+: t ∨ ∃ l ∈ lines t, EntryCall l := by
  unfold hasEntryPoint
  rw [Bool.or_eq_true, Text.occursIn_iff, List.any_eq_true]
  simp only [isEntryLine_iff]

-- ---------------------------------------------------------------------------
-- A call over several lines
-- ---------------------------------------------------------------------------

/-- The last line of what may stand before the call may stand there by itself. -/
theorem Opening.last_line {before line : Text} (h : Opening (before ++ line))
    (hbefore : EndsLines before) : Opening line := by
  rcases hbefore with rfl | hlast
  · exact h
  obtain ⟨u, rfl⟩ := List.getLast?_eq_some_iff.mp hlast
  rcases h with hblank | ⟨blanks, gap, heq, hblanks, hgap⟩
  · exact Or.inl (hblank.of_subset (List.subset_append_right ..))
  · rw [List.append_assoc, List.singleton_append] at heq
    rcases Text.before_or_behind (by decide) heq with ⟨m, rfl, rfl⟩ | ⟨m, rfl, -⟩
    · exact Or.inr ⟨m, gap, rfl, hblanks.of_subset (by simp), hgap⟩
    · exact Or.inl (hgap.allBlank.of_subset (by simp))

/-- The first line of what may stand behind the call may stand there by itself. -/
theorem ending_first_line {line after : Text} (h : Declare.Ending (line ++ after))
    (hafter : StartsBelow after) : Declare.Ending line := by
  rcases hafter with rfl | hhead
  · simpa using h
  obtain ⟨v, rfl⟩ := List.head?_eq_some_iff.mp hhead
  rcases h with hblank | ⟨a, b, heq, ha, hb⟩
  · exact Or.inl (hblank.of_subset (List.subset_append_left ..))
  · rw [List.append_cons a ';' b] at heq
    have hmark : '\n' ∉ [';'] := by decide
    rcases Text.before_or_behind hmark heq with ⟨m, rfl, -⟩ | ⟨m, rfl, rfl⟩
    · exact Or.inl (ha.of_subset (by simp))
    · exact Or.inr ⟨a, m, by simp, ha, hb.of_subset (by simp)⟩

/-- A call over several lines holds one on a single line, which is the line of `main()`. -/
theorem callOnLines_iff {t : Text} : CallOnLines t ↔ ∃ l ∈ lines t, EntryCall l := by
  constructor
  · rintro ⟨before, _, after, rfl, hbefore, hafter, front, back, rfl, hfront, hback⟩
    obtain ⟨above, lead, rfl, hlead, habove⟩ := Text.exists_last_line front
    obtain ⟨rest, below, rfl, hrest, hbelow⟩ := Text.exists_first_line back
    refine ⟨lead ++ mainCall ++ rest, Text.mem_lines_iff.mpr ⟨?_, before ++ above, below ++ after,
      by simp, hbefore.append habove, hbelow.append hafter⟩, lead, rest, rfl,
      hfront.last_line habove, ending_first_line hback hbelow⟩
    have hcall : '\n' ∉ mainCall := by decide
    simp [hlead, hcall, hrest]
  · rintro ⟨l, hl, hcall⟩
    obtain ⟨-, before, after, rfl, hbefore, hafter⟩ := Text.mem_lines_iff.mp hl
    exact ⟨before, l, after, rfl, hbefore, hafter, hcall⟩

-- ---------------------------------------------------------------------------
-- Ended statements
-- ---------------------------------------------------------------------------

/-- The characters that may follow a call. -/
def Loose (c : Char) : Prop := isBlank c = true ∨ c = ';'

/-- An ending is made of blanks and semicolons. -/
theorem loose_of_mem_ending {back : Text} (h : Declare.Ending back) : ∀ c ∈ back, Loose c := by
  intro c hc
  rcases h with hblank | ⟨a, b, rfl, ha, hb⟩
  · exact Or.inl (hblank c hc)
  · rcases List.mem_append.mp hc with hc | hc
    · exact Or.inl (ha c hc)
    · rcases List.mem_cons.mp hc with rfl | hc
      · exact Or.inr rfl
      · exact Or.inl (hb c hc)

/-- Of a line up to its last character that is no blank and no mark, only this part decides whether
it is a call. So the ending of a line may be replaced by any other. -/
theorem entryCall_append_iff {x back : Text} (hlast : ∀ c, x.getLast? = some c → ¬ Loose c)
    (hback : Declare.Ending back) :
    EntryCall (x ++ back) ↔ ∃ front, x = front ++ mainCall ∧ Opening front := by
  constructor
  · rintro ⟨front, back', heq, hfront, hback'⟩
    refine ⟨front, ?_, hfront⟩
    refine Text.eq_of_append_loose heq (loose_of_mem_ending hback) (loose_of_mem_ending hback')
      hlast fun c hc => ?_
    have hend : (front ++ mainCall).getLast? = some ')' := by
      rw [List.getLast?_append]
      rfl
    obtain rfl : ')' = c := Option.some.inj (hend.symm.trans hc)
    unfold Loose
    decide
  · rintro ⟨front, rfl, hfront⟩
    exact ⟨front, back, rfl, hfront, hback⟩

theorem not_entryCall_of_allBlank {l : Text} (h : AllBlank l) : ¬ EntryCall l := by
  rintro ⟨front, back, rfl, -, -⟩
  have hcall : 'm' ∈ front ++ mainCall ++ back := by simp [mainCall]
  exact absurd (h 'm' hcall) (by decide)

/-- Blanks aside, a statement that needs an end does not end with a semicolon already. -/
theorem last_of_needsEnd {s : Text} (h : needsEnd s = true) :
    ∀ c, (trimEnd s).getLast? = some c → ¬ Loose c := by
  obtain ⟨hopen, -, hterminable, -⟩ := needsEnd_iff.mp h
  have hne : Text.trim s ≠ [] := by
    intro hnil
    rw [hnil] at hterminable
    exact absurd hterminable (by decide)
  intro c hc
  obtain ⟨d, hd⟩ := Option.isSome_iff_exists.mp (List.getLast?_isSome.mpr hne)
  rw [Text.trimEnd_eq hne, List.getLast?_append, hd, Option.some_or] at hc
  obtain rfl : d = c := Option.some.inj hc
  rintro (hblank | rfl)
  · rw [(Text.trimmed_trim s).last d hd] at hblank
    exact Bool.false_ne_true hblank
  · exact hopen ⟨';', by decide, hd⟩

/-- A statement that gets the mark, by lines: those above, the last one that is not blank, and blank
ones. The mark takes the place of what is blank. -/
theorem exists_ended_line {s : Text} (h : needsEnd s = true) :
    ∃ above x blanks below, (∀ c, x.getLast? = some c → ¬ Loose c) ∧ AllBlank blanks ∧
      (∀ l ∈ below, AllBlank l) ∧ lines s = above ++ (x ++ blanks) :: below ∧
      lines (terminate s) = above ++ [x ++ [Terminator.mark]] := by
  obtain ⟨before, x, hx, hnl, hbefore⟩ := Text.exists_last_line (trimEnd s)
  obtain ⟨blanks, after, htrail, hblanks, hafter⟩ := Text.exists_first_line (trail s)
  have hallBlank : AllBlank (blanks ++ after) := htrail ▸ Text.allBlank_trail s
  obtain ⟨above, habove⟩ := hbefore.lines_append
  obtain ⟨below, hbelow, hchars⟩ := hafter.lines_append
  refine ⟨above, x, blanks, below, fun c hc => last_of_needsEnd h c ?_, ?_, fun l hl c hc => ?_,
    ?_, ?_⟩
  · rw [hx, List.getLast?_append, hc, Option.some_or]
  · exact hallBlank.of_subset (List.subset_append_left ..)
  · exact hallBlank c (List.mem_append_right _ (hchars l hl c hc))
  · have hline : '\n' ∉ x ++ blanks := by simp [hnl, hblanks]
    conv_lhs => rw [← Text.trimEnd_append_trail s, hx, htrail, List.append_assoc,
      ← List.append_assoc x, habove, hbelow, Text.lines_of_notMem hline]
    rfl
  · have hline : '\n' ∉ x ++ [Terminator.mark] := by simp [hnl, Terminator.mark]
    rw [terminate, if_pos h, hx, List.append_assoc, habove, Text.lines_of_notMem hline]

/-- Ending a statement makes no line a call and takes none away. Only the last line that is not
blank gets the mark, and a mark is part of the ending that a call may have. -/
theorem exists_entryCall_terminate {s : Text} :
    (∃ l ∈ lines (terminate s), EntryCall l) ↔ ∃ l ∈ lines s, EntryCall l := by
  cases hneeds : needsEnd s with
  | false => rw [terminate_eq_self_iff.mpr hneeds]
  | true =>
    obtain ⟨above, x, blanks, below, hlast, hblanks, hbelow, hlines, hended⟩ :=
      exists_ended_line hneeds
    have hsame : EntryCall (x ++ [Terminator.mark]) ↔ EntryCall (x ++ blanks) := by
      have hmark : Declare.Ending [Terminator.mark] := Or.inr ⟨[], [], rfl, by decide, by decide⟩
      rw [entryCall_append_iff hlast hmark, entryCall_append_iff hlast (Or.inl hblanks)]
    have hnone : ¬ ∃ l ∈ below, EntryCall l := by
      rintro ⟨l, hl, hcall⟩
      exact not_entryCall_of_allBlank (hbelow l hl) hcall
    rw [hlines, hended]
    simp only [List.mem_append, List.mem_cons, List.not_mem_nil, or_false, or_and_right, exists_or,
      exists_eq_left, hsame, hnone]

/-- Nor does it change whether the guarded call is there. -/
theorem guardCall_infix_terminate {s : Text} : guardCall <:+: terminate s ↔ guardCall <:+: s := by
  have hlast : guardCall.getLast? = some '\x7d' := by decide
  have htrail : '\x7d' ∉ trail s := (Text.allBlank_trail s).notMem (by decide)
  rcases terminate_eq s with heq | heq
  · rw [heq]
  · have hs : guardCall <:+: s ↔ guardCall <:+: trimEnd s := by
      conv_lhs => rw [← Text.trimEnd_append_trail s]
      exact Text.infix_append_iff hlast htrail
    rw [heq, hs, Text.infix_append_iff hlast (by decide)]

/-- Ending a statement does not change whether there is an entry point. -/
theorem hasEntryPoint_terminate (s : Text) : hasEntryPoint (terminate s) = hasEntryPoint s := by
  rw [Bool.eq_iff_iff, hasEntryPoint_iff, hasEntryPoint_iff, guardCall_infix_terminate,
    exists_entryCall_terminate]

/-- The guarded call has no newline, so an entry point is always one of a single line. -/
theorem hasEntryPoint_iff_exists_line {t : Text} :
    hasEntryPoint t = true ↔ ∃ l ∈ lines t, guardCall <:+: l ∨ EntryCall l := by
  have hguard : '\n' ∉ guardCall := by decide
  rw [hasEntryPoint_iff, Text.infix_iff_exists_line hguard]
  simp only [and_or_left, exists_or]

/-- Joined pieces start a program if one of them does. -/
theorem hasEntryPoint_unlines {pieces : List Text} :
    hasEntryPoint (unlines pieces) = true ↔ ∃ piece ∈ pieces, hasEntryPoint piece = true := by
  by_cases hnil : pieces = []
  · rw [hnil]
    simp only [List.not_mem_nil, false_and, exists_false, iff_false]
    decide
  · simp only [hasEntryPoint_iff_exists_line, Text.lines_unlines hnil, List.mem_flatMap]
    constructor
    · rintro ⟨l, ⟨piece, hpiece, hl⟩, h⟩
      exact ⟨piece, hpiece, l, hl, h⟩
    · rintro ⟨piece, hpiece, l, hl, h⟩
      exact ⟨l, ⟨piece, hpiece, hl⟩, h⟩

/-- **Whether a program starts itself is a matter of single lines, ended or not.** It does if the
guarded call stands in it or if `main` is called on lines of their own, and then it is called on a
single one. Of statements that are joined it makes no difference whether they have got their
ends. -/
theorem hasEntryPoint_line_local :
    (∀ t, hasEntryPoint t = true ↔ guardCall <:+: t ∨ CallOnLines t) ∧
    (∀ t, hasEntryPoint t = true ↔ guardCall <:+: t ∨ ∃ l ∈ lines t, EntryCall l) ∧
    ∀ pieces : List Text,
      hasEntryPoint (unlines (pieces.map terminate)) = hasEntryPoint (unlines pieces) := by
  refine ⟨fun t => ?_, fun t => hasEntryPoint_iff, fun pieces => ?_⟩
  · rw [hasEntryPoint_iff, callOnLines_iff]
  · rw [Bool.eq_iff_iff, hasEntryPoint_unlines, hasEntryPoint_unlines]
    simp only [List.mem_map, exists_exists_and_eq_and, hasEntryPoint_terminate]

end Program

end Sandscript
