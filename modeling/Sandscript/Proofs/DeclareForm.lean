import Mathlib.Data.List.Infix
import Sandscript.Declare
import Sandscript.Proofs.Blanks
import Sandscript.Proofs.Cutting

/-!
# The form of a declare statement

`Outline t d` says that the text `t` is a declare statement and how it is put together: keyword,
bindings, `from`, and a module between quotes, with blanks between them and the end of the
statement after them. A text can have several outlines, since bindings may themselves hold `from`.

The reader agrees with the form in both directions:

* `outline_of_read?` — what the reader finds is an outline;
* `isSome_read?_iff` — it finds one whenever there is one.
-/

namespace Sandscript

namespace Declare

open Text (isBlank trimStart AllBlank)

-- ---------------------------------------------------------------------------
-- The form
-- ---------------------------------------------------------------------------

/-- At least one blank and nothing else. -/
structure Gap (t : Text) : Prop where
  nonempty : t ≠ []
  allBlank : AllBlank t

theorem Gap.exists_first {gap : Text} (h : Gap gap) :
    ∃ c rest, gap = c :: rest ∧ isBlank c = true := by
  obtain ⟨c, rest, rfl⟩ := List.exists_cons_of_ne_nil h.nonempty
  exact ⟨c, rest, rfl, h.allBlank c (List.mem_cons_self ..)⟩

theorem Gap.exists_last {gap : Text} (h : Gap gap) :
    ∃ before c, gap = before ++ [c] ∧ isBlank c = true := by
  obtain ⟨before, c, heq⟩ := (List.eq_nil_or_concat gap).resolve_left h.nonempty
  rw [List.concat_eq_append] at heq
  exact ⟨before, c, heq, h.allBlank c (by simp [heq])⟩

/-- A gap ends the word before it, and the one behind it. -/
theorem Gap.endsWord_head?_append {gap : Text} (h : Gap gap) (behind : Text) :
    Text.endsWord (gap ++ behind).head? = true := by
  obtain ⟨c, rest, rfl, hc⟩ := h.exists_first
  simp [Text.endsWord, Text.isWord_of_isBlank hc]

theorem Gap.endsWord_getLast?_append {gap : Text} (h : Gap gap) (before : Text) :
    Text.endsWord (before ++ gap).getLast? = true := by
  obtain ⟨init, c, rfl, hc⟩ := h.exists_last
  rw [← List.append_assoc, List.getLast?_concat]
  simp [Text.endsWord, Text.isWord_of_isBlank hc]

/-- The end of a statement: blanks, at most one `;`, blanks. -/
def Ending (t : Text) : Prop :=
  AllBlank t ∨ ∃ a b, t = a ++ ';' :: b ∧ AllBlank a ∧ AllBlank b

/-- How a text is written as a declare statement. -/
structure Outline (t : Text) (d : Declare) where
  /-- The blanks after the keyword. -/
  space : Text
  /-- The blanks before `from`. -/
  gap : Text
  /-- The blanks after `from`. -/
  after : Text
  quote : Char
  ending : Text
  text_eq : t = d.lead ++ d.bindings ++ (gap ++ "from".toList ++ after ++ [quote]) ++ d.module ++
    quote :: ending
  lead_eq : d.lead = keyword ++ space
  space_gap : Gap space
  gap_gap : Gap gap
  after_gap : Gap after
  bindings_ne_nil : d.bindings ≠ []
  newline_notMem : '\n' ∉ d.bindings
  quote_eq : quote = '"' ∨ quote = '\''
  module_ne_nil : d.module ≠ []
  quote_notMem : quote ∉ d.module
  ending_ending : Ending ending

/-- The text is a declare statement. -/
def HasForm (t : Text) : Prop := ∃ d, Nonempty (Outline t d)

-- ---------------------------------------------------------------------------
-- The parts of the reader
-- ---------------------------------------------------------------------------

/-- The end of a statement, said without looking at its characters one by one: blanks, or blanks
around one semicolon. -/
theorem isStatementEnd_iff {t : Text} : Text.isStatementEnd t = true ↔ Ending t := by
  constructor
  · intro h
    rw [Text.isStatementEnd] at h
    split at h
    · next hnil => exact Or.inl (Text.allBlank_of_trimStart hnil)
    · next c rest hrest =>
      rw [Bool.and_eq_true, beq_iff_eq, List.isEmpty_iff] at h
      obtain ⟨rfl, hend⟩ := h
      refine Or.inr ⟨Text.indent t, rest, ?_, Text.allBlank_indent t,
        Text.allBlank_of_trimStart hend⟩
      rw [← hrest, Text.indent_append_trimStart]
  · rintro (hblank | ⟨a, b, rfl, ha, hb⟩)
    · rw [Text.isStatementEnd, Text.trimStart_of_allBlank hblank]
    · rw [Text.isStatementEnd, Text.trimStart_append_of_allBlank ha,
        Text.trimStart_cons_of_not_blank (by decide)]
      simp [Text.trimStart_of_allBlank hb]

/-- Blanks that were skipped were a gap: at least one, and all of them. The text is the gap and what
is left, so nothing is lost by the skipping. -/
theorem skipBlanks?_eq_some {t rest : Text} (h : skipBlanks? t = some rest) :
    ∃ gap, Gap gap ∧ t = gap ++ rest := by
  cases t with
  | nil => simp [skipBlanks?] at h
  | cons c t =>
    rw [skipBlanks?] at h
    split at h
    · next hc =>
      obtain rfl := Option.some.inj h
      refine ⟨c :: Text.indent t, ⟨by simp, ?_⟩, ?_⟩
      · intro c' hc'
        rcases List.mem_cons.mp hc' with rfl | hc'
        · exact hc
        · exact Text.allBlank_indent t c' hc'
      · rw [List.cons_append, Text.indent_append_trimStart]
    · simp at h

/-- A gap before a character that is not blank is skipped as a whole. -/
theorem skipBlanks?_append {gap : Text} (h : Gap gap) {c : Char} (hc : isBlank c = false)
    (t : Text) : skipBlanks? (gap ++ c :: t) = some (c :: t) := by
  obtain ⟨first, rest, rfl⟩ := List.exists_cons_of_ne_nil h.nonempty
  have hfirst := h.allBlank first (List.mem_cons_self ..)
  have hrest : AllBlank rest := fun c' hc' => h.allBlank c' (List.mem_cons_of_mem _ hc')
  rw [List.cons_append, skipBlanks?, if_pos hfirst, Text.trimStart_append_of_allBlank hrest,
    Text.trimStart_cons_of_not_blank hc]

/-- What is read as a quoted module is one: it stands between two quotes of the same kind, is not
empty and holds no such quote, and behind it nothing follows but the end of the statement. -/
theorem readQuoted?_eq_some {t module : Text} (h : readQuoted? t = some module) :
    ∃ quote ending, t = quote :: module ++ quote :: ending ∧ (quote = '"' ∨ quote = '\'') ∧
      module ≠ [] ∧ quote ∉ module ∧ Ending ending := by
  cases t with
  | nil => simp [readQuoted?] at h
  | cons q rest =>
    rw [readQuoted?] at h
    split at h
    · next hq =>
      split at h
      · simp at h
      · next c ending hdrop =>
        dsimp only at h
        split at h
        · simp at h
        · next hgood =>
          obtain rfl := Option.some.inj h
          rw [Bool.not_eq_true, Bool.or_eq_false_iff, Bool.not_eq_false',
            List.isEmpty_eq_false_iff] at hgood
          -- the module ends at the first quote of the kind that it started with
          have hc : c = q := by
            have hhead := List.head?_dropWhile_not (· != q) rest
            rw [hdrop] at hhead
            simpa using hhead
          refine ⟨q, ending, ?_, by simpa using hq, hgood.1, ?_, isStatementEnd_iff.mp hgood.2⟩
          · rw [List.cons_append, ← hc, ← hdrop, hc, List.takeWhile_append_dropWhile]
          · intro hin
            simpa using List.mem_takeWhile_imp hin
    · simp at h

/-- A quoted module is read back, with either quote, if it does not hold the quote and is not empty.
-/
theorem readQuoted?_append {quote : Char} (hq : quote = '"' ∨ quote = '\'') {module : Text}
    (hne : module ≠ []) (hmem : quote ∉ module) {ending : Text} (hend : Ending ending) :
    readQuoted? (quote :: module ++ quote :: ending) = some module := by
  rw [List.cons_append, readQuoted?, if_pos (by simpa using hq), Text.dropWhile_append_sep hmem]
  simp only [Text.takeWhile_append_sep hmem]
  rw [if_neg (by simp [hne, isStatementEnd_iff.mpr hend])]

/-- What follows the bindings, as it is read. -/
theorem readModule?_eq_some {t module : Text} (h : readModule? t = some module) :
    ∃ gap after quote ending,
      t = (gap ++ "from".toList ++ after ++ [quote]) ++ module ++ quote :: ending ∧ Gap gap ∧
      Gap after ∧ (quote = '"' ∨ quote = '\'') ∧ module ≠ [] ∧ quote ∉ module ∧
      Ending ending := by
  simp only [readModule?, Option.bind_eq_bind, Option.bind_eq_some_iff] at h
  obtain ⟨t₁, hskip, t₂, hfrom, t₃, hskip', hquoted⟩ := h
  obtain ⟨gap, hgap, rfl⟩ := skipBlanks?_eq_some hskip
  obtain ⟨after, hafter, rfl⟩ := skipBlanks?_eq_some hskip'
  obtain ⟨quote, ending, rfl, hq, hne, hmem, hend⟩ := readQuoted?_eq_some hquoted
  obtain rfl := List.isPrefixOf?_eq_some_iff_append_eq.mp hfrom
  exact ⟨gap, after, quote, ending, by simp, hgap, hafter, hq, hne, hmem, hend⟩

/-- What follows the bindings is read: a gap, the word `from`, another gap, and the module in
quotes. Both gaps are skipped as a whole, since neither the word nor a quote starts with a blank. -/
theorem readModule?_append {gap after : Text} (hgap : Gap gap) (hafter : Gap after) {quote : Char}
    (hq : quote = '"' ∨ quote = '\'') {module : Text} (hne : module ≠ []) (hmem : quote ∉ module)
    {ending : Text} (hend : Ending ending) :
    readModule? ((gap ++ "from".toList ++ after ++ [quote]) ++ module ++ quote :: ending) =
      some module := by
  have hquote : isBlank quote = false := by
    rcases hq with rfl | rfl <;> decide
  have hsplit : (gap ++ "from".toList ++ after ++ [quote]) ++ module ++ quote :: ending =
      gap ++ 'f' :: ("rom".toList ++ (after ++ quote :: (module ++ quote :: ending))) := by
    simp
  have hfrom : "from".toList.isPrefixOf?
      ('f' :: ("rom".toList ++ (after ++ quote :: (module ++ quote :: ending)))) =
      some (after ++ quote :: (module ++ quote :: ending)) :=
    List.isPrefixOf?_eq_some_iff_append_eq.mpr rfl
  rw [hsplit, readModule?, skipBlanks?_append hgap (by decide)]
  simp only [Option.bind_eq_bind, Option.bind_some, hfrom, skipBlanks?_append hafter hquote]
  rw [← List.cons_append]
  exact readQuoted?_append hq hne hmem hend

/-- The bindings that are read stand on one line, and the module follows them. By induction on the
text, with the bindings that are taken so far: each step takes one character more. -/
theorem readOutline?_eq_some {taken t bindings module : Text}
    (h : readOutline? taken t = some (bindings, module)) :
    ∃ added rest, t = added ++ rest ∧ bindings = taken ++ added ∧ added ≠ [] ∧ '\n' ∉ added ∧
      readModule? rest = some module := by
  induction t generalizing taken with
  | nil => simp [readOutline?] at h
  | cons c t ih =>
    rw [readOutline?] at h
    split at h
    · simp at h
    · next hc =>
      split at h
      · next found hfound =>
        simp only [Option.some.injEq, Prod.mk.injEq] at h
        obtain ⟨rfl, rfl⟩ := h
        exact ⟨[c], t, rfl, rfl, by simp, by simpa using Ne.symm hc, hfound⟩
      · obtain ⟨added, rest, rfl, rfl, -, hline, hmodule⟩ := ih h
        refine ⟨c :: added, rest, rfl, by simp, by simp, ?_, hmodule⟩
        rw [List.mem_cons, not_or]
        exact ⟨Ne.symm hc, hline⟩

/-- Bindings on one line are found, or shorter ones before them. The reader stops at the first place
where a module follows, so that with these bindings it succeeds at the latest. -/
theorem isSome_readOutline? {added : Text} (hne : added ≠ []) (hline : '\n' ∉ added) {rest : Text}
    (hrest : (readModule? rest).isSome = true) (taken : Text) :
    (readOutline? taken (added ++ rest)).isSome = true := by
  induction added generalizing taken with
  | nil => exact absurd rfl hne
  | cons c added ih =>
    rw [List.mem_cons, not_or] at hline
    rw [List.cons_append, readOutline?, if_neg (Ne.symm hline.1)]
    cases hfound : readModule? (added ++ rest) with
    | some module => rfl
    | none =>
      cases added with
      | nil =>
        rw [List.nil_append] at hfound
        simp [hfound] at hrest
      | cons next added => exact ih (by simp) hline.2 _

-- ---------------------------------------------------------------------------
-- The reader
-- ---------------------------------------------------------------------------

/-- What the reader has done when it answers: it has left some blanks, at least one, to the keyword,
and read an outline from there. The number of blanks is found by trial, and so it is not known here.
-/
theorem read?_eq_some {t : Text} {d : Declare} (h : read? t = some d) :
    ∃ space rest, t = keyword ++ (space ++ rest) ∧ Gap space ∧ d.lead = keyword ++ space ∧
      readOutline? [] rest = some (d.bindings, d.module) := by
  simp only [read?, Option.bind_eq_bind, Option.bind_eq_some_iff] at h
  obtain ⟨rest, hkeyword, hfind⟩ := h
  obtain rfl := List.isPrefixOf?_eq_some_iff_append_eq.mp hkeyword
  obtain ⟨n, hn, hread⟩ := List.exists_of_findSome?_eq_some hfind
  rw [List.mem_reverse, List.mem_range] at hn
  simp only [Option.bind_eq_some_iff, Option.pure_def, Option.some.injEq, Prod.exists] at hread
  obtain ⟨bindings, module, houtline, rfl⟩ := hread
  refine ⟨rest.take (n + 1), rest.drop (n + 1), by rw [List.take_append_drop], ⟨?_, ?_⟩, rfl,
    houtline⟩
  · intro hnil
    rcases List.take_eq_nil_iff.mp hnil with hzero | hrest
    · omega
    · rw [hrest] at hn
      simp at hn
  · intro c hc
    have hinto : rest.take (n + 1) <+: rest.takeWhile isBlank :=
      List.prefix_of_prefix_length_le (List.take_prefix _ _) (List.takeWhile_prefix _)
        (by rw [List.length_take]; omega)
    exact List.mem_takeWhile_imp (hinto.subset hc)

/-- What the reader finds is an outline of the text. -/
theorem outline_of_read? {t : Text} {d : Declare} (h : read? t = some d) :
    Nonempty (Outline t d) := by
  obtain ⟨space, rest, rfl, hspace, hlead, houtline⟩ := read?_eq_some h
  obtain ⟨added, tail, rfl, hbindings, hne, hline, hmodule⟩ := readOutline?_eq_some houtline
  obtain ⟨gap, after, quote, ending, rfl, hgap, hafter, hq, hmne, hmem, hend⟩ :=
    readModule?_eq_some hmodule
  rw [List.nil_append] at hbindings
  subst hbindings
  exact ⟨{ space, gap, after, quote, ending, lead_eq := hlead, space_gap := hspace,
           gap_gap := hgap, after_gap := hafter, bindings_ne_nil := hne, newline_notMem := hline,
           quote_eq := hq, module_ne_nil := hmne, quote_notMem := hmem, ending_ending := hend,
           text_eq := by rw [hlead]; simp }⟩

/-- A text with an outline is read. The reader tries all numbers of blanks behind the keyword, and
with the one that the outline says it comes to the bindings and to the module. -/
theorem Outline.isSome_read? {t : Text} {d : Declare} (o : Outline t d) :
    (read? t).isSome = true := by
  obtain ⟨c, blanks, hspace⟩ := List.exists_cons_of_ne_nil o.space_gap.nonempty
  set tail := (o.gap ++ "from".toList ++ o.after ++ [o.quote]) ++ d.module ++ o.quote :: o.ending
    with htail
  set rest := o.space ++ (d.bindings ++ tail) with hrest
  have htext : t = keyword ++ rest := by
    rw [o.text_eq, o.lead_eq, hrest, htail]
    simp
  have hkeyword : keyword.isPrefixOf? t = some rest :=
    List.isPrefixOf?_eq_some_iff_append_eq.mpr htext.symm
  have hmodule : (readModule? tail).isSome = true := by
    rw [htail, readModule?_append o.gap_gap o.after_gap o.quote_eq o.module_ne_nil o.quote_notMem
      o.ending_ending]
    rfl
  -- with the gap of the outline, the bindings and the module follow
  have hhere : (readOutline? [] (rest.drop (blanks.length + 1))).isSome = true := by
    rw [hrest, hspace, show blanks.length + 1 = (c :: blanks).length from rfl, List.drop_left]
    exact isSome_readOutline? o.bindings_ne_nil o.newline_notMem hmodule []
  -- and this gap is among those that are tried
  have hlong : blanks.length < (rest.takeWhile isBlank).length := by
    rw [hrest, List.takeWhile_append_of_pos o.space_gap.allBlank, hspace, List.length_append,
      List.length_cons]
    omega
  simp only [read?, Option.bind_eq_bind, hkeyword, Option.bind_some, List.findSome?_isSome_iff]
  refine ⟨blanks.length, by simpa using hlong, ?_⟩
  obtain ⟨found, hfound⟩ := Option.isSome_iff_exists.mp hhere
  simp [hfound]

/-- **The reader accepts the declare statements and no other texts.** -/
theorem isSome_read?_iff {t : Text} : (read? t).isSome = true ↔ HasForm t := by
  constructor
  · intro h
    obtain ⟨d, hd⟩ := Option.isSome_iff_exists.mp h
    exact ⟨d, outline_of_read? hd⟩
  · rintro ⟨d, ⟨o⟩⟩
    exact o.isSome_read?

end Declare

end Sandscript
