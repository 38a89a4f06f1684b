import Sandscript.Proofs.DeclareForm
import Sandscript.Proofs.LoweringRun
import Sandscript.Proofs.Scanning

/-!
# The gate for the host's import keyword

A script cannot use the host's import keyword: `lowerAll` refuses the first statement in which it
counts, and says on which line it stands. In a declare statement the keyword counts in the bindings
only; everywhere else it counts.

* `forbiddenLine?_eq_some`, `forbiddenLine?_eq_none` — what the check of one statement finds, in
  positions of the statement's text;
* `wordAt_declare` — in a declare statement the keyword stands in the bindings or in the module;
* `import_gate` — a refusal points at the keyword in the source, and what passes holds the keyword
  nowhere but in the modules of declare statements.
-/

namespace Sandscript

open Text (trim indent trail WordAt closed opened lines)

-- ---------------------------------------------------------------------------
-- Where the keyword counts
-- ---------------------------------------------------------------------------

/-- The keyword would count at a position of a statement: anywhere, unless the statement is a
declare statement, and then in its bindings. -/
def Counts (t : Text) (n : Nat) : Prop :=
  ¬ Declare.HasForm (trim t) ∨
    ∃ d, Declare.read? (trim t) = some d ∧ (indent t).length + d.lead.length ≤ n ∧
      n + importWord.length ≤ (indent t).length + d.lead.length + d.bindings.length

/-- The keyword stands at a position of a statement, counts there, and does so nowhere before. -/
structure FirstCounted (t : Text) (n : Nat) : Prop where
  word : WordAt importWord t n
  counts : Counts t n
  first : ∀ k < n, WordAt importWord t k → ¬ Counts t k

/-- The position of the module in a declare statement. -/
def Declare.Outline.moduleStart {t : Text} {d : Declare} (o : Declare.Outline t d) : Nat :=
  (d.lead ++ d.bindings ++ (o.gap ++ "from".toList ++ o.after ++ [o.quote])).length

theorem importWord_ne_nil : importWord ≠ [] := by decide

theorem newline_notMem_importWord : '\n' ∉ importWord := by decide

/-- Where the parts of a declare statement stand in it. -/
theorem Declare.Outline.place {t : Text} {d : Declare} (o : Declare.Outline (trim t) d) :
    t = indent t ++ (d.lead ++ d.bindings ++ (o.gap ++ "from".toList ++ o.after ++ [o.quote]) ++
      d.module ++ o.quote :: o.ending) ++ trail (Text.trimStart t) :=
  calc t = indent t ++ trim t ++ trail (Text.trimStart t) := (Text.indent_trim_trail t).symm
    _ = _ := congrArg (indent t ++ · ++ trail (Text.trimStart t)) o.text_eq

/-- The part of a statement that is looked at stands in it between blanks, or is all of it. So no
word crosses its ends, and looking at the part finds the words of the whole. -/
theorem checkedRegion_place {t skipped checked : Text}
    (h : checkedRegion t = (skipped, checked)) :
    ∃ rest, t = skipped ++ checked ++ rest ∧ Text.endsWord skipped.getLast? = true ∧
      Text.endsWord rest.head? = true := by
  rw [checkedRegion] at h
  split at h
  · next d hread =>
    obtain ⟨rfl, rfl⟩ := Prod.mk.inj h
    obtain ⟨o⟩ := Declare.outline_of_read? hread
    refine ⟨o.gap ++ ("from".toList ++ o.after ++ [o.quote] ++ d.module ++ o.quote :: o.ending ++
      trail (Text.trimStart t)), ?_, ?_, ?_⟩
    · exact o.place.trans (by simp)
    · rw [o.lead_eq, ← List.append_assoc]
      exact o.space_gap.endsWord_getLast?_append _
    · exact o.gap_gap.endsWord_head?_append _
  · obtain ⟨rfl, rfl⟩ := Prod.mk.inj h
    exact ⟨[], by simp, rfl, rfl⟩

/-- The keyword counts just where the check looks at it. The region is given by its beginning and
its length, and the keyword lies inside it or does not count. -/
theorem counts_iff {t skipped checked : Text} (hregion : checkedRegion t = (skipped, checked))
    {n : Nat} (h : WordAt importWord t n) :
    Counts t n ↔ ∃ k, n = skipped.length + k ∧ k + importWord.length ≤ checked.length := by
  rw [checkedRegion] at hregion
  split at hregion
  · next d hread =>
    obtain ⟨rfl, rfl⟩ := Prod.mk.inj hregion
    have hform : Declare.HasForm (trim t) := Declare.isSome_read?_iff.mp (by rw [hread]; rfl)
    simp only [Counts, hform, not_true_eq_false, false_or, hread, Option.some.injEq,
      exists_eq_left', List.length_append]
    constructor
    · rintro ⟨hlow, hhigh⟩
      exact ⟨n - ((indent t).length + d.lead.length), by omega, by omega⟩
    · rintro ⟨k, rfl, hk⟩
      omega
  · next hread =>
    obtain ⟨rfl, rfl⟩ := Prod.mk.inj hregion
    have hform : ¬ Declare.HasForm (trim t) := by
      rw [← Declare.isSome_read?_iff, hread]
      simp
    exact iff_of_true (Or.inl hform) ⟨n, by simp, Text.WordAt.length_le h importWord_ne_nil⟩

-- ---------------------------------------------------------------------------
-- The check of one statement
-- ---------------------------------------------------------------------------

/-- A refusal names the line of the first place where the keyword counts. The line is found by
counting the newlines before it, from the line on which the statement starts. -/
theorem forbiddenLine?_eq_some {s : Statement} {line : Nat} (h : forbiddenLine? s = some line) :
    ∃ n, FirstCounted s.text n ∧ line = s.line + (s.text.take n).count '\n' := by
  obtain ⟨skipped, checked, hregion⟩ : ∃ skipped checked,
      checkedRegion s.text = (skipped, checked) := ⟨_, _, rfl⟩
  obtain ⟨rest, hplace, hleft, hright⟩ := checkedRegion_place hregion
  simp only [forbiddenLine?, hregion, Option.map_eq_some_iff] at h
  obtain ⟨found, hfound, rfl⟩ := h
  obtain ⟨htake, hword, hfirst⟩ := Text.beforeWord?_spec hfound
  have hin : WordAt importWord s.text (skipped.length + found.length) := by
    rw [hplace]
    exact Text.WordAt.append hword importWord_ne_nil hleft hright
  have hfits := Text.WordAt.length_le hword importWord_ne_nil
  refine ⟨skipped.length + found.length,
    ⟨hin, (counts_iff hregion hin).mpr ⟨found.length, rfl, hfits⟩, ?_⟩, ?_⟩
  · -- an earlier place that counts would have been found in the part that is looked at
    intro k hk hkword hcounts
    obtain ⟨j, rfl, hj⟩ := (counts_iff hregion hkword).mp hcounts
    rw [hplace] at hkword
    exact hfirst j (by omega) (hkword.of_append hj)
  · have hbefore : s.text.take (skipped.length + found.length) = skipped ++ found := by
      rw [hplace, List.append_assoc, List.take_length_add_append,
        List.take_append_of_le_length (by omega), ← htake]
    rw [hbefore]

/-- A statement that is not refused holds the keyword nowhere where it counts. -/
theorem forbiddenLine?_eq_none {s : Statement} (h : forbiddenLine? s = none) {n : Nat}
    (hword : WordAt importWord s.text n) : ¬ Counts s.text n := by
  obtain ⟨skipped, checked, hregion⟩ : ∃ skipped checked,
      checkedRegion s.text = (skipped, checked) := ⟨_, _, rfl⟩
  obtain ⟨rest, hplace, -, -⟩ := checkedRegion_place hregion
  simp only [forbiddenLine?, hregion, Option.map_eq_none_iff] at h
  intro hcounts
  obtain ⟨k, rfl, hk⟩ := (counts_iff hregion hword).mp hcounts
  rw [hplace] at hword
  exact Text.beforeWord?_none importWord_ne_nil h k (hword.of_append hk)

-- ---------------------------------------------------------------------------
-- Declare statements
-- ---------------------------------------------------------------------------

/-- A text that avoids three parts of another one, and the characters that open two of them, stands
in one of the two parts between. -/
theorem prefix_drop_between {word a x b y c : Text} {first sep₁ sep₂ : Char} {n : Nat}
    (h : first :: word <+: (a ++ (x ++ sep₁ :: (b ++ (y ++ sep₂ :: c)))).drop n)
    (ha : first ∉ a) (hb : first ∉ sep₁ :: b) (hc : first ∉ sep₂ :: c)
    (hsep₁ : sep₁ ∉ first :: word) (hsep₂ : sep₂ ∉ first :: word) :
    (a.length ≤ n ∧ n + (first :: word).length ≤ a.length + x.length) ∨
      (a.length + x.length + (sep₁ :: b).length ≤ n ∧
        n + (first :: word).length ≤ a.length + x.length + (sep₁ :: b).length + y.length) := by
  obtain ⟨m, rfl, hm⟩ := Text.prefix_drop_behind h ha
  rcases Text.prefix_drop_avoids hm hsep₁ with hin | hbehind
  · exact Or.inl ⟨by omega, by omega⟩
  · obtain ⟨k, rfl⟩ : ∃ k, m = x.length + k := ⟨m - x.length, by omega⟩
    rw [← List.drop_drop, List.drop_left, ← List.cons_append] at hm
    obtain ⟨j, rfl, hj⟩ := Text.prefix_drop_behind hm hb
    rcases Text.prefix_drop_avoids hj hsep₂ with hin | hbehind
    · exact Or.inr ⟨by omega, by omega⟩
    · -- behind the module nothing can be
      obtain ⟨i, rfl⟩ : ∃ i, j = y.length + i := ⟨j - y.length, by omega⟩
      rw [← List.drop_drop, List.drop_left] at hj
      exact absurd (List.mem_of_mem_drop (hj.subset (List.mem_cons_self ..))) hc

/-- In a declare statement the keyword stands in the bindings or in the module. What is written
between them is fixed or blank, and the keyword is neither; nor can it cross from one into the
other. -/
theorem wordAt_declare {t : Text} {d : Declare} (o : Declare.Outline (trim t) d) {n : Nat}
    (h : WordAt importWord t n) :
    ((indent t).length + d.lead.length ≤ n ∧
      n + importWord.length ≤ (indent t).length + d.lead.length + d.bindings.length) ∨
    ((indent t).length + o.moduleStart ≤ n ∧
      n + importWord.length ≤ (indent t).length + o.moduleStart + d.module.length) := by
  have hi : Text.isBlank 'i' = false := by decide
  have hq : o.quote ∉ importWord ∧ o.quote ≠ 'i' := by
    rcases o.quote_eq with hq | hq <;> rw [hq] <;> decide
  obtain ⟨sep, gap, hgap, hblank⟩ := o.gap_gap.exists_first
  have hsep : sep ∉ importWord := by
    intro hin
    have hall : importWord.all (fun c => !Text.isBlank c) = true := by decide
    have hnot := List.all_eq_true.mp hall sep hin
    rw [hblank] at hnot
    exact Bool.noConfusion hnot
  have hplace : t = (indent t ++ d.lead) ++ (d.bindings ++ sep ::
      ((gap ++ "from".toList ++ o.after ++ [o.quote]) ++ (d.module ++ o.quote ::
        (o.ending ++ trail (Text.trimStart t))))) := by
    exact o.place.trans (by rw [hgap]; simp)
  -- the keyword starts with a letter that is not in what stands around bindings and module
  have hending : 'i' ∉ o.ending := by
    rcases o.ending_ending with hblank | ⟨a, b, heq, ha, hb⟩
    · exact hblank.notMem hi
    · rw [heq]
      simp [ha.notMem hi, hb.notMem hi]
  have hlead : 'i' ∉ indent t ++ d.lead := by
    have hkeyword : 'i' ∉ Declare.keyword := by decide
    rw [o.lead_eq, List.mem_append, List.mem_append]
    rintro (hin | hin | hin)
    · exact (Text.allBlank_indent t).notMem hi hin
    · exact hkeyword hin
    · exact o.space_gap.allBlank.notMem hi hin
  have hbetween : 'i' ∉ sep :: (gap ++ "from".toList ++ o.after ++ [o.quote]) := by
    have hfrom : 'i' ∉ "from".toList := by decide
    rw [← List.cons_append, ← List.cons_append, ← List.cons_append, ← hgap]
    simp only [List.mem_append, List.mem_singleton]
    rintro (((hin | hin) | hin) | hin)
    · exact o.gap_gap.allBlank.notMem hi hin
    · exact hfrom hin
    · exact o.after_gap.allBlank.notMem hi hin
    · exact hq.2 hin.symm
  have hbehind : 'i' ∉ o.quote :: (o.ending ++ trail (Text.trimStart t)) := by
    rw [List.mem_cons, List.mem_append]
    rintro (hin | hin | hin)
    · exact hq.2 hin.symm
    · exact hending hin
    · exact (Text.allBlank_trail _).notMem hi hin
  have hword : 'i' :: "mport".toList <+: t.drop n := h.1
  rw [hplace] at hword
  -- so it starts in one of the two, and ends there before the next blank or quote
  have hparts := prefix_drop_between hword hlead hbetween hbehind hsep hq.1
  have hstart : (indent t).length + o.moduleStart = (indent t ++ d.lead).length +
      d.bindings.length + (sep :: (gap ++ "from".toList ++ o.after ++ [o.quote])).length := by
    simp only [Declare.Outline.moduleStart, hgap, List.length_append, List.length_cons]
    omega
  rw [List.length_append] at hparts hstart
  rw [hstart]
  exact hparts

-- ---------------------------------------------------------------------------
-- The gate
-- ---------------------------------------------------------------------------

/-- The position of a statement in its script, given the statements before it. -/
def startAfter (pre : List Statement) : Nat := (closed (pre.map Statement.text)).length

/-- An occurrence in a statement is one in the script. -/
theorem wordAt_script {t : Text} {pre : List Statement} {s : Statement} {post : List Statement}
    (hscan : Statement.scan t = pre ++ s :: post) {n : Nat} (h : WordAt importWord s.text n) :
    WordAt importWord t (startAfter pre + n) := by
  rw [Statement.scan_place hscan]
  exact Text.WordAt.append h importWord_ne_nil (Text.endsWord_getLast?_closed _)
    (Text.endsWord_head?_opened _)

/-- The line number that a refusal gives is the number of the line on which the keyword stands. -/
theorem line_of_refusal {t : Text} {pre : List Statement} {s : Statement} {post : List Statement}
    (hscan : Statement.scan t = pre ++ s :: post) {n : Nat} (h : WordAt importWord s.text n) :
    ∃ above text below column, lines t = above ++ text :: below ∧
      above.length + 1 = s.line + (s.text.take n).count '\n' ∧
      (closed above).length + column = startAfter pre + n ∧ WordAt importWord text column := by
  have hfits := Text.WordAt.length_le h importWord_ne_nil
  obtain ⟨above, text, below, column, hlines, habove, hplace, hword⟩ :=
    (wordAt_script hscan h).exists_line importWord_ne_nil newline_notMem_importWord
  refine ⟨above, text, below, column, hlines, ?_, hplace.symm, hword⟩
  have htake : t.take (startAfter pre + n) = closed (pre.map Statement.text) ++ s.text.take n := by
    rw [startAfter]
    conv_lhs => rw [Statement.scan_place hscan]
    rw [List.append_assoc, List.take_length_add_append, List.take_append_of_le_length (by omega)]
  rw [habove, htake, List.count_append, (Statement.scan_split hscan).2.1]
  omega

/-- What passes holds the keyword in modules of declare statements only. The statement around the
keyword has passed, so the keyword does not count there, and then it stands in a module. -/
theorem module_of_passed {ctx : Context} {t : Text} {rs : List Lowered}
    (h : lowerAll ctx (Statement.scan t) = .ok rs) {n : Nat} (hword : WordAt importWord t n) :
    ∃ (pre : List Statement) (s : Statement) (post : List Statement) (d : Declare)
      (o : Declare.Outline (trim s.text) d),
      Statement.scan t = pre ++ s :: post ∧ Declare.read? (trim s.text) = some d ∧
      startAfter pre + (indent s.text).length + o.moduleStart ≤ n ∧
      n + importWord.length ≤
        startAfter pre + (indent s.text).length + o.moduleStart + d.module.length := by
  rw [← Statement.scan_texts t] at hword
  obtain ⟨before, piece, after, k, hpieces, rfl, -, hpiece⟩ :=
    Text.wordAt_unlines importWord_ne_nil newline_notMem_importWord hword
  obtain ⟨pre, tail, hscan, rfl, htail⟩ := List.map_eq_append_iff.mp hpieces
  obtain ⟨s, post, rfl, rfl, rfl⟩ := List.map_eq_cons_iff.mp htail
  rw [hscan] at h
  obtain ⟨-, r, -, -, -, hlower, -⟩ := lowerAll_split h
  have hcounts := forbiddenLine?_eq_none (lowers_of_lower hlower).1 hpiece
  -- the keyword does not count, so this is a declare statement and it is not in the bindings
  have hform : Declare.HasForm (trim s.text) := by
    by_contra hno
    exact hcounts (Or.inl hno)
  obtain ⟨d, hread⟩ := Option.isSome_iff_exists.mp (Declare.isSome_read?_iff.mpr hform)
  obtain ⟨o⟩ := Declare.outline_of_read? hread
  refine ⟨pre, s, post, d, o, hscan, hread, ?_⟩
  rcases wordAt_declare o hpiece with hbindings | ⟨hlow, hhigh⟩
  · exact absurd (Or.inr ⟨d, hread, hbindings⟩) hcounts
  · rw [← startAfter]
    omega

/-- **The gate for the import keyword.** If a script is refused for the keyword, the refusal gives
the number of a line that holds it as a whole word; this place lies in the first statement that is
not lowered, and is the first one there that counts. If a script is lowered, the keyword stands
nowhere in it but inside the quoted modules of declare statements. -/
theorem import_gate (ctx : Context) (t : Text) :
    (∀ line, lowerAll ctx (Statement.scan t) = .error (.forbiddenImport line) →
      ∃ (pre : List Statement) (s : Statement) (post : List Statement) (n : Nat),
        Statement.scan t = pre ++ s :: post ∧
        (∀ p ∈ pre, ∃ r, lower ctx p = .ok r) ∧ (∀ r, lower ctx s ≠ .ok r) ∧
        FirstCounted s.text n ∧
        ∃ above text below column, lines t = above ++ text :: below ∧ above.length + 1 = line ∧
          (closed above).length + column = startAfter pre + n ∧
          WordAt importWord text column ∧ WordAt importWord t (startAfter pre + n)) ∧
    (∀ rs, lowerAll ctx (Statement.scan t) = .ok rs → ∀ n, WordAt importWord t n →
      ∃ (pre : List Statement) (s : Statement) (post : List Statement) (d : Declare)
        (o : Declare.Outline (trim s.text) d),
        Statement.scan t = pre ++ s :: post ∧ Declare.read? (trim s.text) = some d ∧
        startAfter pre + (indent s.text).length + o.moduleStart ≤ n ∧
        n + importWord.length ≤
          startAfter pre + (indent s.text).length + o.moduleStart + d.module.length) := by
  constructor
  · intro line h
    obtain ⟨pre, s, post, hscan, hpre, hfail⟩ := lowerAll_eq_error h
    obtain ⟨n, hfirst, rfl⟩ := forbiddenLine?_eq_some (lower_eq_forbidden_iff.mp hfail)
    obtain ⟨above, text, below, column, hlines, hline, hplace, hword⟩ :=
      line_of_refusal hscan hfirst.word
    refine ⟨pre, s, post, n, hscan, hpre, ?_, hfirst, above, text, below, column, hlines, hline,
      hplace, hword, wordAt_script hscan hfirst.word⟩
    intro r hr
    rw [hfail] at hr
    cases hr
  · intro rs h n hword
    exact module_of_passed h hword

/-- Both halves of the gate at work: in the bindings of an indented declare statement the keyword is
refused, with the line it stands on; in the module of one it passes. -/
theorem import_gate_bindings_and_module :
    (lowerAll ⟨⟨['/']⟩, []⟩ (Statement.scan "a\n  declare \x7b import \x7d from 'x'".toList) =
        .error (.forbiddenImport 2) ∧
      ∃ (s : Statement) (n : Nat), FirstCounted s.text n ∧
        s ∈ Statement.scan "a\n  declare \x7b import \x7d from 'x'".toList) ∧
    (∃ rs, lowerAll ⟨⟨['/']⟩, []⟩ (Statement.scan "declare a from 'import'".toList) = .ok rs) ∧
      WordAt importWord "declare a from 'import'".toList 16 ∧
      ∃ s ∈ Statement.scan "declare a from 'import'".toList, ∃ d : Declare,
        Declare.read? (trim s.text) = some d ∧ importWord.length ≤ d.module.length := by
  refine ⟨⟨by decide, ?_⟩, ⟨_, rfl⟩, by decide, ?_⟩
  · obtain ⟨pre, s, post, n, hscan, -, -, hfirst, -⟩ := (import_gate ⟨⟨['/']⟩, []⟩
      "a\n  declare \x7b import \x7d from 'x'".toList).1 2 (by decide)
    exact ⟨s, n, hfirst, by rw [hscan]; simp⟩
  · obtain ⟨pre, s, post, d, o, hscan, hread, hlow, hhigh⟩ := (import_gate ⟨⟨['/']⟩, []⟩
      "declare a from 'import'".toList).2 _ rfl 16 (by decide)
    exact ⟨s, by rw [hscan]; simp, d, hread, by omega⟩

end Sandscript
