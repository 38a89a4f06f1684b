import Mathlib.Data.List.Infix
import Sandscript.Lowering
import Sandscript.Proofs.Positions

/-!
# Writing out the logging alias

`expandLog` only ever inserts `console.` before a free call. This module says what such insertions
cannot do:

* `getLast?_expandLog` — the end of the text stays as it is;
* `expandLogAfter_append_cons` — what stands on two sides of a character that is in no call is
  written out apart;
* `prefix_of_expandLogAfter` — inside a word nothing is inserted, so a word that the result starts
  with, together with the character after it, was there before;
* `expandLog_expandLog` — what was written out is not free any more;
* `wordAt_of_expandLog` — no new occurrence of the import keyword arises.
-/

namespace Sandscript

open Text (isWord WordAfter WordAt)

-- ---------------------------------------------------------------------------
-- One character at a time
-- ---------------------------------------------------------------------------

@[simp] theorem expandLogAfter_nil (before : Option Char) : expandLogAfter before [] = [] := rfl

/-- Where a call starts, the prefix is written before it. -/
theorem expandLogAfter_call {before : Option Char} {c : Char} {t : Text}
    (hfree : isFreeAfter before = true) (hcall : logCall <+: c :: t) :
    expandLogAfter before (c :: t) = "console.".toList ++ c :: expandLogAfter (some c) t := by
  rw [expandLogAfter, if_pos]
  rw [Bool.and_eq_true, List.isPrefixOf_iff_prefix]
  exact ⟨hfree, hcall⟩

/-- Anywhere else a character is kept. -/
theorem expandLogAfter_keep {before : Option Char} {c : Char} {t : Text}
    (h : isFreeAfter before = true → ¬ logCall <+: c :: t) :
    expandLogAfter before (c :: t) = c :: expandLogAfter (some c) t := by
  rw [expandLogAfter, if_neg]
  rw [Bool.and_eq_true, List.isPrefixOf_iff_prefix]
  exact fun ⟨hfree, hcall⟩ => h hfree hcall

/-- A character after which no call is free keeps its neighbour. -/
theorem expandLogAfter_bound {c d : Char} (hc : isFreeAfter (some c) = false) (t : Text) :
    expandLogAfter (some c) (d :: t) = d :: expandLogAfter (some d) t :=
  expandLogAfter_keep fun hfree => absurd hfree (by rw [hc]; exact Bool.false_ne_true)

theorem isFreeAfter_of_isWord {c : Char} (hc : isWord c = true) :
    isFreeAfter (some c) = false := by
  simp [isFreeAfter, hc]

/-- The two ways in which a text is written out after a character. -/
theorem expandLogAfter_cases (before : Option Char) (c : Char) (t : Text) :
    (isFreeAfter before = true ∧ logCall <+: c :: t ∧
      expandLogAfter before (c :: t) = "console.".toList ++ c :: expandLogAfter (some c) t) ∨
    ((isFreeAfter before = true → ¬ logCall <+: c :: t) ∧
      expandLogAfter before (c :: t) = c :: expandLogAfter (some c) t) := by
  by_cases h : isFreeAfter before = true ∧ logCall <+: c :: t
  · exact Or.inl ⟨h.1, h.2, expandLogAfter_call h.1 h.2⟩
  · have hkeep : isFreeAfter before = true → ¬ logCall <+: c :: t := fun h₁ h₂ => h ⟨h₁, h₂⟩
    exact Or.inr ⟨hkeep, expandLogAfter_keep hkeep⟩

-- ---------------------------------------------------------------------------
-- The ends of the text
-- ---------------------------------------------------------------------------

/-- The last character stays, since the name of the host is put in front of the alias. -/
theorem getLast?_expandLogAfter (before : Option Char) (t : Text) :
    (expandLogAfter before t).getLast? = t.getLast? := by
  induction t generalizing before with
  | nil => rfl
  | cons c t ih =>
    rcases expandLogAfter_cases before c t with ⟨-, -, heq⟩ | ⟨-, heq⟩
    · rw [heq, List.getLast?_append, List.getLast?_cons, List.getLast?_cons, ih]
      rfl
    · rw [heq, List.getLast?_cons, List.getLast?_cons, ih]

/-- The end of a text stays as it is. -/
theorem getLast?_expandLog (t : Text) : (expandLog t).getLast? = t.getLast? :=
  getLast?_expandLogAfter none t

/-- A call does not reach over a character that is in none. -/
theorem logCall_prefix_append_iff {c : Char} (hc : c ∉ logCall) (a b : Text) :
    logCall <+: a ++ c :: b ↔ logCall <+: a := by
  constructor
  · intro h
    rcases Text.prefix_drop_avoids (n := 0) h hc with hin | hbehind
    · exact List.prefix_of_prefix_length_le h (List.prefix_append _ _) (by omega)
    · omega
  · intro h
    exact h.trans (List.prefix_append _ _)

/-- A character that is in no call parts the text into two that are written out apart. The second
part sees this character before it, which is all that the first one can do to it. -/
theorem expandLogAfter_append_cons {c : Char} (hc : c ∉ logCall) (before : Option Char)
    (a b : Text) :
    expandLogAfter before (a ++ c :: b) =
      expandLogAfter before a ++ c :: expandLogAfter (some c) b := by
  induction a generalizing before with
  | nil =>
    refine expandLogAfter_keep fun _ hcall => hc ?_
    have hnil := (logCall_prefix_append_iff hc [] b).mp hcall
    exact absurd (List.prefix_nil.mp hnil) (by decide)
  | cons d a ih =>
    rcases expandLogAfter_cases before d a with ⟨hfree, hcall, heq⟩ | ⟨hkeep, heq⟩
    · rw [heq, List.cons_append, expandLogAfter_call hfree, ih]
      · simp
      · rw [← List.cons_append, logCall_prefix_append_iff hc]
        exact hcall
    · rw [heq, List.cons_append, expandLogAfter_keep, ih]
      · rfl
      · rw [← List.cons_append, logCall_prefix_append_iff hc]
        exact hkeep

/-- A character at the end that is not in the alias is kept and changes nothing before it. -/
theorem expandLogAfter_concat {c : Char} (hc : c ∉ logCall) (before : Option Char) (t : Text) :
    expandLogAfter before (t ++ [c]) = expandLogAfter before t ++ [c] :=
  expandLogAfter_append_cons hc before t []

/-- Of the character before a text only matters whether it leaves a call free. -/
theorem expandLogAfter_congr {before before' : Option Char}
    (h : isFreeAfter before = isFreeAfter before') (t : Text) :
    expandLogAfter before t = expandLogAfter before' t := by
  cases t with
  | nil => rfl
  | cons c t =>
    unfold expandLogAfter
    rw [h]

-- ---------------------------------------------------------------------------
-- Words
-- ---------------------------------------------------------------------------

/-- Inside a word nothing is inserted: a word that goes on in the result goes on in the text, up to
the character after it. -/
theorem prefix_of_expandLogAfter {c d : Char} {word t : Text} (hc : isWord c = true)
    (hword : word.all isWord = true) (h : word ++ [d] <+: expandLogAfter (some c) t) :
    word ++ [d] <+: t := by
  induction word generalizing c t with
  | nil =>
    cases t with
    | nil => simp at h
    | cons e t =>
      rw [expandLogAfter_bound (isFreeAfter_of_isWord hc)] at h
      have hd := (List.cons_prefix_cons.mp h).1
      rw [List.nil_append, hd]
      exact ⟨t, rfl⟩
  | cons x word ih =>
    cases t with
    | nil => simp at h
    | cons e t =>
      rw [expandLogAfter_bound (isFreeAfter_of_isWord hc), List.cons_append,
        List.cons_prefix_cons] at h
      obtain ⟨rfl, hrest⟩ := h
      rw [List.all_cons, Bool.and_eq_true] at hword
      rw [List.cons_append, List.cons_prefix_cons]
      exact ⟨rfl, ih hword.1 hword.2 hrest⟩

/-- A word is kept, and what follows it is written out after its last character. -/
theorem expandLogAfter_word {c : Char} (hc : isWord c = true) {word : Text}
    (hword : word.all isWord = true) (t : Text) :
    expandLogAfter (some c) (word ++ t) =
      word ++ expandLogAfter (some (word.getLastD c)) t := by
  induction word generalizing c with
  | nil => rfl
  | cons x word ih =>
    rw [List.all_cons, Bool.and_eq_true] at hword
    rw [List.cons_append, expandLogAfter_bound (isFreeAfter_of_isWord hc), ih hword.1 hword.2,
      List.getLastD_cons]
    rfl

theorem head?_expandLogAfter {c : Char} (hc : isFreeAfter (some c) = false) (t : Text) :
    (expandLogAfter (some c) t).head? = t.head? := by
  cases t with
  | nil => rfl
  | cons d t => rw [expandLogAfter_bound hc, List.head?_cons, List.head?_cons]

/-- A word at the start of the result was there before, unless it is the one that is inserted. -/
theorem prefix_of_expandLog {first d : Char} {word t : Text} (hfirst : isWord first = true)
    (hne : first ≠ 'c') (hword : word.all isWord = true)
    (h : first :: word ++ [d] <+: expandLog t) : first :: word ++ [d] <+: t := by
  cases t with
  | nil => simp [expandLog] at h
  | cons c t =>
    rw [expandLog] at h
    rcases expandLogAfter_cases none c t with ⟨-, -, heq⟩ | ⟨-, heq⟩
    · rw [heq] at h
      exact absurd (List.cons_prefix_cons.mp h).1 hne
    · rw [heq, List.cons_append, List.cons_prefix_cons] at h
      obtain ⟨rfl, hrest⟩ := h
      rw [List.cons_append, List.cons_prefix_cons]
      exact ⟨rfl, prefix_of_expandLogAfter hfirst hword hrest⟩

-- ---------------------------------------------------------------------------
-- Writing out twice
-- ---------------------------------------------------------------------------

/-- What is written before a call holds no call itself. None of its letters starts the alias, and
behind its dot no place is free. -/
theorem expandLogAfter_console (before : Option Char) (t : Text) :
    expandLogAfter before ("console.".toList ++ t) =
      "console.".toList ++ expandLogAfter (some '.') t := by
  have hstart : ¬ logCall <+: 'c' :: ("onsole.".toList ++ t) := by
    intro h
    exact absurd (List.cons_prefix_cons.mp h).1 (by decide)
  have hword : "onsole".toList.all isWord = true := by decide
  calc expandLogAfter before ("console.".toList ++ t)
      = 'c' :: expandLogAfter (some 'c') ("onsole".toList ++ '.' :: t) :=
        expandLogAfter_keep fun _ => hstart
    _ = 'c' :: ("onsole".toList ++ expandLogAfter (some 'e') ('.' :: t)) := by
        rw [expandLogAfter_word (by decide) hword]
        rfl
    _ = "console.".toList ++ expandLogAfter (some '.') t := by
        rw [expandLogAfter_bound (by decide)]
        rfl

theorem logCall_first {c : Char} {t : Text} (h : logCall <+: c :: t) : c = 'l' :=
  (List.cons_prefix_cons.mp h).1.symm

/-- Expanding twice is expanding once, because behind the dot that was put in there is no free
place. -/
theorem expandLogAfter_expandLogAfter (before : Option Char) (t : Text) :
    expandLogAfter before (expandLogAfter before t) = expandLogAfter before t := by
  induction t generalizing before with
  | nil => rfl
  | cons c t ih =>
    rcases expandLogAfter_cases before c t with ⟨-, hcall, heq⟩ | ⟨hkeep, heq⟩
    · -- after the dot the call is no longer free
      rw [heq, expandLogAfter_console, expandLogAfter_bound (by decide), ih]
    · rw [heq, expandLogAfter_keep, ih]
      intro hfree hcall
      have hc := logCall_first hcall
      subst hc
      have hrest : "og".toList ++ ['('] <+: expandLogAfter (some 'l') t :=
        (List.cons_prefix_cons.mp hcall).2
      have hbefore := prefix_of_expandLogAfter (by decide) (by decide) hrest
      exact hkeep hfree (List.cons_prefix_cons.mpr ⟨rfl, hbefore⟩)

/-- Writing out the alias in a text in which it is written out changes nothing. -/
theorem expandLog_expandLog (t : Text) : expandLog (expandLog t) = expandLog t :=
  expandLogAfter_expandLogAfter none t

-- ---------------------------------------------------------------------------
-- The import keyword
-- ---------------------------------------------------------------------------

/-- An occurrence of the import keyword in the result comes from one in the text. What is put in
holds no such word and ends with a dot, so that it cannot become a part of one either. -/
theorem wordAfter_of_expandLogAfter {before : Option Char} {t : Text} {n : Nat}
    (h : WordAfter before importWord (expandLogAfter before t) n) :
    ∃ m, WordAfter before importWord t m := by
  induction t generalizing before n with
  | nil => exact absurd h (Text.not_wordAfter_nil (by decide) n)
  | cons c t ih =>
    rcases expandLogAfter_cases before c t with ⟨-, hcall, heq⟩ | ⟨-, heq⟩
    · -- neither the inserted text nor the start of the call can start the keyword
      rw [heq] at h
      have hinsert : 'i' ∉ "console.".toList := by decide
      obtain ⟨m, rfl, hm⟩ := Text.prefix_drop_behind h.1 hinsert
      cases m with
      | zero =>
        have hc := (List.cons_prefix_cons.mp hm).1
        rw [logCall_first hcall] at hc
        exact absurd hc (by decide)
      | succ k =>
        rw [Text.wordAfter_append, Text.wordAfter_succ] at h
        obtain ⟨j, hj⟩ := ih h
        exact ⟨j + 1, Text.wordAfter_succ.mpr hj⟩
    · rw [heq] at h
      cases n with
      | zero =>
        obtain ⟨hbefore, hword, hafter⟩ := Text.wordAfter_zero.mp h
        obtain ⟨rfl, hrest⟩ := List.cons_prefix_cons.mp hword
        -- inside the keyword nothing was inserted, so it stands in the text as a whole
        have hmport : "mpor".toList ++ ['t'] <+: t :=
          prefix_of_expandLogAfter (by decide) (by decide) hrest
        obtain ⟨rest, rfl⟩ := hmport
        refine ⟨0, Text.wordAfter_zero.mpr ⟨hbefore, ⟨rest, rfl⟩, ?_⟩⟩
        rw [expandLogAfter_word (by decide) (by decide)] at hafter
        have hhead : Text.endsWord (expandLogAfter (some 't') rest).head? = true := hafter
        rw [head?_expandLogAfter (by decide)] at hhead
        exact hhead
      | succ n =>
        rw [Text.wordAfter_succ] at h
        obtain ⟨m, hm⟩ := ih h
        exact ⟨m + 1, Text.wordAfter_succ.mpr hm⟩

/-- The keyword is found after the expansion only if it was there before. -/
theorem wordAt_of_expandLog {t : Text} {n : Nat} (h : WordAt importWord (expandLog t) n) :
    ∃ m, WordAt importWord t m :=
  wordAfter_of_expandLogAfter h

end Sandscript
