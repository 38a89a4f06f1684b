import Sandscript.Proofs.Cutting
import Sandscript.Text.Word

/-!
# Positions in a text

A position is a number of characters from the start of a text. This module relates positions to
the two ways in which the toolchain cuts texts: into pieces that are joined with newlines, and into
lines.

* `WordAt word t n` — `word` stands at position `n` of `t` as a whole word.
* `unlines_eq_closed` — where a piece stands in a joined text: after `closed` of the pieces before.
* `wordAt_unlines` — an occurrence in a joined text lies in one piece.
* `WordAt.exists_line` — the line that holds an occurrence, and its number.
* `beforeWord?_spec` / `beforeWord?_none` — the search finds the first occurrence, or there is none.
-/

namespace Sandscript

namespace Text

-- ---------------------------------------------------------------------------
-- Whole words
-- ---------------------------------------------------------------------------

/-- A word stands at a position as a whole word, where the character before the text is given. -/
def WordAfter (before : Option Char) (word t : Text) (n : Nat) : Prop :=
  word <+: t.drop n ∧ endsWord ((t.take n).getLast?.or before) = true ∧
    endsWord (t.drop (n + word.length)).head? = true

/-- A word stands at a position as a whole word. -/
def WordAt (word t : Text) (n : Nat) : Prop := WordAfter none word t n

instance (before : Option Char) (word t : Text) (n : Nat) :
    Decidable (WordAfter before word t n) :=
  inferInstanceAs (Decidable (_ ∧ _ ∧ _))

instance (word t : Text) (n : Nat) : Decidable (WordAt word t n) :=
  inferInstanceAs (Decidable (WordAfter none word t n))

/-- An occurrence as a decomposition of the text: what stands before it, the word, and what stands
behind it, with no character of a word at either side. -/
theorem wordAt_iff {word t : Text} {n : Nat} (hw : word ≠ []) :
    WordAt word t n ↔ ∃ before after, t = before ++ word ++ after ∧ before.length = n ∧
      endsWord before.getLast? = true ∧ endsWord after.head? = true := by
  constructor
  · rintro ⟨⟨after, hafter⟩, hleft, hright⟩
    have hn : n ≤ t.length := by
      rcases Nat.le_or_ge n t.length with h | h
      · exact h
      · rw [List.drop_eq_nil_of_le h] at hafter
        exact absurd (List.append_eq_nil_iff.mp hafter).1 hw
    have hrest : t.drop (n + word.length) = after := by
      rw [← List.drop_drop, ← hafter, List.drop_left]
    refine ⟨t.take n, after, ?_, List.length_take_of_le hn, by simpa using hleft, ?_⟩
    · rw [List.append_assoc, hafter, List.take_append_drop]
    · rw [← hrest]
      exact hright
  · rintro ⟨before, after, rfl, rfl, hleft, hright⟩
    refine ⟨?_, ?_, ?_⟩
    · simp
    · simpa using hleft
    · rw [← List.length_append, List.drop_left]
      exact hright

/-- The character before a position behind the first character does not depend on what stands
before the text. -/
theorem getLast?_cons_or (c : Char) (t : Text) (before : Option Char) :
    (c :: t).getLast?.or before = t.getLast?.or (some c) := by
  rw [List.getLast?_cons]
  cases t.getLast? <;> rfl

/-- At the first place the character before the text decides whether a word starts there. -/
theorem wordAfter_zero {before : Option Char} {word t : Text} :
    WordAfter before word t 0 ↔
      endsWord before = true ∧ word <+: t ∧ endsWord (t.drop word.length).head? = true := by
  simp only [WordAfter, List.drop_zero, List.take_zero, List.getLast?_nil, Option.none_or,
    Nat.zero_add]
  tauto

/-- At any later place the text can be taken without its first character, which is then the one
before it. -/
theorem wordAfter_succ {before : Option Char} {word t : Text} {c : Char} {n : Nat} :
    WordAfter before word (c :: t) (n + 1) ↔ WordAfter (some c) word t n := by
  simp only [WordAfter, List.take_succ_cons, getLast?_cons_or, List.drop_succ_cons,
    Nat.add_right_comm n 1]

/-- Occurrences behind a part are those of the rest, after the part's last character. -/
theorem wordAfter_append {before : Option Char} {word part t : Text} {n : Nat} :
    WordAfter before word (part ++ t) (part.length + n) ↔
      WordAfter (part.getLast?.or before) word t n := by
  induction part generalizing before with
  | nil => simp
  | cons c part ih =>
    have hlen : (c :: part).length + n = part.length + n + 1 := by
      rw [List.length_cons]
      omega
    rw [List.cons_append, hlen, wordAfter_succ, ih, getLast?_cons_or]

theorem not_wordAfter_nil {before : Option Char} {word : Text} (hw : word ≠ []) (n : Nat) :
    ¬ WordAfter before word [] n := by
  rintro ⟨h, -, -⟩
  rw [List.drop_nil, List.prefix_nil] at h
  exact hw h

/-- The search stops at the first occurrence and answers with what stands before it. By induction on
the text, with the character before it as a parameter. -/
theorem beforeWord?_spec {word : Text} {before : Option Char} {t found : Text}
    (h : beforeWord? word before t = some found) :
    found = t.take found.length ∧ WordAfter before word t found.length ∧
      ∀ k < found.length, ¬ WordAfter before word t k := by
  induction t generalizing before found with
  | nil => simp [beforeWord?] at h
  | cons c t ih =>
    rw [beforeWord?] at h
    split at h
    · next hhere =>
      simp only [Bool.and_eq_true, List.isPrefixOf_iff_prefix] at hhere
      obtain rfl : [] = found := by simpa using h
      exact ⟨rfl, wordAfter_zero.mpr ⟨hhere.1.1, hhere.1.2, hhere.2⟩, by simp⟩
    · next hhere =>
      obtain ⟨found, hfound, rfl⟩ := Option.map_eq_some_iff.mp h
      obtain ⟨htake, hword, hfirst⟩ := ih hfound
      refine ⟨?_, wordAfter_succ.mpr hword, ?_⟩
      · rw [List.length_cons, List.take_succ_cons, ← htake]
      · intro k hk
        cases k with
        | zero =>
          rw [wordAfter_zero]
          simpa [and_assoc] using hhere
        | succ k =>
          rw [wordAfter_succ]
          exact hfirst k (by simpa using hk)

/-- Where the search finds nothing there is nothing. With the lemma before, the search is settled by
occurrences alone. -/
theorem beforeWord?_none {word : Text} (hw : word ≠ []) {before : Option Char} {t : Text}
    (h : beforeWord? word before t = none) (n : Nat) : ¬ WordAfter before word t n := by
  induction t generalizing before n with
  | nil => exact not_wordAfter_nil hw n
  | cons c t ih =>
    rw [beforeWord?] at h
    split at h
    · simp at h
    · next hhere =>
      cases n with
      | zero =>
        rw [wordAfter_zero]
        simpa [and_assoc] using hhere
      | succ n =>
        rw [wordAfter_succ]
        exact ih (Option.map_eq_none_iff.mp h) n

theorem WordAt.length_le {word t : Text} {n : Nat} (h : WordAt word t n) (hw : word ≠ []) :
    n + word.length ≤ t.length := by
  have hlen := h.1.length_le
  have hpos := List.length_pos_iff.mpr hw
  rw [List.length_drop] at hlen
  omega

/-- An occurrence stays one when text is put around it that does not touch it with a word
character. -/
theorem WordAt.append {word t : Text} {n : Nat} (h : WordAt word t n) (hw : word ≠ [])
    {left right : Text} (hl : endsWord left.getLast? = true)
    (hr : endsWord right.head? = true) : WordAt word (left ++ t ++ right) (left.length + n) := by
  obtain ⟨before, after, rfl, rfl, hbefore, hafter⟩ := (wordAt_iff hw).mp h
  refine (wordAt_iff hw).mpr ⟨left ++ before, after ++ right, by simp, by simp, ?_, ?_⟩
  · rw [List.getLast?_append]
    cases hlast : before.getLast? with
    | none => simpa using hl
    | some c => simpa [hlast] using hbefore
  · cases after with
    | nil => simpa using hr
    | cons c after => simpa using hafter

/-- An occurrence that lies in a part of a text is one in the part. The character before the part
and the one behind it may be gone, and the end of a text is the end of a word. -/
theorem WordAt.of_append {word left t right : Text} {n : Nat}
    (h : WordAt word (left ++ t ++ right) (left.length + n))
    (hn : n + word.length ≤ t.length) : WordAt word t n := by
  obtain ⟨⟨rest, hrest⟩, hbefore, hafter⟩ := h
  have hdrop : (left ++ t ++ right).drop (left.length + n) = t.drop n ++ right := by
    rw [List.append_assoc, ← List.drop_drop, List.drop_left,
      List.drop_append_of_le_length (by omega)]
  have htake : (left ++ t ++ right).take (left.length + n) = left ++ t.take n := by
    rw [List.append_assoc, List.take_length_add_append, List.take_append_of_le_length (by omega)]
  have hskip : (left ++ t ++ right).drop (left.length + n + word.length) =
      t.drop (n + word.length) ++ right := by
    rw [Nat.add_assoc, List.append_assoc, ← List.drop_drop, List.drop_left,
      List.drop_append_of_le_length hn]
  refine ⟨?_, ?_, ?_⟩
  · rw [hdrop] at hrest
    exact List.prefix_of_prefix_length_le ⟨rest, hrest⟩ (List.prefix_append _ _)
      (by rw [List.length_drop]; omega)
  · -- at the start of the part there may be nothing before the word any more
    rw [htake, List.getLast?_append] at hbefore
    cases hlast : (t.take n).getLast? with
    | none => rfl
    | some c => simpa [hlast] using hbefore
  · rw [hskip] at hafter
    cases hhead : t.drop (n + word.length) with
    | nil => rfl
    | cons c _ => simpa [hhead] using hafter

/-- A text that stands somewhere does not reach over a character that it does not hold. -/
theorem prefix_drop_avoids {word left right : Text} {c : Char} {n : Nat}
    (h : word <+: (left ++ c :: right).drop n) (hc : c ∉ word) :
    n + word.length ≤ left.length ∨ left.length < n := by
  rcases Nat.lt_or_ge left.length n with hn | hn
  · exact Or.inr hn
  · refine Or.inl ?_
    rw [List.drop_append_of_le_length hn] at h
    by_contra hlong
    have hshort : (left.drop n ++ [c]).length ≤ word.length := by
      rw [List.length_append, List.length_drop, List.length_singleton]
      omega
    have hinto : left.drop n ++ [c] <+: word :=
      List.prefix_of_prefix_length_le ⟨right, by simp⟩ h hshort
    exact hc (hinto.subset (by simp))

/-- A text that stands somewhere starts behind a part that does not hold its first character. -/
theorem prefix_drop_behind {word left right : Text} {c : Char} {n : Nat}
    (h : c :: word <+: (left ++ right).drop n) (hc : c ∉ left) :
    ∃ m, n = left.length + m ∧ c :: word <+: right.drop m := by
  rcases Nat.lt_or_ge n left.length with hn | hn
  · rw [List.drop_append_of_le_length (by omega), List.drop_eq_getElem_cons hn,
      List.cons_append] at h
    exact absurd ((List.cons_prefix_cons.mp h).1 ▸ List.getElem_mem hn) hc
  · obtain ⟨m, rfl⟩ : ∃ m, n = left.length + m := ⟨n - left.length, by omega⟩
    rw [← List.drop_drop, List.drop_left] at h
    exact ⟨m, rfl, h⟩

-- ---------------------------------------------------------------------------
-- Joined pieces
-- ---------------------------------------------------------------------------

/-- Pieces, each closed with a newline: what stands before a piece of a joined text. -/
def closed (pieces : List Text) : Text := pieces.flatMap (· ++ ['\n'])

/-- Pieces, each opened with a newline: what stands after a piece of a joined text. -/
def opened (pieces : List Text) : Text := pieces.flatMap ('\n' :: ·)

theorem closed_cons (piece : Text) (pieces : List Text) :
    closed (piece :: pieces) = piece ++ '\n' :: closed pieces := by
  simp [closed]

theorem closed_append (a b : List Text) : closed (a ++ b) = closed a ++ closed b := by
  simp [closed]

theorem opened_cons (piece : Text) (pieces : List Text) :
    opened (piece :: pieces) = '\n' :: piece ++ opened pieces := by
  simp [opened]

@[simp] theorem unlines_singleton (piece : Text) : unlines [piece] = piece := rfl

theorem unlines_cons_cons (piece next : Text) (pieces : List Text) :
    unlines (piece :: next :: pieces) = piece ++ '\n' :: unlines (next :: pieces) := by
  simp [unlines, join]

/-- A joined text is its first piece and then the others, each opened by a newline. -/
theorem unlines_cons (piece : Text) (pieces : List Text) :
    unlines (piece :: pieces) = piece ++ opened pieces := by
  induction pieces generalizing piece with
  | nil => simp [opened]
  | cons next pieces ih => rw [unlines_cons_cons, ih, opened_cons]; simp

/-- Where a piece stands in a joined text. -/
theorem unlines_eq_closed (pre : List Text) (piece : Text) (post : List Text) :
    unlines (pre ++ piece :: post) = closed pre ++ piece ++ opened post := by
  induction pre with
  | nil => simp [unlines_cons, closed]
  | cons first pre ih =>
    have hne : pre ++ piece :: post ≠ [] := by simp
    rw [List.cons_append, unlines, join_cons_of_ne_nil _ _ hne, ← unlines, ih, closed_cons]
    simp

theorem unlines_append (pre : List Text) (piece : Text) (post : List Text) :
    unlines (pre ++ piece :: post) = closed pre ++ unlines (piece :: post) := by
  rw [unlines_eq_closed, unlines_cons, List.append_assoc]

/-- Joining joined pieces joins them all. Every group has a piece, because an empty group would
leave a newline of its own. -/
theorem unlines_map_unlines {groups : List (List Text)} (h : ∀ g ∈ groups, g ≠ []) :
    unlines (groups.map unlines) = unlines groups.flatten := by
  induction groups with
  | nil => rfl
  | cons g groups ih =>
    have ih := ih fun g' hg' => h g' (List.mem_cons_of_mem _ hg')
    cases groups with
    | nil => simp
    | cons next groups =>
      have hnext : (next :: groups).flatten ≠ [] := by
        simp only [List.flatten_cons, ne_eq, List.append_eq_nil_iff, not_and]
        exact fun hnil => absurd hnil (h next (by simp))
      obtain ⟨first, rest, rfl⟩ := List.exists_cons_of_ne_nil (h g (by simp))
      obtain ⟨piece, pieces, hpieces⟩ := List.exists_cons_of_ne_nil hnext
      calc unlines ((((first :: rest) :: next :: groups)).map unlines)
          = unlines (first :: rest) ++ '\n' :: unlines ((next :: groups).map unlines) := by
            rw [List.map_cons, List.map_cons, unlines_cons_cons]
        _ = unlines (first :: rest) ++ '\n' :: unlines (piece :: pieces) := by rw [ih, hpieces]
        _ = unlines ((first :: rest) ++ piece :: pieces) := by
            rw [List.cons_append, unlines_cons, unlines_cons, unlines_cons]
            simp [opened]
        _ = unlines ((first :: rest) :: next :: groups).flatten := by
            rw [List.flatten_cons, hpieces]

/-- Closed lines are nothing or end with a newline. -/
theorem closed_fresh (ls : List Text) : closed ls = [] ∨ (closed ls).getLast? = some '\n' := by
  rcases List.eq_nil_or_concat ls with rfl | ⟨init, last, rfl⟩
  · exact Or.inl rfl
  · refine Or.inr ?_
    rw [List.concat_eq_append, closed_append, closed_cons]
    simp [closed]

/-- Behind closed pieces a new word starts. -/
theorem endsWord_getLast?_closed (pieces : List Text) :
    endsWord (closed pieces).getLast? = true := by
  rcases closed_fresh pieces with hnil | hlast
  · rw [hnil]
    rfl
  · rw [hlast]
    decide

/-- The text after a piece starts with a newline, if there is any. -/
theorem endsWord_head?_opened (pieces : List Text) : endsWord (opened pieces).head? = true := by
  cases pieces with
  | nil => rfl
  | cons piece pieces =>
    rw [opened_cons, List.cons_append, List.head?_cons]
    decide

/-- An occurrence in a joined text lies in one of the pieces, because a word without a newline
cannot reach from one into the next. -/
theorem wordAt_unlines {word : Text} (hw : word ≠ []) (hnl : '\n' ∉ word) {pieces : List Text}
    {n : Nat} (h : WordAt word (unlines pieces) n) :
    ∃ pre piece post k, pieces = pre ++ piece :: post ∧ n = (closed pre).length + k ∧
      k + word.length ≤ piece.length ∧ WordAt word piece k := by
  -- along the pieces; the occurrence lies in the first one or behind its newline
  have hplace : ∃ pre piece post k, pieces = pre ++ piece :: post ∧
      n = (closed pre).length + k ∧ k + word.length ≤ piece.length := by
    replace h := h.1
    induction pieces generalizing n with
    | nil =>
      rw [unlines, join, List.drop_nil, List.prefix_nil] at h
      exact absurd h hw
    | cons piece pieces ih =>
      cases pieces with
      | nil =>
        refine ⟨[], piece, [], n, rfl, by simp [closed], ?_⟩
        have hlen := h.length_le
        have := List.length_pos_iff.mpr hw
        rw [unlines_singleton, List.length_drop] at hlen
        omega
      | cons next pieces =>
        rw [unlines_cons_cons] at h
        rcases prefix_drop_avoids h hnl with hin | hbehind
        · exact ⟨[], piece, next :: pieces, n, rfl, by simp [closed], hin⟩
        · obtain ⟨m, rfl⟩ : ∃ m, n = piece.length + 1 + m := ⟨n - (piece.length + 1), by omega⟩
          rw [Nat.add_assoc, ← List.drop_drop, List.drop_left, Nat.add_comm 1 m,
            List.drop_succ_cons] at h
          obtain ⟨pre, found, post, k, hsplit, rfl, hk⟩ := ih h
          refine ⟨piece :: pre, found, post, k, by rw [hsplit]; rfl, ?_, hk⟩
          rw [closed_cons, List.length_append, List.length_cons]
          omega
  obtain ⟨pre, piece, post, k, rfl, rfl, hk⟩ := hplace
  rw [unlines_eq_closed] at h
  exact ⟨pre, piece, post, k, rfl, rfl, hk, h.of_append hk⟩

-- ---------------------------------------------------------------------------
-- Lines
-- ---------------------------------------------------------------------------

@[simp] theorem lines_nil : lines [] = [[]] := rfl

@[simp] theorem lines_cons_newline (t : Text) : lines ('\n' :: t) = [] :: lines t :=
  split_cons_self t

theorem lines_ne_nil (t : Text) : lines t ≠ [] := split_ne_nil _ t

theorem lines_cons_of_ne {c : Char} (hc : c ≠ '\n') {t line : Text} {rest : List Text}
    (h : lines t = line :: rest) : lines (c :: t) = (c :: line) :: rest :=
  split_cons_of_ne hc h

theorem unlines_lines (t : Text) : unlines (lines t) = t := join_split '\n' t

/-- Lines are cut at every newline, so those before it and those behind it are independent. -/
theorem lines_append_newline (a b : Text) : lines (a ++ '\n' :: b) = lines a ++ lines b :=
  split_append a b

theorem lines_of_notMem {t : Text} (h : '\n' ∉ t) : lines t = [t] := split_of_notMem h

theorem newline_notMem_of_mem_lines {t line : Text} (h : line ∈ lines t) : '\n' ∉ line :=
  notMem_of_mem_split h

/-- Joined pieces are read back as their lines. A piece may have several. -/
theorem lines_unlines {pieces : List Text} (h : pieces ≠ []) :
    lines (unlines pieces) = pieces.flatMap lines :=
  split_join h

theorem flatMap_lines_of_notMem {ls : List Text} (h : ∀ l ∈ ls, '\n' ∉ l) :
    ls.flatMap lines = ls :=
  flatMap_split_of_notMem h

/-- Lines that are joined are the lines of the result. -/
theorem lines_unlines_of_notMem {pieces : List Text} (h : pieces ≠ [])
    (hnl : ∀ piece ∈ pieces, '\n' ∉ piece) : lines (unlines pieces) = pieces := by
  rw [lines_unlines h, flatMap_lines_of_notMem hnl]

/-- The lines of a text behind closed lines. -/
theorem lines_closed_append (ls : List Text) (t : Text) :
    lines (closed ls ++ t) = ls.flatMap lines ++ lines t := by
  induction ls with
  | nil => rfl
  | cons l ls ih =>
    rw [closed_cons, List.append_assoc, List.cons_append, lines_append_newline, ih,
      List.flatMap_cons, List.append_assoc]

theorem length_lines (t : Text) : (lines t).length = t.count '\n' + 1 := length_split t

/-- Before a line stand as many newlines as there are lines before it. -/
theorem count_newline_closed {pieces : List Text} (h : ∀ piece ∈ pieces, '\n' ∉ piece) :
    (closed pieces).count '\n' = pieces.length := by
  induction pieces with
  | nil => rfl
  | cons piece pieces ih =>
    have hpiece := List.count_eq_zero_of_not_mem (h piece (List.mem_cons_self ..))
    rw [closed_cons, List.count_append, hpiece, List.count_cons_self,
      ih fun p hp => h p (List.mem_cons_of_mem _ hp), List.length_cons, Nat.zero_add]

/-- The line that holds an occurrence: its number is the number of newlines before the occurrence,
and the occurrence is one of the line alone. -/
theorem WordAt.exists_line {word t : Text} {n : Nat} (h : WordAt word t n) (hw : word ≠ [])
    (hnl : '\n' ∉ word) :
    ∃ pre line post column, lines t = pre ++ line :: post ∧
      pre.length = (t.take n).count '\n' ∧ n = (closed pre).length + column ∧
      WordAt word line column := by
  rw [← unlines_lines t] at h
  obtain ⟨pre, line, post, column, hlines, rfl, hcolumn, hline⟩ := wordAt_unlines hw hnl h
  refine ⟨pre, line, post, column, hlines, ?_, rfl, hline⟩
  have hmem : ∀ piece ∈ pre ++ line :: post, '\n' ∉ piece := fun piece hp =>
    newline_notMem_of_mem_lines (hlines ▸ hp)
  have htake : t.take ((closed pre).length + column) = closed pre ++ line.take column := by
    rw [← unlines_lines t, hlines, unlines_eq_closed, List.append_assoc,
      List.take_length_add_append, List.take_append_of_le_length (by omega)]
  have hcount : (line.take column).count '\n' = 0 :=
    List.count_eq_zero_of_not_mem fun hin => hmem line (by simp) (List.mem_of_mem_take hin)
  rw [htake, List.count_append, hcount,
    count_newline_closed fun piece hp => hmem piece (List.mem_append_left _ hp), Nat.add_zero]

end Text

end Sandscript
