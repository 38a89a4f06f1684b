import Mathlib.Data.List.Basic
import Sandscript.Text.Basic

/-!
# Cutting and joining

What `split` does to texts that are put together, for any separator. Lines and the parts of a path
are both pieces of this kind.

* `takeWhile_append_of_head?`, `dropWhile_append_of_head?` — a text is cut where its kind of
  characters changes;
* `takeWhile_append_sep`, `dropWhile_append_sep` — a text is cut at its first separator.
* `split_append` — a separator ends a piece and starts another one.
* `split_join` — the pieces of a joined text are the pieces of what was joined.
* `length_split` — there is one piece more than there are separators.
-/

namespace Sandscript

namespace Text

variable {sep : Char}

theorem bne_of_notMem {t : Text} (h : sep ∉ t) : ∀ c ∈ t, (c != sep) = true := by
  intro c hc
  rw [bne_iff_ne]
  rintro rfl
  exact h hc

/-- What a text starts with, up to the first character that is of another kind. -/
theorem takeWhile_append_of_head? {p : Char → Bool} {a rest : Text} (ha : ∀ c ∈ a, p c = true)
    (hrest : ∀ c, rest.head? = some c → p c = false) : (a ++ rest).takeWhile p = a := by
  rw [List.takeWhile_append_of_pos ha]
  cases rest with
  | nil => simp
  | cons c rest => simp [hrest c rfl]

/-- A run that ends at the next text is dropped as a whole, if the text does not continue it. -/
theorem dropWhile_append_of_head? {p : Char → Bool} {a rest : Text} (ha : ∀ c ∈ a, p c = true)
    (hrest : ∀ c, rest.head? = some c → p c = false) : (a ++ rest).dropWhile p = rest := by
  rw [List.dropWhile_append_of_pos ha]
  cases rest with
  | nil => simp
  | cons c rest => simp [hrest c rfl]

theorem takeWhile_append_sep {t : Text} (h : sep ∉ t) (rest : Text) :
    (t ++ sep :: rest).takeWhile (· != sep) = t := by
  rw [List.takeWhile_append_of_pos (bne_of_notMem h)]
  simp

theorem dropWhile_append_sep {t : Text} (h : sep ∉ t) (rest : Text) :
    (t ++ sep :: rest).dropWhile (· != sep) = sep :: rest := by
  rw [List.dropWhile_append_of_pos (bne_of_notMem h)]
  simp

theorem split_cons_self (t : Text) : split sep (sep :: t) = [] :: split sep t := by
  simp [split]

theorem split_cons_of_ne {c : Char} (hc : c ≠ sep) {t piece : Text} {rest : List Text}
    (h : split sep t = piece :: rest) : split sep (c :: t) = (c :: piece) :: rest := by
  simp [split, hc, h]

theorem exists_split (sep : Char) (t : Text) : ∃ piece rest, split sep t = piece :: rest :=
  List.exists_cons_of_ne_nil (split_ne_nil sep t)

/-- A separator ends a piece and starts another one. -/
theorem split_append (a b : Text) : split sep (a ++ sep :: b) = split sep a ++ split sep b := by
  induction a with
  | nil => exact split_cons_self b
  | cons c a ih =>
    obtain ⟨piece, rest, hpieces⟩ := exists_split sep a
    by_cases hc : c = sep
    · subst hc
      rw [List.cons_append, split_cons_self, split_cons_self, ih, List.cons_append]
    · rw [hpieces, List.cons_append] at ih
      rw [List.cons_append, split_cons_of_ne hc ih, split_cons_of_ne hc hpieces, List.cons_append]

/-- A text without a separator is its only piece. -/
theorem split_of_notMem {t : Text} (h : sep ∉ t) : split sep t = [t] := by
  induction t with
  | nil => rfl
  | cons c t ih =>
    rw [List.mem_cons, not_or] at h
    exact split_cons_of_ne (Ne.symm h.1) (ih h.2)

/-- No piece holds a separator. By induction on the text: its first character starts a new piece, or
it is put in front of the first piece and is no separator. -/
theorem notMem_of_mem_split {t piece : Text} (h : piece ∈ split sep t) : sep ∉ piece := by
  induction t generalizing piece with
  | nil =>
    rw [split, List.mem_singleton] at h
    simp [h]
  | cons c t ih =>
    obtain ⟨first, rest, hpieces⟩ := exists_split sep t
    by_cases hc : c = sep
    · subst hc
      rw [split_cons_self, List.mem_cons] at h
      rcases h with rfl | h
      · simp
      · exact ih h
    · rw [split_cons_of_ne hc hpieces, List.mem_cons] at h
      rw [hpieces] at ih
      rcases h with rfl | h
      · rw [List.mem_cons, not_or]
        exact ⟨Ne.symm hc, ih (List.mem_cons_self ..)⟩
      · exact ih (List.mem_cons_of_mem _ h)

/-- The pieces are made of characters of the text, by the same induction. So whatever holds of all
characters of a text holds of those of its pieces. -/
theorem mem_of_mem_split {t piece : Text} (h : piece ∈ split sep t) {c : Char} (hc : c ∈ piece) :
    c ∈ t := by
  induction t generalizing piece with
  | nil =>
    rw [split, List.mem_singleton] at h
    exact absurd (h ▸ hc) List.not_mem_nil
  | cons x t ih =>
    obtain ⟨first, rest, hpieces⟩ := exists_split sep t
    by_cases hx : x = sep
    · subst hx
      rw [split_cons_self, List.mem_cons] at h
      rcases h with rfl | h
      · exact absurd hc List.not_mem_nil
      · exact List.mem_cons_of_mem _ (ih h hc)
    · rw [split_cons_of_ne hx hpieces, List.mem_cons] at h
      rw [hpieces] at ih
      rcases h with rfl | h
      · rcases List.mem_cons.mp hc with rfl | hc
        · exact List.mem_cons_self ..
        · exact List.mem_cons_of_mem _ (ih (List.mem_cons_self ..) hc)
      · exact List.mem_cons_of_mem _ (ih (List.mem_cons_of_mem _ h) hc)

/-- There is one piece more than there are separators. -/
theorem length_split (t : Text) : (split sep t).length = t.count sep + 1 := by
  induction t with
  | nil => rfl
  | cons c t ih =>
    obtain ⟨first, rest, hpieces⟩ := exists_split sep t
    by_cases hc : c = sep
    · subst hc
      rw [split_cons_self, List.length_cons, ih, List.count_cons_self]
    · rw [split_cons_of_ne hc hpieces, List.count_cons_of_ne hc, ← ih, hpieces]
      rfl

/-- A text that does not end with the separator does not end with an empty piece. This is how a path
without a slash at its end is told from one with it. -/
theorem getLast?_split_ne (a : Text) {c : Char} (hc : c ≠ sep) :
    (split sep (a ++ [c])).getLast? ≠ some [] := by
  induction a with
  | nil => simp [split, hc]
  | cons x a ih =>
    obtain ⟨piece, rest, hpieces⟩ := exists_split sep (a ++ [c])
    rw [hpieces] at ih
    by_cases hx : x = sep
    · subst hx
      rw [List.cons_append, split_cons_self, hpieces, List.getLast?_cons_cons]
      exact ih
    · rw [List.cons_append, split_cons_of_ne hx hpieces]
      cases rest with
      | nil => simp
      | cons next rest =>
        rw [List.getLast?_cons_cons] at ih ⊢
        exact ih

/-- The pieces of a joined text are the pieces of what was joined. -/
theorem split_join {pieces : List Text} (h : pieces ≠ []) :
    split sep (join [sep] pieces) = pieces.flatMap (split sep) := by
  induction pieces with
  | nil => exact absurd rfl h
  | cons piece pieces ih =>
    cases pieces with
    | nil => simp [join]
    | cons next pieces =>
      have hrest : (next :: pieces) ≠ [] := by simp
      rw [join_cons_of_ne_nil _ _ hrest, List.append_assoc, List.singleton_append, split_append,
        ih hrest, ← List.flatMap_cons]

/-- A last piece is joined behind a separator. -/
theorem join_concat {pieces : List Text} (h : pieces ≠ []) (last : Text) :
    join [sep] (pieces ++ [last]) = join [sep] pieces ++ sep :: last := by
  induction pieces with
  | nil => exact absurd rfl h
  | cons piece pieces ih =>
    rw [List.cons_append, join_cons_of_ne_nil _ _ (by simp)]
    by_cases hnil : pieces = []
    · subst hnil
      simp [join]
    · rw [ih hnil, join_cons_of_ne_nil _ _ hnil]
      simp

/-- Pieces without a separator are not cut again. -/
theorem flatMap_split_of_notMem {pieces : List Text} (h : ∀ piece ∈ pieces, sep ∉ piece) :
    pieces.flatMap (split sep) = pieces := by
  induction pieces with
  | nil => rfl
  | cons piece pieces ih =>
    rw [List.flatMap_cons, split_of_notMem (h piece (List.mem_cons_self ..)),
      ih fun other hother => h other (List.mem_cons_of_mem _ hother)]
    rfl

/-- A joined text has no characters but the separator and those of its pieces. It is used to keep a
character out of a path that is put together from parts without it. -/
theorem mem_join {pieces : List Text} {c : Char} (h : c ∈ join [sep] pieces) :
    c = sep ∨ ∃ piece ∈ pieces, c ∈ piece := by
  induction pieces with
  | nil => exact absurd h List.not_mem_nil
  | cons piece pieces ih =>
    by_cases hnil : pieces = []
    · subst hnil
      exact Or.inr ⟨piece, List.mem_cons_self .., h⟩
    · rw [join_cons_of_ne_nil _ _ hnil] at h
      simp only [List.mem_append, List.mem_singleton] at h
      rcases h with (hpiece | hsep) | hrest
      · exact Or.inr ⟨piece, List.mem_cons_self .., hpiece⟩
      · exact Or.inl hsep
      · rcases ih hrest with hsep | ⟨other, hother, hin⟩
        · exact Or.inl hsep
        · exact Or.inr ⟨other, List.mem_cons_of_mem _ hother, hin⟩

end Text

end Sandscript
