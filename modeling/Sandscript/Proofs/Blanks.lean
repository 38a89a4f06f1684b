import Mathlib.Data.List.TakeWhile
import Sandscript.Text.Word

/-!
# Trimming

A text is its indentation, its trimmed part and the blanks that it ends with
(`indent_trim_trail`). The trimmed part is the only one that can hold something else than blanks,
and neither end of it is blank (`trimmed_trim`). Conversely, blanks around a text without blanks at
its ends are just what trimming takes away (`indent_append`, `trim_append`).
-/

namespace Sandscript

namespace Text

/-- All characters are blanks. -/
def AllBlank (t : Text) : Prop := ∀ c ∈ t, isBlank c = true

instance (t : Text) : Decidable (AllBlank t) := List.decidableBAll (isBlank · = true) t

/-- The blanks that a text ends with. -/
def trail (t : Text) : Text := (t.reverse.takeWhile isBlank).reverse

/-- Neither end of the text is a blank. -/
structure Trimmed (t : Text) : Prop where
  head : ∀ c, t.head? = some c → isBlank c = false
  last : ∀ c, t.getLast? = some c → isBlank c = false

-- ---------------------------------------------------------------------------
-- Blanks
-- ---------------------------------------------------------------------------

theorem AllBlank.append {a b : Text} (ha : AllBlank a) (hb : AllBlank b) : AllBlank (a ++ b) := by
  intro c hc
  rcases List.mem_append.mp hc with h | h
  · exact ha c h
  · exact hb c h

theorem allBlank_indent (t : Text) : AllBlank (indent t) := fun _ hc => List.mem_takeWhile_imp hc

theorem allBlank_trail (t : Text) : AllBlank (trail t) := fun _ hc =>
  List.mem_takeWhile_imp (List.mem_reverse.mp hc)

/-- A character that is no blank does not occur among blanks. -/
theorem AllBlank.notMem {t : Text} (h : AllBlank t) {c : Char} (hc : isBlank c = false) :
    c ∉ t := by
  intro hin
  rw [h c hin] at hc
  exact Bool.noConfusion hc

theorem trimStart_of_allBlank {t : Text} (h : AllBlank t) : trimStart t = [] := by
  rw [trimStart, List.dropWhile_eq_nil_iff]
  exact h

theorem allBlank_of_trimStart {t : Text} (h : trimStart t = []) : AllBlank t := by
  rw [trimStart, List.dropWhile_eq_nil_iff] at h
  exact h

/-- What is left of a text without its first blanks does not start with one. -/
theorem isBlank_of_trimStart {t rest : Text} {c : Char} (h : trimStart t = c :: rest) :
    isBlank c = false := by
  have hhead := List.head?_dropWhile_not isBlank t
  rw [trimStart] at h
  rw [h] at hhead
  simpa using hhead

theorem trimStart_cons_of_not_blank {c : Char} (hc : isBlank c = false) (t : Text) :
    trimStart (c :: t) = c :: t := by
  simp [trimStart, hc]

/-- Blanks in front make no difference to what is left. -/
theorem trimStart_append_of_allBlank {a : Text} (ha : AllBlank a) (t : Text) :
    trimStart (a ++ t) = trimStart t := by
  induction a with
  | nil => rfl
  | cons c a ih =>
    have hc := ha c (List.mem_cons_self ..)
    rw [← ih fun c' hc' => ha c' (List.mem_cons_of_mem _ hc')]
    simp [trimStart, hc]

-- ---------------------------------------------------------------------------
-- Blanks and words
-- ---------------------------------------------------------------------------

/-- The blanks, one by one. -/
def blanks : List Char :=
  [9, 10, 11, 12, 13, 0x20, 0x85, 0xA0, 0x1680, 0x2000, 0x2001, 0x2002, 0x2003, 0x2004, 0x2005,
    0x2006, 0x2007, 0x2008, 0x2009, 0x200A, 0x2028, 0x2029, 0x202F, 0x205F, 0x3000].map Char.ofNat

/-- Every blank is in the table, which makes a property of all blanks decidable. -/
theorem mem_blanks {c : Char} (h : isBlank c = true) : c ∈ blanks := by
  refine List.mem_map.mpr ⟨c.toNat, ?_, Char.ofNat_toNat c⟩
  simp only [isBlank, Bool.or_eq_true, Bool.and_eq_true, decide_eq_true_eq, beq_iff_eq] at h
  simp only [List.mem_cons, List.not_mem_nil, or_false]
  omega

/-- A blank ends a word. -/
theorem isWord_of_isBlank {c : Char} (h : isBlank c = true) : isWord c = false := by
  have hall : blanks.all (fun c => !isWord c) = true := by decide +kernel
  simpa using List.all_eq_true.mp hall c (mem_blanks h)

/-- Letters and digits are ASCII characters. -/
theorem ascii_of_isAlphanum {c : Char} (h : c.isAlphanum = true) : c.toNat < 0x80 := by
  delta Char.isAlphanum Char.isAlpha Char.isUpper Char.isLower Char.isDigit at h
  simp only [Bool.or_eq_true, Bool.and_eq_true, decide_eq_true_eq, ge_iff_le,
    UInt32.le_iff_toNat_le] at h
  rcases h with (⟨-, hle⟩ | ⟨-, hle⟩) | ⟨-, hle⟩
  · exact Nat.lt_of_le_of_lt hle (by decide)
  · exact Nat.lt_of_le_of_lt hle (by decide)
  · exact Nat.lt_of_le_of_lt hle (by decide)

/-- ASCII letters and digits are word characters. -/
theorem isWord_of_isAlphanum {c : Char} (h : c.isAlphanum = true) : isWord c = true := by
  unfold isWord
  simp [ascii_of_isAlphanum h, h]

theorem AllBlank.endsWord_getLast? {t : Text} (h : AllBlank t) :
    endsWord t.getLast? = true := by
  cases hlast : t.getLast? with
  | none => rfl
  | some c => simp [endsWord, isWord_of_isBlank (h c (List.mem_of_getLast? hlast))]

theorem AllBlank.endsWord_head? {t : Text} (h : AllBlank t) : endsWord t.head? = true := by
  cases hhead : t.head? with
  | none => rfl
  | some c => simp [endsWord, isWord_of_isBlank (h c (List.mem_of_head? hhead))]

-- ---------------------------------------------------------------------------
-- The parts of a text
-- ---------------------------------------------------------------------------

/-- A text is what is left of it at the front and the blanks that were cut off. -/
theorem trimEnd_append_trail (t : Text) : trimEnd t ++ trail t = t := by
  rw [trimEnd, trail, ← List.reverse_append, List.takeWhile_append_dropWhile, List.reverse_reverse]

/-- A text is its indentation, its core and its trail. Whatever edits the core keeps the other two.
-/
theorem indent_trim_trail (t : Text) : indent t ++ trim t ++ trail (trimStart t) = t := by
  rw [List.append_assoc, trim, trimEnd_append_trail, indent_append_trimStart]

/-- After the blanks at the end were cut off, the last character is not blank. -/
theorem last_trimEnd (t : Text) : ∀ c, (trimEnd t).getLast? = some c → isBlank c = false := by
  intro c hc
  rw [trimEnd, List.getLast?_reverse] at hc
  obtain ⟨rest, hrest⟩ := List.head?_eq_some_iff.mp hc
  exact isBlank_of_trimStart hrest

/-- What trimming leaves has no blanks at its ends. -/
theorem trimmed_trim (t : Text) : Trimmed (trim t) := by
  constructor
  · intro c hc
    have hhead : (trimStart t).head? = some c := by
      rw [← trimEnd_append_trail (trimStart t), List.head?_append]
      rw [trim] at hc
      rw [hc]
      rfl
    obtain ⟨rest, hrest⟩ := List.head?_eq_some_iff.mp hhead
    exact isBlank_of_trimStart hrest
  · exact last_trimEnd (trimStart t)

/-- Trimming leaves nothing exactly of a blank text. -/
theorem trim_eq_nil_iff {t : Text} : trim t = [] ↔ AllBlank t := by
  constructor
  · intro h
    have hparts := indent_trim_trail t
    rw [h, List.append_nil] at hparts
    rw [← hparts]
    exact (allBlank_indent t).append (allBlank_trail _)
  · intro h
    rw [trim, trimStart_of_allBlank h]
    rfl

/-- A text that does not end with a blank is left as it is. -/
theorem trimEnd_of_last {t : Text} (h : ∀ c, t.getLast? = some c → isBlank c = false) :
    trimEnd t = t := by
  rcases List.eq_nil_or_concat t with rfl | ⟨init, c, rfl⟩
  · rfl
  · have hc := h c (by simp)
    rw [trimEnd, List.concat_eq_append, List.reverse_append]
    simp [hc]

theorem trimEnd_append_of_allBlank (t : Text) {b : Text} (hb : AllBlank b) :
    trimEnd (t ++ b) = trimEnd t := by
  have hrev : AllBlank b.reverse := fun c hc => hb c (List.mem_reverse.mp hc)
  have hdrop := trimStart_append_of_allBlank hrev t.reverse
  rw [trimStart, trimStart] at hdrop
  rw [trimEnd, trimEnd, List.reverse_append, hdrop]

/-- Blanks before a trimmed text do not change how the text ends. -/
theorem Trimmed.last_append {body : Text} (h : Trimmed body) (hne : body ≠ []) (lead : Text) :
    ∀ c, (lead ++ body).getLast? = some c → isBlank c = false := by
  intro c hc
  obtain ⟨d, hd⟩ := Option.isSome_iff_exists.mp (List.getLast?_isSome.mpr hne)
  rw [List.getLast?_append, hd] at hc
  obtain rfl : d = c := Option.some.inj hc
  exact h.last d hd

/-- Blanks before a text without blanks at its ends are its indentation. -/
theorem indent_append {a t : Text} (ha : AllBlank a) (ht : Trimmed t) (hne : t ≠ []) (b : Text) :
    indent (a ++ t ++ b) = a := by
  obtain ⟨c, rest, rfl⟩ := List.exists_cons_of_ne_nil hne
  have hc := ht.head c rfl
  rw [indent, List.append_assoc, List.takeWhile_append_of_pos ha]
  simp [hc]

/-- Blanks around a text without blanks at its ends are trimmed. -/
theorem trim_append {a t b : Text} (ha : AllBlank a) (ht : Trimmed t) (hb : AllBlank b) :
    trim (a ++ t ++ b) = t := by
  rw [trim, List.append_assoc, trimStart_append_of_allBlank ha]
  by_cases hne : t = []
  · rw [hne, List.nil_append, trimStart_of_allBlank hb]
    rfl
  · obtain ⟨c, rest, rfl⟩ := List.exists_cons_of_ne_nil hne
    rw [List.cons_append, trimStart_cons_of_not_blank (ht.head c rfl), ← List.cons_append,
      trimEnd_append_of_allBlank _ hb, trimEnd_of_last ht.last]

/-- Trimming takes away more blanks at the ends just as well. -/
theorem trim_append_of_allBlank {a b : Text} (ha : AllBlank a) (hb : AllBlank b) (t : Text) :
    trim (a ++ t ++ b) = trim t := by
  calc trim (a ++ t ++ b)
      = trim (a ++ (indent t ++ trim t ++ trail (trimStart t)) ++ b) := by rw [indent_trim_trail]
    _ = trim (a ++ indent t ++ trim t ++ (trail (trimStart t) ++ b)) := by simp
    _ = trim t := trim_append (ha.append (allBlank_indent t)) (trimmed_trim t)
        ((allBlank_trail _).append hb)

/-- Without the blanks at its end a text is its indentation and its trimmed part. -/
theorem trimEnd_eq {t : Text} (h : trim t ≠ []) : trimEnd t = indent t ++ trim t := by
  calc trimEnd t = trimEnd (indent t ++ trim t ++ trail (trimStart t)) := by rw [indent_trim_trail]
    _ = trimEnd (indent t ++ trim t) := trimEnd_append_of_allBlank _ (allBlank_trail _)
    _ = indent t ++ trim t := trimEnd_of_last ((trimmed_trim t).last_append h _)

/-- A text that does not end with a blank is its indentation and its trimmed part. -/
theorem indent_append_trim {t : Text} (h : ∀ c, t.getLast? = some c → isBlank c = false) :
    indent t ++ trim t = t := by
  have hlast : ∀ c, (trimStart t).getLast? = some c → isBlank c = false := by
    intro c hc
    refine h c ?_
    rw [← indent_append_trimStart t, List.getLast?_append, hc]
    rfl
  rw [trim, trimEnd_of_last hlast, indent_append_trimStart]

theorem trail_of_last {t : Text} (h : ∀ c, t.getLast? = some c → isBlank c = false) :
    trail t = [] := by
  have hparts := trimEnd_append_trail t
  rw [trimEnd_of_last h] at hparts
  exact List.append_right_eq_self.mp hparts

/-- Whatever follows a character that is not blank stays when blanks are cut off in front. -/
theorem trimStart_append_cons (t rest : Text) {c : Char} (hc : isBlank c = false) :
    trimStart (t ++ c :: rest) = trimStart t ++ c :: rest := by
  have hsplit : t ++ c :: rest = indent t ++ (trimStart t ++ c :: rest) := by
    rw [← List.append_assoc, indent_append_trimStart]
  rw [hsplit, trimStart_append_of_allBlank (allBlank_indent t)]
  cases hstart : trimStart t with
  | nil => exact trimStart_cons_of_not_blank hc rest
  | cons d more => exact trimStart_cons_of_not_blank (isBlank_of_trimStart hstart) _

/-- A trimmed text ends with the last character that is no blank. -/
theorem getLast?_trim_append (t : Text) {c : Char} (hc : isBlank c = false) {b : Text}
    (hb : AllBlank b) : (trim (t ++ c :: b)).getLast? = some c := by
  have hsplit : trimStart t ++ c :: b = trimStart t ++ [c] ++ b := by simp
  have hlast : ∀ d, (trimStart t ++ [c]).getLast? = some d → isBlank d = false := by
    intro d hd
    rw [List.getLast?_concat] at hd
    obtain rfl : c = d := Option.some.inj hd
    exact hc
  rw [trim, trimStart_append_cons t b hc, hsplit, trimEnd_append_of_allBlank _ hb,
    trimEnd_of_last hlast, List.getLast?_concat]

end Text

end Sandscript
