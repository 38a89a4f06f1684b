import Mathlib.Data.List.DropRight
import Sandscript.Disk
import Sandscript.Proofs.Cutting

/-!
# The parts of a path

Walking along a path looks at its nonempty parts and at nothing else of the text. This module says
what these are for the paths that the toolchain puts together.

* `parts_join` — joining a relative path adds its parts.
* `parts_ofParts` — parts joined with `/` are the parts of the path.
* `names_eq` — the names of a path are its parts without the dots.
* `parts_parent` — the parent lacks the last part that is not a `.`, and the dots around it, so it
  does not end with a `.` itself (`not_endsInDot_parent`).
* `steps_splitSlash` — without the `/` at its end a path asks for its parts and no more.
-/

namespace Sandscript

namespace Path

/-- The parts of a path that are not empty. -/
def parts (p : Path) : List Text := (Text.split '/' p.text).filter (!·.isEmpty)

/-- A name that can be written as a part of a path and is no `.` or `..` there. -/
def Spelled (name : Text) : Prop :=
  name ≠ [] ∧ '/' ∉ name ∧ name ≠ ['.'] ∧ name ≠ ['.', '.']

instance (name : Text) : Decidable (Spelled name) :=
  inferInstanceAs (Decidable (_ ∧ _ ∧ _ ∧ _))

/-- The last part of a path is a `.`, which asks for a directory before it. -/
def EndsInDot (p : Path) : Prop := p.parts.getLast? = some ['.']

instance (p : Path) : Decidable p.EndsInDot := inferInstanceAs (Decidable (_ = _))

/-- A part of a path is not empty and has no slash, since the path is cut at its slashes. -/
theorem mem_parts {p : Path} {part : Text} (h : part ∈ p.parts) : part ≠ [] ∧ '/' ∉ part := by
  rw [parts, List.mem_filter] at h
  exact ⟨by simpa using h.2, Text.notMem_of_mem_split h.1⟩

/-- The parts of two texts with a slash between them are those of the first and then those of the
second. -/
theorem parts_append (a b : Text) : parts ⟨a ++ '/' :: b⟩ = parts ⟨a⟩ ++ parts ⟨b⟩ := by
  rw [parts, parts, parts, Text.split_append, List.filter_append]

theorem parts_concat_slash (a : Text) : parts ⟨a ++ ['/']⟩ = parts ⟨a⟩ := by
  rw [parts_append]
  exact List.append_nil _

-- ---------------------------------------------------------------------------
-- Joining
-- ---------------------------------------------------------------------------

/-- A path is absolute if its text starts with a slash. -/
theorem isAbsolute_iff {p : Path} : p.isAbsolute = true ↔ ∃ body, p.text = '/' :: body := by
  rw [isAbsolute, anchored]
  split
  · next body h => simp [h]
  · next h => simp [h]
  · next h => simp [h]
  · next hroot _ _ =>
    constructor
    · intro h
      simp at h
    · rintro ⟨body, h⟩
      exact absurd h (hroot body)

/-- An absolute path is anchored at the root, with the text behind its slash as the body. -/
theorem exists_anchored {p : Path} (hp : p.isAbsolute = true) :
    ∃ body, p.text = '/' :: body ∧ p.anchored = (.root, body) := by
  obtain ⟨body, hbody⟩ := isAbsolute_iff.mp hp
  exact ⟨body, hbody, by rw [anchored, hbody]; rfl⟩

theorem isAbsolute_of_starts {p q : Path} (hp : p.isAbsolute = true) {rest : Text}
    (h : q.text = p.text ++ rest) : q.isAbsolute = true := by
  obtain ⟨body, hbody⟩ := isAbsolute_iff.mp hp
  exact isAbsolute_iff.mpr ⟨body ++ rest, by rw [h, hbody, List.cons_append]⟩

/-- What is joined to an absolute path is absolute, whether it replaces the path or extends it. -/
theorem isAbsolute_join {p : Path} (hp : p.isAbsolute = true) (q : Path) :
    (p.join q).isAbsolute = true := by
  rw [join]
  split
  · assumption
  · split
    · exact isAbsolute_of_starts hp rfl
    · exact isAbsolute_of_starts hp rfl

/-- Joining a relative path adds its parts. -/
theorem parts_join (p : Path) {q : Path} (hq : q.isAbsolute = false) :
    (p.join q).parts = p.parts ++ q.parts := by
  rw [join, if_neg (by simp [hq])]
  split
  · next h =>
    rcases Bool.or_eq_true_iff.mp h with hempty | hslash
    · rw [List.isEmpty_iff.mp hempty, List.nil_append]
      simp [parts, List.isEmpty_iff.mp hempty, Text.split]
    · obtain ⟨before, hbefore⟩ := List.getLast?_eq_some_iff.mp (of_decide_eq_true hslash)
      have hp : p.parts = parts ⟨before⟩ := by
        rw [← parts_concat_slash before, ← hbefore]
      rw [hbefore, List.append_assoc, List.singleton_append, parts_append, hp]
  · exact parts_append p.text q.text

/-- A relative path that is joined does not change whether the whole is absolute. -/
theorem isAbsolute_join_of_relative {p q : Path} (hp : p.text ≠ []) (hq : q.isAbsolute = false) :
    (p.join q).isAbsolute = p.isAbsolute := by
  rw [Bool.eq_iff_iff]
  refine ⟨fun h => ?_, fun h => isAbsolute_join h q⟩
  obtain ⟨c, rest, hc⟩ := List.exists_cons_of_ne_nil hp
  obtain ⟨body, hbody⟩ := isAbsolute_iff.mp h
  rw [join, if_neg (by simp [hq]), hc] at hbody
  refine isAbsolute_iff.mpr ⟨rest, ?_⟩
  rw [hc]
  split at hbody
  · rw [(List.cons.inj hbody).1]
  · rw [(List.cons.inj hbody).1]

theorem isAbsolute_join_relative {p q : Path} (hp : p.isAbsolute = false)
    (hq : q.isAbsolute = false) : (p.join q).isAbsolute = false := by
  by_cases hempty : p.text = []
  · obtain ⟨text⟩ := p
    obtain rfl : text = [] := hempty
    rw [join, if_neg (by simp [hq])]
    exact hq
  · rw [isAbsolute_join_of_relative hempty hq, hp]

/-- A join brings no character but a slash. -/
theorem mem_text_join {p q : Path} {c : Char} (hc : c ∈ (p.join q).text) :
    c ∈ p.text ∨ c = '/' ∨ c ∈ q.text := by
  unfold join at hc
  split at hc
  · exact Or.inr (Or.inr hc)
  · split at hc
    · exact (List.mem_append.mp hc).imp_right Or.inr
    · simpa using hc

/-- Parts that are written with slashes between them make a relative path. -/
theorem isAbsolute_ofParts {ps : List Text} (h : ∀ part ∈ ps, part ≠ [] ∧ '/' ∉ part) :
    isAbsolute ⟨Text.join ['/'] ps⟩ = false := by
  rw [Bool.eq_false_iff, Ne, isAbsolute_iff]
  rintro ⟨body, hbody⟩
  cases ps with
  | nil => exact absurd hbody (by simp [Text.join])
  | cons part ps =>
    obtain ⟨hne, hslash⟩ := h part (List.mem_cons_self ..)
    obtain ⟨c, rest, rfl⟩ := List.exists_cons_of_ne_nil hne
    obtain ⟨after, hafter⟩ : ∃ after, Text.join ['/'] ((c :: rest) :: ps) = c :: after := by
      cases ps <;> exact ⟨_, rfl⟩
    rw [hafter] at hbody
    exact hslash (by simp [(List.cons.inj hbody).1])

/-- Parts joined with `/` are the parts of the path. -/
theorem parts_ofParts {ps : List Text} (h : ∀ part ∈ ps, part ≠ [] ∧ '/' ∉ part) :
    parts ⟨Text.join ['/'] ps⟩ = ps := by
  by_cases hne : ps = []
  · subst hne
    rfl
  · have hcut : Text.split '/' (Text.join ['/'] ps) = ps := by
      rw [Text.split_join hne, Text.flatMap_split_of_notMem fun part hpart => (h part hpart).2]
    rw [parts, hcut, List.filter_eq_self]
    intro part hpart
    simpa using (h part hpart).1

/-- Names that are written with slashes between them make a relative path. -/
theorem isAbsolute_ofNames {names : List Text} (h : ∀ name ∈ names, Spelled name) :
    isAbsolute ⟨Text.join ['/'] names⟩ = false :=
  isAbsolute_ofParts fun name hname => ⟨(h name hname).1, (h name hname).2.1⟩

theorem parts_ofNames {names : List Text} (h : ∀ name ∈ names, Spelled name) :
    parts ⟨Text.join ['/'] names⟩ = names :=
  parts_ofParts fun name hname => ⟨(h name hname).1, (h name hname).2.1⟩

-- ---------------------------------------------------------------------------
-- The parent
-- ---------------------------------------------------------------------------

/-- Dropping the empty parts at the end leaves the beginning of the list as it is. -/
theorem dropEmptyEnd_append (ps : List Text) :
    ∃ dropped, ps = dropEmptyEnd ps ++ dropped ∧ ∀ part ∈ dropped, isEmptyPart part = true := by
  refine ⟨(ps.reverse.takeWhile isEmptyPart).reverse, ?_, fun part hpart => ?_⟩
  · rw [dropEmptyEnd, ← List.reverse_append, List.takeWhile_append_dropWhile, List.reverse_reverse]
  · exact List.mem_takeWhile_imp (List.mem_reverse.mp hpart)

/-- After the empty parts at the end were dropped, the last part is not one of them. -/
theorem isEmptyPart_of_dropEmptyEnd {ps before : List Text} {last : Text}
    (h : (dropEmptyEnd ps).reverse = last :: before) : isEmptyPart last = false := by
  rw [dropEmptyEnd, List.reverse_reverse] at h
  have hhead := List.head_dropWhile_not isEmptyPart (l := ps.reverse) (by simp [h])
  simpa [h] using hhead

/-- The parts that count as empty and yet are not the empty text are dots. -/
theorem eq_dot_of_filter {ps : List Text} (h : ∀ part ∈ ps, isEmptyPart part = true) :
    ∀ part ∈ ps.filter (!·.isEmpty), part = ['.'] := by
  intro part hpart
  obtain ⟨hmem, hne⟩ := List.mem_filter.mp hpart
  have hempty := h part hmem
  rw [isEmptyPart] at hempty
  simp only [Bool.not_eq_true'] at hne
  simpa [hne] using hempty

/-- The parts of an absolute path are those of the text behind the slash. -/
theorem parts_cons_slash (body : Text) :
    parts ⟨'/' :: body⟩ = (Text.split '/' body).filter (!·.isEmpty) := by
  rw [parts, Text.split_cons_self]
  rfl

/-- Parts that are written with slashes between them after a slash are read back, without the empty
ones. -/
theorem parts_cons_join {ps : List Text} (h : ∀ part ∈ ps, '/' ∉ part) :
    parts ⟨'/' :: Text.join ['/'] ps⟩ = ps.filter (!·.isEmpty) := by
  rw [parts_cons_slash]
  by_cases hne : ps = []
  · subst hne
    rfl
  · rw [Text.split_join hne, Text.flatMap_split_of_notMem h]

/-- How the parent of an absolute path is cut from its text: of the pieces between the slashes it
keeps those before the last part that is not empty, without the empty ones at their end. -/
theorem exists_pieces_of_parent {p q : Path} (hp : p.isAbsolute = true) (h : p.parent? = some q) :
    ∃ body before middle last behind, p.text = '/' :: body ∧
      q = ⟨'/' :: Text.join ['/'] (dropEmptyEnd before)⟩ ∧
      Text.split '/' body = dropEmptyEnd before ++ (middle ++ last :: behind) ∧
      isEmptyPart last = false ∧ (∀ part ∈ middle, isEmptyPart part = true) ∧
      ∀ part ∈ behind, isEmptyPart part = true := by
  obtain ⟨body, hbody, hanchored⟩ := exists_anchored hp
  rw [parent?, hanchored] at h
  dsimp only at h
  split at h
  · simp at h
  · next last before hrev =>
    obtain ⟨behind, hcut, hbehind⟩ := dropEmptyEnd_append (Text.split '/' body)
    obtain ⟨middle, hbefore, hmiddle⟩ := dropEmptyEnd_append before.reverse
    refine ⟨body, before.reverse, middle, last, behind, hbody, (Option.some.inj h).symm, ?_,
      isEmptyPart_of_dropEmptyEnd hrev, hmiddle, hbehind⟩
    calc Text.split '/' body = (dropEmptyEnd (Text.split '/' body)).reverse.reverse ++ behind := by
          rw [List.reverse_reverse, ← hcut]
      _ = before.reverse ++ last :: behind := by
          rw [hrev, List.reverse_cons, List.append_assoc, List.singleton_append]
      _ = dropEmptyEnd before.reverse ++ (middle ++ last :: behind) := by
          rw [← List.append_assoc, ← hbefore]

/-- The parent lacks the last part that is not a `.`, and the dots around it. The parent is cut from
the text, so the proof follows the pieces between the slashes and drops the empty ones. -/
theorem parts_parent {p q : Path} (hp : p.isAbsolute = true) (h : p.parent? = some q) :
    q.isAbsolute = true ∧ ∃ dots last dots', p.parts = q.parts ++ (dots ++ last :: dots') ∧
      (∀ part ∈ dots, part = ['.']) ∧ last ≠ ['.'] ∧ ∀ part ∈ dots', part = ['.'] := by
  obtain ⟨body, before, middle, last, behind, hbody, rfl, hpieces, hlast, hmiddle, hbehind⟩ :=
    exists_pieces_of_parent hp h
  rw [isEmptyPart, Bool.or_eq_false_iff] at hlast
  have hslash : ∀ part ∈ dropEmptyEnd before, '/' ∉ part := fun part hpart =>
    Text.notMem_of_mem_split (hpieces ▸ List.mem_append_left _ hpart)
  refine ⟨isAbsolute_iff.mpr ⟨_, rfl⟩, _, last, _, ?_, eq_dot_of_filter hmiddle,
    by simpa using hlast.2, eq_dot_of_filter hbehind⟩
  calc p.parts = parts ⟨'/' :: body⟩ := by rw [parts, parts, hbody]
    _ = (Text.split '/' body).filter (!·.isEmpty) := parts_cons_slash body
    _ = _ := by
      rw [hpieces, List.filter_append, List.filter_append,
        List.filter_cons_of_pos (by simp [hlast.1])]
      exact congrArg (· ++ _) (parts_cons_join hslash).symm

/-- A parent does not end with a `.`, since whatever counts as empty at its end is dropped with the
last part. So a dot at the end of a path is a matter of the path itself and not of its ancestors. -/
theorem not_endsInDot_parent {p q : Path} (hp : p.isAbsolute = true) (h : p.parent? = some q) :
    ¬ q.EndsInDot := by
  obtain ⟨body, before, middle, last, behind, -, rfl, hpieces, -⟩ := exists_pieces_of_parent hp h
  have hslash : ∀ part ∈ dropEmptyEnd before, '/' ∉ part := fun part hpart =>
    Text.notMem_of_mem_split (hpieces ▸ List.mem_append_left _ hpart)
  show ¬ (parts ⟨'/' :: Text.join ['/'] (dropEmptyEnd before)⟩).getLast? = _
  rw [parts_cons_join hslash]
  rcases hkept : (dropEmptyEnd before).reverse with _ | ⟨final, front⟩
  · rw [List.reverse_eq_nil_iff.mp hkept]
    simp
  · have hfinal := isEmptyPart_of_dropEmptyEnd hkept
    rw [isEmptyPart, Bool.or_eq_false_iff] at hfinal
    rw [← List.reverse_reverse (dropEmptyEnd before), hkept, List.reverse_cons,
      List.filter_append, List.filter_cons_of_pos (by simp [hfinal.1]), List.filter_nil,
      List.getLast?_concat]
    simpa using hfinal.2

/-- The names of a path are its parts without the dots. A dot at the start of a relative path is
kept apart and is no name either. -/
theorem names_eq (p : Path) : p.names = p.parts.filter (· != ['.']) := by
  have hnames : ∀ body : Text, (Text.split '/' body).filter (!isEmptyPart ·) =
      (parts ⟨body⟩).filter (· != ['.']) := by
    intro body
    rw [parts, List.filter_filter]
    refine List.filter_congr fun part _ => ?_
    simp [isEmptyPart, bne, Bool.and_comm]
  obtain ⟨text⟩ := p
  rw [names, hnames, anchored]
  split
  · next body hbody =>
    obtain rfl : text = '/' :: body := hbody
    rw [parts_cons_slash, parts]
  · next hbody =>
    obtain rfl : text = ['.'] := hbody
    rfl
  · next body hbody =>
    obtain rfl : text = '.' :: '/' :: body := hbody
    rw [show '.' :: '/' :: body = ['.'] ++ '/' :: body from rfl, parts_append, parts_cons_slash,
      List.filter_append]
    rfl
  · rfl

/-- Of dots alone nothing is left. -/
theorem filter_dots {ps : List Text} (h : ∀ part ∈ ps, part = ['.']) :
    ps.filter (· != ['.']) = [] := by
  rw [List.filter_eq_nil_iff]
  intro part hpart
  simp [h part hpart]

/-- Among names there are no dots. -/
theorem filter_names {names : List Text} (h : ∀ name ∈ names, Spelled name) :
    names.filter (· != ['.']) = names := by
  rw [List.filter_eq_self]
  exact fun name hname => by simpa using (h name hname).2.2.1

/-- The parent lacks the last name. -/
theorem names_parent {p q : Path} (hp : p.isAbsolute = true) (h : p.parent? = some q) :
    q.isAbsolute = true ∧ ∃ last, p.names = q.names ++ [last] := by
  obtain ⟨hq, dots, last, dots', hparts, hdots, hlast, hdots'⟩ := parts_parent hp h
  refine ⟨hq, last, ?_⟩
  rw [names_eq p, names_eq q, hparts, List.filter_append,
    List.filter_append, filter_dots hdots, List.nil_append,
    List.filter_cons_of_pos (by simpa using hlast), filter_dots hdots']

/-- An absolute path without a parent is the root: it has no names. -/
theorem names_of_orphan {p : Path} (hp : p.isAbsolute = true) (h : p.parent? = none) :
    p.names = [] := by
  obtain ⟨body, hbody, hanchored⟩ := exists_anchored hp
  rw [parent?, hanchored] at h
  dsimp only at h
  split at h
  · next hnil =>
    obtain ⟨dropped, hcut, hempty⟩ := dropEmptyEnd_append (Text.split '/' body)
    rw [List.reverse_eq_nil_iff.mp hnil, List.nil_append] at hcut
    rw [names, hanchored, hcut, List.filter_eq_nil_iff]
    intro part hpart
    simp [hempty part hpart]
  · simp at h

/-- What parents keep holds of all ancestors. By induction on the length at which the list of
ancestors is cut off. -/
theorem of_mem_ancestors {R : Path → Prop} {p : Path} (hp : R p)
    (hparent : ∀ q r, R q → q.parent? = some r → R r) : ∀ q ∈ p.ancestors, R q := by
  have hparents : ∀ fuel (p : Path), R p → ∀ q ∈ p.parents fuel, R q := by
    intro fuel
    induction fuel with
    | zero => exact fun p _ q hq => absurd hq List.not_mem_nil
    | succ fuel ih =>
      intro p hp q hq
      rw [parents] at hq
      split at hq
      · exact absurd hq List.not_mem_nil
      · next r hr =>
        rcases List.mem_cons.mp hq with rfl | hq
        · exact hparent p q hp hr
        · exact ih r (hparent p r hp hr) q hq
  intro q hq
  rcases List.mem_cons.mp hq with rfl | hq
  · exact hp
  · exact hparents _ p hp q hq

/-- The parent of a path is written with characters of the path. -/
theorem mem_text_parent {p q : Path} (hp : p.isAbsolute = true) (h : p.parent? = some q) {c : Char}
    (hc : c ∈ q.text) : c ∈ p.text := by
  obtain ⟨body, before, middle, last, behind, hbody, rfl, hpieces, -⟩ :=
    exists_pieces_of_parent hp h
  rw [hbody]
  rcases List.mem_cons.mp hc with rfl | hc
  · exact List.mem_cons_self ..
  · rcases Text.mem_join hc with rfl | ⟨part, hpart, hin⟩
    · exact List.mem_cons_self ..
    · have hpiece : part ∈ Text.split '/' body := hpieces ▸ List.mem_append_left _ hpart
      exact List.mem_cons_of_mem _ (Text.mem_of_mem_split hpiece hin)

-- ---------------------------------------------------------------------------
-- Slashes at the end
-- ---------------------------------------------------------------------------

/-- Any number of trailing slashes adds no part. -/
theorem parts_append_slashes (a : Text) {slashes : Text} (h : ∀ c ∈ slashes, c = '/') :
    parts ⟨a ++ slashes⟩ = parts ⟨a⟩ := by
  induction slashes generalizing a with
  | nil => rw [List.append_nil]
  | cons c slashes ih =>
    obtain rfl : c = '/' := h c (List.mem_cons_self ..)
    rw [List.append_cons, ih _ fun c hc => h c (List.mem_cons_of_mem _ hc), parts_concat_slash]

/-- A path is what `splitSlash` leaves of it and slashes. What is left does not end with a `/`; a
path of slashes alone is left as it is. -/
theorem splitSlash_append (p : Path) :
    ∃ slashes, p.text = (Disk.splitSlash p).1.text ++ slashes ∧ (∀ c ∈ slashes, c = '/') ∧
      ((Disk.splitSlash p).1 = p ∧ p.parts = [] ∨
        (∃ a c, (Disk.splitSlash p).1.text = a ++ [c] ∧ c ≠ '/') ∧
          ((Disk.splitSlash p).2 = true ∨ slashes = [])) := by
  obtain ⟨slashes, hslashes, htext⟩ : ∃ slashes, (∀ c ∈ slashes, c = '/') ∧
      p.text = (p.text.reverse.dropWhile (· == '/')).reverse ++ slashes := by
    refine ⟨(p.text.reverse.takeWhile (· == '/')).reverse, fun c hc => ?_, ?_⟩
    · simpa using List.mem_takeWhile_imp (List.mem_reverse.mp hc)
    · rw [← List.reverse_append, List.takeWhile_append_dropWhile, List.reverse_reverse]
  rw [Disk.splitSlash]
  split
  · -- slashes alone: the path is left as it is, and has no parts
    next hempty =>
    refine ⟨[], by simp, by simp, Or.inl ⟨rfl, ?_⟩⟩
    rw [List.isEmpty_iff.mp hempty] at htext
    calc p.parts = parts ⟨[] ++ slashes⟩ := by rw [← htext]
      _ = [] := parts_append_slashes [] hslashes
  · next hempty =>
    have hlength := congrArg List.length htext
    rw [List.length_append] at hlength
    refine ⟨slashes, htext, hslashes, Or.inr ⟨?_, ?_⟩⟩
    · obtain ⟨c, rest, hrest⟩ : ∃ c rest, p.text.reverse.dropWhile (· == '/') = c :: rest :=
        List.exists_cons_of_ne_nil (by simpa using hempty)
      have hc := List.head_dropWhile_not (· == '/') (l := p.text.reverse) (by simp [hrest])
      refine ⟨rest.reverse, c, by simp [hrest], ?_⟩
      simpa [hrest] using hc
    · by_cases hnone : slashes = []
      · exact Or.inr hnone
      · have hpos := List.length_pos_of_ne_nil hnone
        exact Or.inl (decide_eq_true (by omega))

theorem parts_splitSlash (p : Path) : (Disk.splitSlash p).1.parts = p.parts := by
  obtain ⟨slashes, htext, hslashes, -⟩ := splitSlash_append p
  calc (Disk.splitSlash p).1.parts = parts ⟨(Disk.splitSlash p).1.text ++ slashes⟩ :=
        (parts_append_slashes _ hslashes).symm
    _ = p.parts := by rw [← htext]

/-- Without the `/` at its end a path asks for its parts and no more. -/
theorem steps_splitSlash (p : Path) : Disk.steps (Disk.splitSlash p).1 = p.parts := by
  have hparts := parts_splitSlash p
  rw [parts] at hparts
  rw [Disk.steps, hparts, if_neg]
  intro hdot
  rw [Bool.and_eq_true] at hdot
  obtain ⟨slashes, -, -, ⟨-, hempty⟩ | ⟨⟨a, c, hbody, hc⟩, -⟩⟩ := splitSlash_append p
  · simp [hempty] at hdot
  · obtain ⟨piece, hpiece⟩ := Option.isSome_iff_exists.mp (List.getLast?_isSome.mpr
      (Text.split_ne_nil '/' (Disk.splitSlash p).1.text))
    have hlast := Text.getLast?_split_ne a hc
    rw [← hbody, hpiece] at hlast
    rw [hpiece] at hdot
    exact hlast (by simpa using hdot.2)

/-- Taking off trailing slashes keeps an absolute path absolute: of a path of slashes alone one is
left. -/
theorem isAbsolute_splitSlash {p : Path} (hp : p.isAbsolute = true) :
    (Disk.splitSlash p).1.isAbsolute = true := by
  obtain ⟨slashes, htext, -, ⟨hsame, -⟩ | ⟨⟨a, c, hbody, -⟩, -⟩⟩ := splitSlash_append p
  · rw [hsame]
    exact hp
  · obtain ⟨body, hstart⟩ := isAbsolute_iff.mp hp
    obtain ⟨first, rest, hrest⟩ : ∃ first rest, (Disk.splitSlash p).1.text = first :: rest :=
      List.exists_cons_of_ne_nil (by simp [hbody])
    rw [hstart, hrest] at htext
    exact isAbsolute_iff.mpr ⟨rest, by rw [hrest, ← (List.cons.inj htext).1]⟩

/-- Taking off trailing slashes does not change whether a path is absolute. -/
theorem isAbsolute_splitSlash_eq (p : Path) : (Disk.splitSlash p).1.isAbsolute = p.isAbsolute := by
  rw [Bool.eq_iff_iff]
  refine ⟨fun h => ?_, isAbsolute_splitSlash⟩
  obtain ⟨slashes, htext, -⟩ := splitSlash_append p
  exact isAbsolute_of_starts h htext

/-- A path that ends with a `/` is told apart from the same path without. -/
theorem splitSlash_of_slash {p : Path} (hp : p.parts ≠ []) (h : p.text.getLast? = some '/') :
    (Disk.splitSlash p).2 = true := by
  obtain ⟨slashes, htext, -, ⟨-, hempty⟩ | ⟨⟨a, c, hbody, hc⟩, htrue | hnone⟩⟩ :=
    splitSlash_append p
  · exact absurd hempty hp
  · exact htrue
  · rw [htext, hnone, List.append_nil, hbody, List.getLast?_concat] at h
    exact absurd (Option.some.inj h) hc

/-- A path that does not end in a slash has none to take off. -/
theorem splitSlash_of_last {p : Path} {a : Text} {c : Char} (h : p.text = a ++ [c]) (hc : c ≠ '/') :
    (Disk.splitSlash p).1 = p := by
  obtain ⟨slashes, htext, hslashes, -⟩ := splitSlash_append p
  have hnone : slashes = [] := by
    by_contra hne
    obtain ⟨before, last, rfl⟩ := (List.eq_nil_or_concat slashes).resolve_left hne
    rw [h, List.concat_eq_append, ← List.append_assoc] at htext
    obtain ⟨-, hlast⟩ := List.append_inj' htext rfl
    exact hc ((List.singleton_inj.mp hlast).trans (hslashes last (by simp)))
  rw [hnone, List.append_nil] at htext
  exact congrArg Path.mk htext.symm

theorem isAbsolute_of_notMem {q : Path} (h : '/' ∉ q.text) : q.isAbsolute = false := by
  rw [Bool.eq_false_iff, Ne, isAbsolute_iff]
  rintro ⟨body, hbody⟩
  exact h (by simp [hbody])

/-- Joining the empty path makes a path end with a `/`. -/
theorem getLast?_join_nil {p : Path} (hp : p.text ≠ []) :
    (p.join ⟨[]⟩).text.getLast? = some '/' := by
  rw [join, if_neg (by decide)]
  split
  · next hend => simpa [hp] using hend
  · exact List.getLast?_concat ..

theorem text_ne_nil_of_parts {p : Path} (hp : p.parts ≠ []) : p.text ≠ [] := by
  intro hnil
  rw [parts, hnil] at hp
  exact hp rfl

/-- A path with the empty path behind it asks for a directory. -/
theorem splitSlash_join_nil {p : Path} (hp : p.parts ≠ []) :
    (Disk.splitSlash (p.join ⟨[]⟩)).2 = true := by
  refine splitSlash_of_slash ?_ (getLast?_join_nil (text_ne_nil_of_parts hp))
  rw [parts_join p rfl]
  exact List.append_ne_nil_of_left_ne_nil hp _

/-- A path that ends with a name asks for its parts. -/
theorem steps_join (p : Path) {q : Path} (hne : q.text ≠ []) (h : '/' ∉ q.text) :
    Disk.steps (p.join q) = (p.join q).parts := by
  obtain ⟨front, hfront⟩ : ∃ front, (p.join q).text = front ++ q.text := by
    rw [join, if_neg (by simp [isAbsolute_of_notMem h])]
    split
    · exact ⟨_, rfl⟩
    · exact ⟨p.text ++ ['/'], by simp⟩
  obtain ⟨before, last, hlast⟩ := (List.eq_nil_or_concat q.text).resolve_left hne
  rw [hlast, List.concat_eq_append, ← List.append_assoc] at hfront
  have hslash : last ≠ '/' := by
    rintro rfl
    exact h (by simp [hlast])
  rw [← steps_splitSlash, splitSlash_of_last hfront hslash]

/-- The last name stands at the end of the text. -/
theorem exists_join_concat (names : List Text) (name : Text) :
    ∃ front, Text.join ['/'] (names ++ [name]) = front ++ name := by
  induction names with
  | nil => exact ⟨[], rfl⟩
  | cons first names ih =>
    obtain ⟨front, hfront⟩ := ih
    refine ⟨first ++ ['/'] ++ front, ?_⟩
    rw [List.cons_append, Text.join_cons_of_ne_nil _ _ (by simp), hfront]
    simp

/-- A path that ends with names does not end with a `/`, as the last name is not empty and holds no
slash. So there is nothing to take off, and the disk does not ask for a directory. -/
theorem splitSlash_join_names (p : Path) {names : List Text} (hne : names ≠ [])
    (h : ∀ name ∈ names, Spelled name) :
    Disk.splitSlash (p.join ⟨Text.join ['/'] names⟩) = (p.join ⟨Text.join ['/'] names⟩, false) := by
  obtain ⟨above, name, rfl⟩ := (List.eq_nil_or_concat names).resolve_left hne
  rw [List.concat_eq_append] at h ⊢
  obtain ⟨hname, hslash, -⟩ := h name (by simp)
  obtain ⟨front, hfront⟩ := exists_join_concat above name
  obtain ⟨before, c, rfl⟩ := (List.eq_nil_or_concat name).resolve_left hname
  rw [List.concat_eq_append] at hfront hslash h ⊢
  have hc : c ≠ '/' := by
    rintro rfl
    exact hslash (by simp)
  -- the last character of the joined path is that of the last name
  obtain ⟨start, hstart⟩ : ∃ start,
      (p.join ⟨Text.join ['/'] (above ++ [before ++ [c]])⟩).text = start ++ [c] := by
    rw [join, if_neg (by simp [isAbsolute_ofNames h]), hfront]
    split
    · exact ⟨p.text ++ (front ++ before), by simp⟩
    · exact ⟨p.text ++ '/' :: (front ++ before), by simp⟩
  generalize p.join ⟨Text.join ['/'] (above ++ [before ++ [c]])⟩ = q at hstart ⊢
  have hsame := splitSlash_of_last hstart hc
  refine Prod.ext hsame ?_
  unfold Disk.splitSlash at hsame ⊢
  dsimp only at hsame ⊢
  split at hsame
  · next hempty => rw [if_pos hempty]
  · next hempty =>
    rw [if_neg hempty]
    have hlength := congrArg (List.length ∘ Path.text) hsame
    simpa using hlength.ge

theorem parts_join_names (p : Path) {names : List Text} (h : ∀ name ∈ names, Spelled name) :
    (p.join ⟨Text.join ['/'] names⟩).parts = p.parts ++ names := by
  rw [parts_join p (isAbsolute_ofNames h), parts_ofNames h]

/-- The disk walks the parts of the path and then the names. There is at least one name, so no
trailing slash is walked as a dot. -/
theorem steps_join_names (p : Path) {names : List Text} (hne : names ≠ [])
    (h : ∀ name ∈ names, Spelled name) :
    Disk.steps (p.join ⟨Text.join ['/'] names⟩) = p.parts ++ names := by
  rw [← parts_join_names p h, ← steps_splitSlash, splitSlash_join_names p hne h]

/-- A path asks for its parts, and perhaps for a directory at its end. -/
theorem exists_steps (p : Path) :
    ∃ tail, Disk.steps p = p.parts ++ tail ∧ ∀ part ∈ tail, part = ['.'] := by
  rw [Disk.steps]
  split
  · exact ⟨[['.']], rfl, by simp⟩
  · exact ⟨[], (List.append_nil _).symm, by simp⟩

end Path

end Sandscript
