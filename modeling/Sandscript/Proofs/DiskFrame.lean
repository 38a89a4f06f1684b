import Sandscript.Proofs.PathSteps

/-!
# What disk operations leave alone

An operation on a disk changes at most one location, or removes one with all below it. Which
location that is depends on where a walk ends, and walks follow links. This module says what can be
said of a walk without following it.

* `SameOutside W d d'` — the two disks agree on everything that is not at or below `W`.
* `walk_entry`, `walk_link` — one step of a walk: past what is no link, and along a link.
* `Walks.eq_onwards` — a walk that meets no link and does not climb ends where its steps say.
* `Walks.to_missing` — a walk that ends at a location where nothing is goes the same way once there
  is a directory, whatever happens below it.
* `Lawful` — what is on a disk lies in directories and has names that a path can spell.
* the `_eq_ok` lemmas — what an operation has done when it succeeded.
-/

namespace Sandscript

namespace Disk

open Sandscript.Path (Spelled)

-- ---------------------------------------------------------------------------
-- The map
-- ---------------------------------------------------------------------------

/-- Below the root, what is at a place is what the entries say. The root itself is always a
directory. -/
theorem get?_of_ne_nil (d : Disk) {l : Location} (h : l ≠ []) : d.get? l = d.entries.lookup l := by
  cases l with
  | nil => exact absurd rfl h
  | cons name l => rfl

/-- Looking up a place is not affected by dropping others. Both the putting and the removing of an
entry drop entries, so this is what their frame lemmas rest on. -/
theorem lookup_filter {p : Location → Bool} {l : Location} (h : p l = true)
    (entries : List (Location × Entry)) :
    (entries.filter fun x => p x.1).lookup l = entries.lookup l := by
  induction entries with
  | nil => rfl
  | cons x entries ih =>
    rw [List.filter_cons, List.lookup_cons]
    by_cases hx : l = x.1
    · subst hx
      rw [if_pos h, List.lookup_cons_self]
      simp
    · have hne : (l == x.1) = false := by simpa using hx
      rw [hne, ← ih]
      split
      · rw [List.lookup_cons, hne]
      · rfl

theorem get?_insert_self (d : Disk) {l : Location} (h : l ≠ []) (e : Entry) :
    (d.insert l e).get? l = some e := by
  rw [get?_of_ne_nil _ h, insert]
  simp

/-- Putting something at a place changes no other place. -/
theorem get?_insert_of_ne (d : Disk) {l l' : Location} (h : l' ≠ l) (e : Entry) :
    (d.insert l e).get? l' = d.get? l' := by
  by_cases hnil : l' = []
  · rw [hnil]
    rfl
  · have hne : (l' == l) = false := by simpa using h
    rw [get?_of_ne_nil _ hnil, get?_of_ne_nil _ hnil, insert, List.lookup_cons, hne]
    exact lookup_filter (p := (· != l)) (by simpa using h) d.entries

/-- Removing a tree changes nothing that is not below its top. -/
theorem get?_prune (d : Disk) {l l' : Location} (h : ¬ l <+: l') :
    (d.prune l).get? l' = d.get? l' := by
  by_cases hnil : l' = []
  · rw [hnil]
    rfl
  · rw [get?_of_ne_nil _ hnil, get?_of_ne_nil _ hnil, prune]
    refine lookup_filter (p := fun x => !l.isPrefixOf x) ?_ d.entries
    rw [Bool.not_eq_true', Bool.eq_false_iff, Ne, List.isPrefixOf_iff_prefix]
    exact h

-- ---------------------------------------------------------------------------
-- Agreement outside a location
-- ---------------------------------------------------------------------------

/-- The two disks agree on everything that is not at or below a location. -/
def SameOutside (W : Location) (d d' : Disk) : Prop := ∀ l, ¬ W <+: l → d'.get? l = d.get? l

theorem SameOutside.refl (W : Location) (d : Disk) : SameOutside W d d := fun _ _ => rfl

theorem SameOutside.trans {W : Location} {d d' d'' : Disk} (h : SameOutside W d d')
    (h' : SameOutside W d' d'') : SameOutside W d d'' :=
  fun l hl => (h' l hl).trans (h l hl)

theorem sameOutside_insert {W l : Location} (d : Disk) (h : W <+: l) (e : Entry) :
    SameOutside W d (d.insert l e) := by
  intro l' hl'
  refine get?_insert_of_ne d ?_ e
  rintro rfl
  exact hl' h

theorem sameOutside_prune (W : Location) (d : Disk) : SameOutside W d (d.prune W) :=
  fun _ hl => get?_prune d hl

-- ---------------------------------------------------------------------------
-- Steps that meet no link
-- ---------------------------------------------------------------------------

/-- Where a step leads that meets no link. -/
def onward (a : Location) (step : Text) : Location :=
  if step = ['.'] then a else if step = ['.', '.'] then a.dropLast else a ++ [step]

/-- Where steps lead that meet no link. -/
def onwards (a : Location) (steps : List Text) : Location := steps.foldl onward a

/-- The places that the steps start from, one for each of them. -/
def passed : Location → List Text → List Location
  | _, [] => []
  | a, step :: steps => a :: passed (onward a step) steps

/-- The steps never lead above the place that the location is counted from. -/
def staysBelow : Location → List Text → Bool
  | _, [] => true
  | a, step :: steps => (step != ['.', '.'] || !a.isEmpty) && staysBelow (onward a step) steps

theorem onwards_append (a : Location) (steps steps' : List Text) :
    onwards a (steps ++ steps') = onwards (onwards a steps) steps' :=
  List.foldl_append

/-- The places that are passed with more steps: those of the first steps, and then those of the
others from where the first have led. -/
theorem passed_append (a : Location) (steps steps' : List Text) :
    passed a (steps ++ steps') = passed a steps ++ passed (onwards a steps) steps' := by
  induction steps generalizing a with
  | nil => rfl
  | cons step steps ih =>
    rw [List.cons_append, passed, passed, ih, List.cons_append]
    rfl

/-- Two lists of steps stay below a start together if each does, the second from where the first has
led. -/
theorem staysBelow_append (a : Location) (steps steps' : List Text) :
    staysBelow a (steps ++ steps') =
      (staysBelow a steps && staysBelow (onwards a steps) steps') := by
  induction steps generalizing a with
  | nil => rfl
  | cons step steps ih =>
    rw [List.cons_append, staysBelow, staysBelow, ih, Bool.and_assoc]
    rfl

theorem onward_of_spelled (a : Location) {name : Text} (h : Spelled name) :
    onward a name = a ++ [name] := by
  rw [onward, if_neg h.2.2.1, if_neg h.2.2.2]

/-- Names lead down, one step each. -/
theorem onwards_names (a : Location) {names : List Text} (h : ∀ name ∈ names, Spelled name) :
    onwards a names = a ++ names := by
  induction names generalizing a with
  | nil => simp [onwards]
  | cons name names ih =>
    have hrest := ih (a ++ [name]) fun other hother => h other (List.mem_cons_of_mem _ hother)
    rw [onwards, List.foldl_cons, onward_of_spelled a (h name (List.mem_cons_self ..)), ← onwards,
      hrest, List.append_assoc, List.singleton_append]

/-- Names alone never climb, so they stay below every start. -/
theorem staysBelow_names (a : Location) {names : List Text} (h : ∀ name ∈ names, Spelled name) :
    staysBelow a names = true := by
  induction names generalizing a with
  | nil => rfl
  | cons name names ih =>
    have hname := (h name (List.mem_cons_self ..)).2.2.2
    rw [staysBelow, ih _ fun other hother => h other (List.mem_cons_of_mem _ hother)]
    simp [hname]

/-- On the way down along names one passes what lies above the end. -/
theorem mem_passed_names {a c : Location} {names : List Text} (h : ∀ name ∈ names, Spelled name)
    (hc : c ∈ passed a names) : ∃ above below, names = above ++ below ∧ below ≠ [] ∧
      c = a ++ above := by
  induction names generalizing a with
  | nil => exact absurd hc List.not_mem_nil
  | cons name names ih =>
    rw [passed, List.mem_cons] at hc
    rcases hc with rfl | hc
    · exact ⟨[], name :: names, rfl, by simp, by simp⟩
    · rw [onward_of_spelled a (h name (List.mem_cons_self ..))] at hc
      obtain ⟨above, below, rfl, hne, rfl⟩ :=
        ih (fun other hother => h other (List.mem_cons_of_mem _ hother)) hc
      exact ⟨name :: above, below, rfl, hne, by simp⟩

-- ---------------------------------------------------------------------------
-- Walks
-- ---------------------------------------------------------------------------

/-- No link is at a location. -/
def NoLink (d : Disk) (l : Location) : Prop := ∀ target, d.get? l ≠ some (.link target)

/-- A step that goes down: no dots, and not too long. -/
structure GoesDown (step : Text) : Prop where
  ne_dot : step ≠ ['.']
  ne_dots : step ≠ ['.', '.']
  fits : (Utf8.encode step).length ≤ nameLimit

/-- How a walk that ends somewhere gets there, with a number of links that may be followed. -/
inductive Walks (d : Disk) (followLast : Bool) : Nat → Location → List Text → Location → Prop
  | done {links : Nat} {at_ : Location} : Walks d followLast links at_ [] at_
  | stay {links : Nat} {at_ l : Location} {rest : List Text}
      (hdir : d.get? at_ = some .directory) (hrest : Walks d followLast links at_ rest l) :
      Walks d followLast links at_ (['.'] :: rest) l
  | up {links : Nat} {at_ l : Location} {rest : List Text}
      (hdir : d.get? at_ = some .directory) (hrest : Walks d followLast links at_.dropLast rest l) :
      Walks d followLast links at_ (['.', '.'] :: rest) l
  /-- The walk may end where nothing is, and at a link that is not followed. -/
  | halt {links : Nat} {at_ : Location} {step : Text}
      (hdir : d.get? at_ = some .directory) (hdown : GoesDown step)
      (hend : d.get? (at_ ++ [step]) = none ∨
        ∃ target, d.get? (at_ ++ [step]) = some (.link target) ∧ followLast = false) :
      Walks d followLast links at_ [step] (at_ ++ [step])
  | follow {links : Nat} {at_ l : Location} {step : Text} {rest : List Text} {target : Path}
      (hdir : d.get? at_ = some .directory) (hdown : GoesDown step)
      (hlink : d.get? (at_ ++ [step]) = some (.link target)) (hmust : rest ≠ [] ∨ followLast = true)
      (hrest : Walks d followLast links (if target.isAbsolute then [] else at_)
        (steps target ++ rest) l) :
      Walks d followLast (links + 1) at_ (step :: rest) l
  | down {links : Nat} {at_ l : Location} {step : Text} {rest : List Text} {e : Entry}
      (hdir : d.get? at_ = some .directory) (hdown : GoesDown step)
      (hentry : d.get? (at_ ++ [step]) = some e) (hlink : ∀ target, e ≠ .link target)
      (hrest : Walks d followLast links (at_ ++ [step]) rest l) :
      Walks d followLast links at_ (step :: rest) l

/-- A walk that takes a step starts at a directory. -/
theorem directory_of_walks {d : Disk} {followLast : Bool} {links : Nat} {a l : Location}
    {ps : List Text} (h : Walks d followLast links a ps l) (hne : ps ≠ []) :
    d.get? a = some .directory := by
  cases h with
  | done => exact absurd rfl hne
  | stay hdir _ => exact hdir
  | up hdir _ => exact hdir
  | halt hdir _ _ => exact hdir
  | follow hdir _ _ _ _ => exact hdir
  | down hdir _ _ _ _ => exact hdir

/-- Every walk of the disk that finds a place is a derivation, one rule for each step that was
taken. Later proofs go by induction over the derivation instead of over the fuel. -/
theorem walks_of_walk {d : Disk} {followLast : Bool} {links : Nat} {at_ l : Location}
    {ps : List Text} (h : d.walk followLast links at_ ps = .ok l) :
    Walks d followLast links at_ ps l := by
  fun_induction walk d followLast links at_ ps with
  | case1 links at_ =>
    obtain rfl := Except.ok.inj h
    exact .done
  | case2 => simp at h
  | case3 => simp at h
  | case4 => simp at h
  | case5 links at_ rest hdir ih => exact .stay hdir (ih h)
  | case6 links at_ rest hdir _ ih => exact .up hdir (ih h)
  | case7 => simp at h
  | case8 links at_ step rest hdir hdot hdots hfits hnone hrest =>
    obtain rfl := List.isEmpty_iff.mp hrest
    obtain rfl := Except.ok.inj h
    exact .halt hdir ⟨hdot, hdots, by omega⟩ (Or.inl hnone)
  | case9 => simp at h
  | case10 links at_ step rest hdir hdot hdots hfits target hlink hlast =>
    obtain ⟨hrest, hkeep⟩ := Bool.and_eq_true_iff.mp hlast
    obtain rfl := List.isEmpty_iff.mp hrest
    obtain rfl := Except.ok.inj h
    exact .halt hdir ⟨hdot, hdots, by omega⟩ (Or.inr ⟨target, hlink, by simpa using hkeep⟩)
  | case11 => simp at h
  | case12 at_ step rest hdir hdot hdots hfits target hlink hmust left ih =>
    refine .follow hdir ⟨hdot, hdots, by omega⟩ hlink ?_ (ih h)
    rw [Bool.and_eq_true, not_and_or, List.isEmpty_iff] at hmust
    simpa using hmust
  | case13 links at_ step rest hdir hdot hdots hfits e hnot hentry ih =>
    exact .down hdir ⟨hdot, hdots, by omega⟩ hentry hnot (ih h)

/-- What the walk does at a step that goes down, in full: it ends at a missing last step, follows a
link if it may, and goes on otherwise. -/
theorem walk_goesDown {d : Disk} {followLast : Bool} {links : Nat} {at_ : Location} {step : Text}
    (hdir : d.get? at_ = some .directory) (h : GoesDown step) (rest : List Text) :
    d.walk followLast links at_ (step :: rest) =
      match d.get? (at_ ++ [step]) with
      | none => if rest.isEmpty then .ok (at_ ++ [step]) else .error .notFound
      | some (.link target) =>
        if rest.isEmpty && !followLast then .ok (at_ ++ [step])
        else match links with
          | 0 => .error .tooManyLinks
          | left + 1 =>
            d.walk followLast left (if target.isAbsolute then [] else at_) (steps target ++ rest)
      | some _ => d.walk followLast links (at_ ++ [step]) rest := by
  have hfits := h.fits
  rw [walk, hdir]
  dsimp only
  exact (if_neg h.ne_dot).trans ((if_neg h.ne_dots).trans (if_neg (by omega)))

/-- A step to something that is no link. -/
theorem walk_entry {d : Disk} {followLast : Bool} {links : Nat} {at_ : Location} {step : Text}
    {e : Entry} (hdir : d.get? at_ = some .directory) (hdown : GoesDown step)
    (hentry : d.get? (at_ ++ [step]) = some e) (hnot : ∀ target, e ≠ .link target)
    (rest : List Text) :
    d.walk followLast links at_ (step :: rest) = d.walk followLast links (at_ ++ [step]) rest := by
  rw [walk_goesDown hdir hdown, hentry]
  cases e with
  | file bytes executable => rfl
  | directory => rfl
  | link target => exact absurd rfl (hnot target)

/-- A step to a link that is followed. -/
theorem walk_link {d : Disk} {followLast : Bool} {links : Nat} {at_ : Location} {step : Text}
    {target : Path} {rest : List Text} (hdir : d.get? at_ = some .directory)
    (hdown : GoesDown step) (hlink : d.get? (at_ ++ [step]) = some (.link target))
    (hmust : rest ≠ [] ∨ followLast = true) :
    d.walk followLast (links + 1) at_ (step :: rest) =
      d.walk followLast links (if target.isAbsolute then [] else at_) (steps target ++ rest) := by
  have hgo : ¬ (rest.isEmpty && !followLast) = true := by
    rw [Bool.and_eq_true, not_and_or, List.isEmpty_iff]
    simpa using hmust
  rw [walk_goesDown hdir hdown, hlink]
  exact if_neg hgo

theorem onward_of_goesDown (a : Location) {step : Text} (h : GoesDown step) :
    onward a step = a ++ [step] := by
  rw [onward, if_neg h.ne_dot, if_neg h.ne_dots]

/-- **A walk without links ends where its steps say.** The steps are counted from `W ++ a`, and do
not lead above `W`. What the walk passed are directories. -/
theorem Walks.eq_onwards {d : Disk} {followLast : Bool} {links : Nat} {W a l : Location}
    {ps : List Text} (h : Walks d followLast links (W ++ a) ps l)
    (hstays : staysBelow a ps = true) (hpassed : ∀ c ∈ passed a ps, d.NoLink (W ++ c))
    (hlast : followLast = true → d.NoLink (W ++ onwards a ps)) :
    l = W ++ onwards a ps ∧ ∀ c ∈ passed a ps, d.get? (W ++ c) = some .directory := by
  generalize hat : W ++ a = at_ at h
  induction h generalizing a with
  | done => exact ⟨hat.symm, fun c hc => absurd hc List.not_mem_nil⟩
  | stay hdir _ ih =>
    subst hat
    rw [staysBelow, Bool.and_eq_true] at hstays
    obtain ⟨hend, hdirs⟩ := ih hstays.2 (fun c hc => hpassed c (List.mem_cons_of_mem _ hc)) hlast
      rfl
    exact ⟨hend, List.forall_mem_cons.mpr ⟨hdir, hdirs⟩⟩
  | up hdir _ ih =>
    subst hat
    rw [staysBelow, Bool.and_eq_true] at hstays
    -- the steps do not lead above `W`, so there is a name to take away
    have hne : a ≠ [] := by
      rintro rfl
      simp at hstays
    obtain ⟨hend, hdirs⟩ := ih hstays.2 (fun c hc => hpassed c (List.mem_cons_of_mem _ hc)) hlast
      (List.dropLast_append_of_ne_nil hne).symm
    exact ⟨hend, List.forall_mem_cons.mpr ⟨hdir, hdirs⟩⟩
  | halt hdir hdown _ =>
    subst hat
    refine ⟨?_, List.forall_mem_cons.mpr ⟨hdir, fun c hc => absurd hc List.not_mem_nil⟩⟩
    rw [onwards, List.foldl_cons, onward_of_goesDown a hdown, List.append_assoc]
    rfl
  | @follow links at_ l step rest target hdir hdown hlink hmust _ _ =>
    -- the place of the link is passed, or the walk ends there
    subst hat
    exfalso
    rw [List.append_assoc, ← onward_of_goesDown a hdown] at hlink
    cases rest with
    | nil => exact hlast (by simpa using hmust) target hlink
    | cons next rest =>
      exact hpassed _ (List.mem_cons_of_mem _ (List.mem_cons_self ..)) target hlink
  | down hdir hdown _ _ _ ih =>
    subst hat
    rw [staysBelow, Bool.and_eq_true] at hstays
    obtain ⟨hend, hdirs⟩ := ih hstays.2 (fun c hc => hpassed c (List.mem_cons_of_mem _ hc)) hlast
      (by rw [onward_of_goesDown a hdown, List.append_assoc])
    exact ⟨hend, List.forall_mem_cons.mpr ⟨hdir, hdirs⟩⟩

/-- One step from outside stays outside, unless it leads to the place itself. -/
theorem not_under_step {W at_ : Location} {step : Text} (h : ¬ W <+: at_)
    (hne : W ≠ at_ ++ [step]) : ¬ W <+: at_ ++ [step] := by
  rw [List.prefix_concat_iff, not_or]
  exact ⟨hne, h⟩

/-- **The way to a place where nothing is** leads to the directory around it, and goes there on
every disk that agrees with this one outside the place. -/
theorem Walks.to_missing {d : Disk} {links : Nat} {at_ W : Location} {ps : List Text}
    (h : Walks d false links at_ ps W) (hnew : d.get? W = none) (hat : ¬ W <+: at_) :
    ∃ left parent name, W = parent ++ [name] ∧ ps.getLast? = some name ∧ GoesDown name ∧
      d.get? parent = some .directory ∧ ∀ d', SameOutside W d d' → ∀ followLast rest,
        d'.walk followLast links at_ (ps ++ rest) =
          d'.walk followLast left parent (name :: rest) := by
  induction h with
  | done => exact absurd (List.prefix_refl _) hat
  | stay hdir _ ih =>
    obtain ⟨left, parent, name, hW, hlast, hdown, hparent, hway⟩ := ih hnew hat
    refine ⟨left, parent, name, hW, by simp [List.getLast?_cons, hlast], hdown, hparent, ?_⟩
    intro d' hsame followLast rest
    rw [List.cons_append, walk, hsame _ hat, hdir]
    exact hway d' hsame followLast rest
  | up hdir _ ih =>
    obtain ⟨left, parent, name, hW, hlast, hdown, hparent, hway⟩ :=
      ih hnew fun hunder => hat (hunder.trans (List.dropLast_prefix _))
    refine ⟨left, parent, name, hW, by simp [List.getLast?_cons, hlast], hdown, hparent, ?_⟩
    intro d' hsame followLast rest
    rw [List.cons_append, walk, hsame _ hat, hdir]
    exact hway d' hsame followLast rest
  | @halt links at_ step hdir hdown _ =>
    exact ⟨links, at_, step, rfl, rfl, hdown, hdir, fun d' hsame followLast rest => rfl⟩
  | @follow links at_ l step after target hdir hdown hlink hmust _ ih =>
    have hne : after ≠ [] := by simpa using hmust
    -- the target of a link starts at the root or where the link is, both outside the place
    have hstart : ¬ l <+: if target.isAbsolute then [] else at_ := by
      split
      · rw [List.prefix_nil]
        rintro rfl
        simp [get?] at hnew
      · exact hat
    obtain ⟨left, parent, name, hW, hlast, hname, hparent, hway⟩ := ih hnew hstart
    rw [List.getLast?_append_of_ne_nil _ hne] at hlast
    refine ⟨left, parent, name, hW, by simp [List.getLast?_cons, hlast], hname, hparent, ?_⟩
    intro d' hsame followLast rest
    -- the link itself is outside too, since nothing is at the place
    have hout : ¬ l <+: at_ ++ [step] := by
      refine not_under_step hat fun heq => ?_
      rw [← heq, hnew] at hlink
      exact absurd hlink (by simp)
    rw [List.cons_append, walk_link ((hsame _ hat).trans hdir) hdown ((hsame _ hout).trans hlink)
      (Or.inl (List.append_ne_nil_of_left_ne_nil hne rest)), ← List.append_assoc]
    exact hway d' hsame followLast rest
  | @down links at_ l step after e hdir hdown hentry hlink _ ih =>
    have hout : ¬ l <+: at_ ++ [step] := by
      refine not_under_step hat fun heq => ?_
      rw [← heq, hnew] at hentry
      exact absurd hentry (by simp)
    obtain ⟨left, parent, name, hW, hlast, hname, hparent, hway⟩ := ih hnew hout
    refine ⟨left, parent, name, hW, by simp [List.getLast?_cons, hlast], hname, hparent, ?_⟩
    intro d' hsame followLast rest
    rw [← hway d' hsame followLast rest, List.cons_append,
      walk_entry ((hsame _ hat).trans hdir) hdown ((hsame _ hout).trans hentry) hlink]

/-- The last step to a directory. -/
theorem walk_into {d : Disk} {followLast : Bool} {links : Nat} {parent : Location} {name : Text}
    (hparent : d.get? parent = some .directory) (hname : GoesDown name)
    (h : d.get? (parent ++ [name]) = some .directory) (rest : List Text) :
    d.walk followLast links parent (name :: rest) =
      d.walk followLast links (parent ++ [name]) rest := by
  exact walk_entry hparent hname h (by simp) rest

/-- The last step of a walk that does not follow a link there. -/
theorem walk_onto {d : Disk} {links : Nat} {parent : Location} {name : Text}
    (hparent : d.get? parent = some .directory) (hname : GoesDown name) :
    d.walk false links parent [name] = .ok (parent ++ [name]) := by
  rw [walk_goesDown hparent hname]
  split
  · rfl
  · rfl
  · rw [walk]

-- ---------------------------------------------------------------------------
-- Lawful disks
-- ---------------------------------------------------------------------------

/-- What is on a disk lies in a directory and has a name that a path can spell. -/
structure Lawful (d : Disk) : Prop where
  held : ∀ l name, (d.get? (l ++ [name])).isSome → d.get? l = some .directory
  spelled : ∀ l name, (d.get? (l ++ [name])).isSome → Spelled name

theorem mem_entries {d : Disk} {l : Location} {e : Entry} (hne : l ≠ []) (h : d.get? l = some e) :
    (l, e) ∈ d.entries := by
  rw [get?_of_ne_nil d hne] at h
  obtain ⟨before, after, hentries, -⟩ := List.lookup_eq_some_iff.mp h
  simp [hentries]

/-- Whether a disk is lawful can be seen from its entries. -/
theorem lawful_of_entries {d : Disk} (h : ∀ x ∈ d.entries, x.1 ≠ [] →
    d.get? x.1.dropLast = some .directory ∧ Spelled (x.1.getLast?.getD [])) : d.Lawful := by
  have hfound : ∀ l name, (d.get? (l ++ [name])).isSome →
      d.get? l = some .directory ∧ Spelled name := by
    intro l name hsome
    obtain ⟨e, he⟩ := Option.isSome_iff_exists.mp hsome
    simpa using h _ (mem_entries (by simp) he) (by simp)
  exact ⟨fun l name hsome => (hfound l name hsome).1, fun l name hsome => (hfound l name hsome).2⟩

/-- Whether there are links on a disk can be seen from its entries. -/
theorem noLink_of_entries {d : Disk} (h : d.entries.all (kind ·.2 != .link) = true) (l : Location) :
    d.NoLink l := by
  intro target hlink
  by_cases hnil : l = []
  · rw [hnil] at hlink
    exact absurd hlink (by simp [get?])
  · have hentry := List.all_eq_true.mp h _ (mem_entries hnil hlink)
    exact absurd hentry (by simp [kind])

namespace Lawful

variable {d : Disk}

/-- Everything above something is a directory. -/
theorem directory_above (hd : d.Lawful) {above below : Location} (hne : below ≠ [])
    (h : (d.get? (above ++ below)).isSome) : d.get? above = some .directory := by
  induction below using List.reverseRecOn with
  | nil => exact absurd rfl hne
  | append_singleton below name ih =>
    rw [← List.append_assoc] at h
    have hheld := hd.held _ _ h
    by_cases hnil : below = []
    · rw [hnil, List.append_nil] at hheld
      exact hheld
    · exact ih hnil (by simp [hheld])

/-- On a lawful disk every name below a place can be spelled in a path. -/
theorem spelled_below (hd : d.Lawful) {above below : Location}
    (h : (d.get? (above ++ below)).isSome) : ∀ name ∈ below, Spelled name := by
  induction below using List.reverseRecOn with
  | nil => exact fun name hname => absurd hname List.not_mem_nil
  | append_singleton below last ih =>
    rw [← List.append_assoc] at h
    have hheld := hd.held _ _ h
    intro name hname
    rcases List.mem_append.mp hname with hbelow | hlast
    · exact ih (by simp [hheld]) name hbelow
    · rw [List.mem_singleton.mp hlast]
      exact hd.spelled _ _ h

/-- Nothing is below a place where nothing is. -/
theorem none_below (hd : d.Lawful) {l l' : Location} (h : d.get? l = none) (hl : l <+: l') :
    d.get? l' = none := by
  obtain ⟨below, rfl⟩ := hl
  by_cases hne : below = []
  · rw [hne, List.append_nil]
    exact h
  · by_contra hsome
    have hdir := hd.directory_above hne (Option.isSome_iff_ne_none.mpr hsome)
    rw [h] at hdir
    exact absurd hdir (by simp)

/-- Putting something where no directory is keeps a disk lawful: nothing lies below. The place needs
a directory around it and a name that can be spelled. -/
theorem insert_over (hd : d.Lawful) {parent : Location} {name : Text}
    (hparent : d.get? parent = some .directory) (hname : Spelled name)
    (hover : d.get? (parent ++ [name]) ≠ some .directory) (e : Entry) :
    (d.insert (parent ++ [name]) e).Lawful := by
  have hdirs : ∀ l, d.get? l = some .directory →
      (d.insert (parent ++ [name]) e).get? l = some .directory := by
    intro l hl
    rw [get?_insert_of_ne, hl]
    rintro rfl
    exact hover hl
  have hfound : ∀ l other, ((d.insert (parent ++ [name]) e).get? (l ++ [other])).isSome →
      (l = parent ∧ other = name) ∨ (d.get? (l ++ [other])).isSome := by
    intro l other hsome
    by_cases heq : l ++ [other] = parent ++ [name]
    · exact Or.inl (by simpa using heq)
    · rw [get?_insert_of_ne _ heq] at hsome
      exact Or.inr hsome
  refine ⟨fun l other hsome => ?_, fun l other hsome => ?_⟩
  · rcases hfound l other hsome with ⟨rfl, -⟩ | hold
    · exact hdirs _ hparent
    · exact hdirs _ (hd.held _ _ hold)
  · rcases hfound l other hsome with ⟨-, rfl⟩ | hold
    · exact hname
    · exact hd.spelled _ _ hold

end Lawful

-- ---------------------------------------------------------------------------
-- Operations
-- ---------------------------------------------------------------------------

/-- An absolute path is walked from the root. -/
theorem locate_of_isAbsolute {d : Disk} {followLast : Bool} {base l : Location} {p : Path}
    (hp : p.isAbsolute = true) (h : d.locate followLast base p = .ok l) :
    d.walk followLast linkLimit [] (steps p) = .ok l := by
  rw [locate, if_pos hp] at h
  split at h
  · simp at h
  · split at h
    · simp at h
    · exact h

/-- A path that is not empty and has no zero byte is walked, from the root or from the base. -/
theorem locate_of_text {d : Disk} {followLast : Bool} {base : Location} {p : Path}
    (hne : p.text ≠ []) (h : '\x00' ∉ p.text) :
    d.locate followLast base p =
      d.walk followLast linkLimit (if p.isAbsolute then [] else base) (steps p) := by
  rw [locate, if_neg (by simpa using hne), if_neg (by simpa using h)]

/-- A path that leads somewhere is not empty and has no zero byte. -/
theorem text_of_locate {d : Disk} {followLast : Bool} {base l : Location} {p : Path}
    (h : d.locate followLast base p = .ok l) : p.text ≠ [] ∧ '\x00' ∉ p.text := by
  rw [locate] at h
  split at h
  · simp at h
  · next hne =>
    split at h
    · simp at h
    · next hclean => exact ⟨by simpa using hne, by simpa using hclean⟩

/-- An absolute path without a zero byte is walked from the root, whatever the base is. -/
theorem locate_of_clean {d : Disk} {followLast : Bool} {base : Location} {p : Path}
    (hp : p.isAbsolute = true) (h : '\x00' ∉ p.text) :
    d.locate followLast base p = d.walk followLast linkLimit [] (steps p) := by
  obtain ⟨body, hbody⟩ := Path.isAbsolute_iff.mp hp
  rw [locate_of_text (by simp [hbody]) h, if_pos hp]

/-- An absolute path leads to a place exactly if it has no zero byte and its walk ends there. -/
theorem locate_eq_ok_iff {d : Disk} {followLast : Bool} {base l : Location} {p : Path}
    (hp : p.isAbsolute = true) : d.locate followLast base p = .ok l ↔
      '\x00' ∉ p.text ∧ d.walk followLast linkLimit [] (steps p) = .ok l := by
  constructor
  · intro h
    have hclean := (text_of_locate h).2
    exact ⟨hclean, locate_of_clean hp hclean ▸ h⟩
  · rintro ⟨hclean, hwalk⟩
    rw [locate_of_clean hp hclean, hwalk]

theorem locate_base {d : Disk} {followLast : Bool} {base base' : Location} {p : Path}
    (hp : p.isAbsolute = true) : d.locate followLast base p = d.locate followLast base' p := by
  rw [locate, locate, if_pos hp, if_pos hp]

/-- A path whose trailing slashes were taken off is walked over its parts. -/
theorem locate_splitSlash {d : Disk} {followLast : Bool} {base l : Location} {p : Path}
    (hp : p.isAbsolute = true) (h : d.locate followLast base (splitSlash p).1 = .ok l) :
    d.walk followLast linkLimit [] p.parts = .ok l := by
  rw [← Path.steps_splitSlash]
  exact locate_of_isAbsolute (Path.isAbsolute_splitSlash hp) h

/-- What was found at the end of a path is what the disk has at the place. -/
theorem find_eq_ok {d : Disk} {followLast : Bool} {base l : Location} {p : Path} {e : Entry}
    (h : d.find followLast base p = .ok (l, e)) :
    d.locate followLast base p = .ok l ∧ d.get? l = some e := by
  unfold find at h
  split at h
  · simp at h
  · next l' hl' =>
    split at h
    · simp at h
    · next e' he' =>
      obtain ⟨rfl, rfl⟩ := Prod.mk.inj (Except.ok.inj h)
      exact ⟨hl', he'⟩

/-- An entry can be put at a location, to which a path leads up to the `/` at its end. Nothing
takes the place of a directory, a link takes no place at all, and only for a directory the path may
end with a `/`. -/
structure Puts (d : Disk) (followLast : Bool) (base : Location) (p : Path) (l : Location)
    (e : Entry) : Prop where
  found : d.locate followLast base (splitSlash p).1 = .ok l
  not_directory : d.get? l ≠ some .directory
  new_link : ∀ target, e = .link target → d.get? l = none
  no_slash : e ≠ .directory → (splitSlash p).2 = false

section

variable {d d' : Disk} {base : Location} {p : Path}

/-- Making a directory puts it at a place where nothing was. -/
theorem makeDirectory_eq_ok (h : d.makeDirectory base p = .ok d') :
    ∃ l, d.get? l = none ∧ Puts d false base p l .directory ∧ d' = d.insert l .directory := by
  rw [makeDirectory] at h
  split at h
  · simp at h
  · next l hl =>
    split at h
    · simp at h
    · next hnone =>
      rw [Bool.not_eq_true, Option.isSome_eq_false_iff, Option.isNone_iff_eq_none] at hnone
      refine ⟨l, hnone, ⟨hl, by simp [hnone], by simp, by simp⟩, (Except.ok.inj h).symm⟩

/-- Making a link puts it at the place of its path, and the last part is not followed. A slash at
the end of the path makes it fail, so the path is walked over its parts. -/
theorem makeLink_eq_ok {target : Path} (h : d.makeLink base target p = .ok d') :
    ∃ l, Puts d false base p l (.link target) ∧ d' = d.insert l (.link target) := by
  rw [makeLink] at h
  dsimp only at h
  split at h
  · simp at h
  · next l hl =>
    split at h
    · simp at h
    · split at h
      · simp at h
      · split at h
        · simp at h
        · next hnone =>
          rw [Bool.not_eq_true, Option.isSome_eq_false_iff, Option.isNone_iff_eq_none] at hnone
          split at h
          · simp at h
          · next hslash =>
            exact ⟨l, ⟨hl, by simp [hnone], fun _ _ => hnone, fun _ => by simpa using hslash⟩,
              (Except.ok.inj h).symm⟩

/-- Copying a link makes a link, whatever it points to. -/
theorem copyLink_eq_ok {source : Path} (h : d.copyLink base source p = .ok d') :
    ∃ l target, Puts d false base p l (.link target) ∧ d' = d.insert l (.link target) := by
  rw [copyLink] at h
  split at h
  · simp at h
  · next target _ =>
    obtain ⟨l, hputs, heq⟩ := makeLink_eq_ok h
    exact ⟨l, target, hputs, heq⟩

/-- A file that was opened for writing can be put at its place. Links were followed on the way, the
last part included, and there is a file or nothing at the place. -/
theorem puts_of_openForWriting {l : Location} {executable : Bool}
    (h : d.openForWriting base p = .ok (l, executable)) (bytes : Bytes) (mode : Bool) :
    Puts d true base p l (.file bytes mode) := by
  rw [openForWriting] at h
  dsimp only at h
  split at h
  · simp at h
  · next l' hl' =>
    split at h
    · simp at h
    · simp at h
    · next hfile =>
      split at h
      · simp at h
      · next hslash =>
        obtain ⟨rfl, -⟩ := Prod.mk.inj (Except.ok.inj h)
        exact ⟨hl', by simp [hfile], by simp, fun _ => by simpa using hslash⟩
    · next hnone =>
      split at h
      · simp at h
      · next hslash =>
        obtain ⟨rfl, -⟩ := Prod.mk.inj (Except.ok.inj h)
        exact ⟨hl', by simp [hnone], by simp, fun _ => by simpa using hslash⟩

/-- Writing a file puts it at the place its path leads to. -/
theorem writeFile_eq_ok {bytes : Bytes} (h : d.writeFile base p bytes = .ok d') :
    ∃ l mode, Puts d true base p l (.file bytes mode) ∧ d' = d.insert l (.file bytes mode) := by
  rw [writeFile] at h
  split at h
  · simp at h
  · next l mode hopen =>
    exact ⟨l, mode, puts_of_openForWriting hopen _ _, (Except.ok.inj h).symm⟩

/-- Copying a file writes a file, with the bytes and the mode that were read. -/
theorem copyFile_eq_ok {source : Path} (h : d.copyFile base source p = .ok d') :
    ∃ l bytes mode, Puts d true base p l (.file bytes mode) ∧
      d' = d.insert l (.file bytes mode) := by
  rw [copyFile] at h
  split at h
  · simp at h
  · next mode _ =>
    split at h
    · simp at h
    · next l _ hopen =>
      dsimp only at h
      split at h
      · next bytes _ _ =>
        exact ⟨l, bytes, mode, puts_of_openForWriting hopen _ _, (Except.ok.inj h).symm⟩
      · exact ⟨l, [], mode, puts_of_openForWriting hopen _ _, (Except.ok.inj h).symm⟩
  · simp at h

/-- Removing a tree prunes the disk at the place of its path, without following a link at the end.
-/
theorem removeTree_eq_ok (h : d.removeTree base p = .ok d') :
    ∃ l, d.locate false base p = .ok l ∧ d' = d.prune l := by
  rw [removeTree, find] at h
  cases hl : d.locate false base p with
  | error e => simp [hl] at h
  | ok l =>
    refine ⟨l, rfl, ?_⟩
    cases hentry : d.get? l with
    | none => simp [hl, hentry] at h
    | some e => simpa [hl, hentry] using h.symm

end

-- ---------------------------------------------------------------------------
-- Trees
-- ---------------------------------------------------------------------------

/-- What a tree lists below its top is there, as the kind that it is listed as. By induction on the
depth; the names of an item are the way from the place where the listing starts. -/
theorem mem_itemsBelow {d : Disk} {l : Location} {top : List Text} {depth : Nat} {item : Item}
    (h : item ∈ d.itemsBelow l top depth) :
    ∃ below e, item.names = top ++ below ∧ d.get? (l ++ below) = some e ∧ item.kind = kind e := by
  induction depth generalizing l top with
  | zero => exact absurd h List.not_mem_nil
  | succ depth ih =>
    rw [itemsBelow, List.mem_flatMap] at h
    obtain ⟨name, -, h⟩ := h
    split at h
    · exact absurd h List.not_mem_nil
    · next e he =>
      dsimp only at h
      split at h
      · rcases List.mem_cons.mp h with rfl | h
        · exact ⟨[name], .directory, rfl, he, rfl⟩
        · obtain ⟨below, e', hnames, hentry, hkind⟩ := ih h
          exact ⟨name :: below, e', by simpa using hnames, by simpa using hentry, hkind⟩
      · rw [List.mem_singleton] at h
        subst h
        exact ⟨[name], e, rfl, he, rfl⟩

/-- The items of a walk below the top are entries of the disk below one place. The place is where
the path leads, also where it leads over links; if it leads nowhere, there are no such items. -/
theorem exists_top (d : Disk) (base : Location) (p : Path) :
    ∃ top, ∀ item ∈ d.tree base p, item.names ≠ [] →
      ∃ e, d.get? (top ++ item.names) = some e ∧ item.kind = kind e := by
  -- of a walk with a top of any kind, the items below that top are entries
  have hbelow : ∀ l depth kind', ∀ item ∈ ⟨[], kind'⟩ :: d.itemsBelow l [] depth,
      item.names ≠ [] → ∃ e, d.get? (l ++ item.names) = some e ∧ item.kind = kind e := by
    intro l depth kind' item hitem hne
    rcases List.mem_cons.mp hitem with rfl | hitem
    · exact absurd rfl hne
    · obtain ⟨below, e, hnames, hentry, hkind⟩ := mem_itemsBelow hitem
      exact ⟨e, by rw [hnames]; exact hentry, hkind⟩
  have hsingle : ∀ kind', ∀ item ∈ ([⟨[], kind'⟩] : List Item), item.names ≠ [] →
      ∃ e, d.get? ([] ++ item.names) = some e ∧ item.kind = kind e := by
    intro kind' item hitem hne
    rw [List.mem_singleton.mp hitem] at hne
    exact absurd rfl hne
  rw [tree]
  split
  · exact ⟨[], fun item hitem => absurd hitem List.not_mem_nil⟩
  · next l _ => exact ⟨l, hbelow l _ _⟩
  · exact ⟨[], hsingle _⟩
  · split
    · next l _ => exact ⟨l, hbelow l _ _⟩
    · exact ⟨[], hsingle _⟩

end Disk

end Sandscript
