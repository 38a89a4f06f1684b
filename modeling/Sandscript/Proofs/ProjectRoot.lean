import Mathlib
import Sandscript.Proofs.WorkspaceFrame
import Sandscript.Toolchain

/-!
# The root of a project

The project of a source is looked for by leaving out the last part of its path, again and again. A
path that climbs with `..` leaves directories on the way that the source does not lie in, and one of
them may be taken for the root. On a disk without links this is all that can go wrong.

* `map_place_ancestors` — the places that are tried: one for each part that is left out.
* `find?_places_eq_iff` — the first project among them is the nearest one above the end of the path,
  exactly if it lies above the end at all.
* `isRoot_iff` — looking from a path finds what is at its place.
* `root_nearest_iff` — hence when the root of a compiled source is the nearest project.
-/

namespace Sandscript

open Disk (onward onwards NoLink Walks GoesDown)
open Sandscript.Path (Spelled)

-- ---------------------------------------------------------------------------
-- Upwards
-- ---------------------------------------------------------------------------

namespace Location

/-- A location and those above it, nearest first. -/
def upwards (l : Location) : List Location := l.inits.reverse

theorem upwards_nil : upwards [] = [[]] := rfl

/-- One level deeper there is one more place to look at, and it comes first. -/
theorem upwards_concat (l : Location) (name : Text) :
    upwards (l ++ [name]) = (l ++ [name]) :: upwards l := by
  simp [upwards, List.inits_append]

theorem mem_upwards {l l' : Location} : l' ∈ upwards l ↔ l' <+: l := by
  rw [upwards, List.mem_reverse, List.mem_inits]

variable {p : Location → Bool}

/-- What is found upwards: a place above, with nothing between. By induction on the start, from its
end, as the places are tried from there. -/
theorem find?_upwards {l x : Location} (hx : p x = true) (habove : x <+: l)
    (hbetween : ∀ r, x <+: r → r <+: l → r ≠ x → p r = false) : (upwards l).find? p = some x := by
  induction l using List.reverseRecOn with
  | nil =>
    obtain rfl := List.prefix_nil.mp habove
    rw [upwards_nil, List.find?_cons_of_pos hx]
  | append_singleton l name ih =>
    rw [upwards_concat]
    by_cases heq : x = l ++ [name]
    · subst heq
      rw [List.find?_cons_of_pos hx]
    · have hl : x <+: l := (List.prefix_concat_iff.mp habove).resolve_left heq
      have hnot := hbetween (l ++ [name]) habove (List.prefix_refl _) (Ne.symm heq)
      rw [List.find?_cons_of_neg (by simp [hnot])]
      exact ih hl fun r hr hrl => hbetween r hr (hrl.trans (List.prefix_append ..))

/-- Whatever is found upwards lies above, and so does the start that is taken if nothing is found.
-/
theorem getD_find?_upwards_prefix (l : Location) : ((upwards l).find? p).getD l <+: l := by
  rcases h : (upwards l).find? p with _ | x
  · exact List.prefix_refl l
  · exact mem_upwards.mp (List.mem_of_find?_eq_some h)

-- ---------------------------------------------------------------------------
-- Leaving out steps
-- ---------------------------------------------------------------------------

/-- The places that steps pass, last first. -/
def places (steps : List Text) : List Location := (upwards steps).map (onwards [])

/-- One step more adds the place it leads to, in front of the places before. -/
theorem places_concat (steps : List Text) (step : Text) :
    places (steps ++ [step]) = onward (onwards [] steps) step :: places steps := by
  rw [places, upwards_concat, List.map_cons, Disk.onwards_append]
  rfl

/-- A step leads to a place whose neighbours upwards are met before, or were there already. -/
theorem prefix_of_onward {r a : Location} {step : Text} (h : r <+: onward a step) :
    r = onward a step ∨ r <+: a := by
  rw [onward] at h ⊢
  split
  · next hdot =>
    rw [if_pos hdot] at h
    exact Or.inr h
  · next hdot =>
    rw [if_neg hdot] at h
    split
    · next hdots =>
      rw [if_pos hdots] at h
      exact Or.inr (h.trans (List.dropLast_prefix a))
    · next hdots =>
      rw [if_neg hdots] at h
      exact List.prefix_concat_iff.mp h

/-- Whatever lies above the end of the steps is passed. -/
theorem mem_places {steps : List Text} {r : Location} (h : r <+: onwards [] steps) :
    r ∈ places steps := by
  induction steps using List.reverseRecOn with
  | nil =>
    obtain rfl := List.prefix_nil.mp h
    exact List.mem_singleton.mpr rfl
  | append_singleton steps step ih =>
    rw [Disk.onwards_append] at h
    rw [places_concat, List.mem_cons]
    rcases prefix_of_onward h with rfl | h
    · exact Or.inl rfl
    · exact Or.inr (ih h)

/-- Between the first place that is found and the end of the steps there is nothing to be found, in
case the end lies below. A place between them was passed on the way and tried before. -/
theorem nothing_between {steps : List Text} {x : Location} (h : (places steps).find? p = some x) :
    ∀ r, x <+: r → r <+: onwards [] steps → r ≠ x → p r = false := by
  induction steps using List.reverseRecOn with
  | nil =>
    intro r hxr hr hne
    obtain rfl := List.prefix_nil.mp hr
    exact absurd (List.prefix_nil.mp hxr).symm hne
  | append_singleton steps step ih =>
    intro r hxr hr hne
    rw [Disk.onwards_append] at hr
    change r <+: onward (onwards [] steps) step at hr
    rw [places_concat] at h
    by_cases hhere : p (onward (onwards [] steps) step) = true
    · rw [List.find?_cons_of_pos hhere] at h
      obtain rfl := Option.some.inj h
      exact absurd (hr.eq_of_length (le_antisymm hr.length_le hxr.length_le)) hne
    · rw [List.find?_cons_of_neg hhere] at h
      rcases prefix_of_onward hr with rfl | hr
      · simpa using hhere
      · exact ih h r hxr hr hne

/-- **The first place that is found is the nearest one above the end of the steps, exactly if it
lies above the end.** -/
theorem find?_places_eq_iff (p : Location → Bool) (steps : List Text) :
    ((places steps).find? p).getD (onwards [] steps) =
        ((upwards (onwards [] steps)).find? p).getD (onwards [] steps) ↔
      ∀ x, (places steps).find? p = some x → x <+: onwards [] steps := by
  constructor
  · intro heq x hx
    rw [hx] at heq
    have habove := getD_find?_upwards_prefix (p := p) (onwards [] steps)
    rw [← heq] at habove
    exact habove
  · intro habove
    rcases hfound : (places steps).find? p with _ | x
    · have hnone : (upwards (onwards [] steps)).find? p = none := by
        rw [List.find?_eq_none]
        intro r hr
        exact List.find?_eq_none.mp hfound r (mem_places (mem_upwards.mp hr))
      rw [hnone]
    · rw [find?_upwards (List.find?_some hfound) (habove x hfound) (nothing_between hfound)]

/-- Steps that do not climb pass only what lies above their end. So for a path without `..` the
textual ancestors are the directories above the file. -/
theorem prefix_of_mem_places {steps : List Text} (h : ['.', '.'] ∉ steps) {x : Location}
    (hx : x ∈ places steps) : x <+: onwards [] steps := by
  induction steps using List.reverseRecOn with
  | nil => rw [List.mem_singleton.mp hx]
  | append_singleton steps step ih =>
    rw [List.mem_append, not_or, List.mem_singleton] at h
    rw [places_concat, List.mem_cons] at hx
    rw [Disk.onwards_append]
    change x <+: onward (onwards [] steps) step
    rcases hx with rfl | hx
    · exact List.prefix_refl _
    · refine (ih h.1 hx).trans ?_
      rw [onward, if_neg (Ne.symm h.2)]
      split
      · exact List.prefix_refl _
      · exact List.prefix_append ..

end Location

open Location (upwards places)

-- ---------------------------------------------------------------------------
-- The parents of a path
-- ---------------------------------------------------------------------------

namespace Path

/-- The location that an absolute path names, as it is written: a `..` takes away the name before
it. -/
def place (p : Path) : Location := onwards [] p.names

/-- Dots lead nowhere. -/
theorem onwards_filter (a : Location) (ps : List Text) :
    onwards a (ps.filter (· != ['.'])) = onwards a ps := by
  induction ps generalizing a with
  | nil => rfl
  | cons part ps ih =>
    by_cases hdot : part = ['.']
    · subst hdot
      exact ih a
    · rw [List.filter_cons_of_pos (by simpa using hdot)]
      exact ih (onward a part)

theorem place_eq (p : Path) : p.place = onwards [] p.parts := by
  rw [place, names_eq, onwards_filter]

/-- A path has no more names than characters. -/
theorem length_names_le {p : Path} (hp : p.isAbsolute = true) : p.names.length ≤ p.text.length := by
  obtain ⟨body, hbody, hanchored⟩ := exists_anchored hp
  calc p.names.length ≤ (Text.split '/' body).length := by
        rw [names, hanchored]
        exact List.length_filter_le ..
    _ = body.count '/' + 1 := Text.length_split body
    _ ≤ p.text.length := by
        rw [hbody, List.length_cons]
        exact Nat.succ_le_succ List.count_le_length

/-- The ancestors of a path, as places, are the places that its steps pass. The list of ancestors is
textual: a step that climbs is taken off like any other. -/
theorem map_place_parents {p : Path} (hp : p.isAbsolute = true) {fuel : Nat}
    (hfuel : p.names.length ≤ fuel) : (p :: p.parents fuel).map place = places p.names := by
  induction fuel generalizing p with
  | zero =>
    have hnil : p.names = [] := List.length_eq_zero_iff.mp (by omega)
    rw [parents, List.map_singleton, place, hnil]
    rfl
  | succ fuel ih =>
    rw [parents]
    rcases hparent : p.parent? with _ | q
    · rw [List.map_singleton, place, names_of_orphan hp hparent]
      rfl
    · obtain ⟨hq, last, hnames⟩ := names_parent hp hparent
      have hlength : q.names.length ≤ fuel := by
        rw [hnames, List.length_append, List.length_singleton] at hfuel
        omega
      have hplace : p.place = onward (onwards [] q.names) last := by
        rw [place, hnames, Disk.onwards_append]
        rfl
      rw [List.map_cons, ih hq hlength, hnames, Location.places_concat, hplace]

/-- **The places of a path's parents**, one for each name that is left out. -/
theorem map_place_ancestors {p : Path} (hp : p.isAbsolute = true) :
    p.ancestors.map place = places p.names :=
  map_place_parents hp (Nat.le_succ_of_le (length_names_le hp))

/-- A path from which another one goes on. -/
structure StartOf (q p : Path) : Prop where
  absolute : q.isAbsolute = true
  goes_on : ∃ rest, rest ≠ [] ∧ p.parts = q.parts ++ rest
  chars : ∀ c ∈ q.text, c ∈ p.text

theorem startOf_parent {p q : Path} (hp : p.isAbsolute = true) (h : p.parent? = some q) :
    StartOf q p := by
  obtain ⟨hq, dots, last, dots', hparts, -⟩ := parts_parent hp h
  exact ⟨hq, ⟨dots ++ last :: dots', by simp, hparts⟩, fun c hc => mem_text_parent hp h hc⟩

/-- The parent of a start is a start. -/
theorem StartOf.parent {p q r : Path} (hq : StartOf q p) (h : q.parent? = some r) :
    StartOf r p := by
  have hr := startOf_parent hq.absolute h
  obtain ⟨rest, hne, hparts⟩ := hq.goes_on
  obtain ⟨more, hmore, hqparts⟩ := hr.goes_on
  refine ⟨hr.absolute, ⟨more ++ rest, by simp [hne], ?_⟩, fun c hc => hq.chars c (hr.chars c hc)⟩
  rw [hparts, hqparts, List.append_assoc]

end Path

-- ---------------------------------------------------------------------------
-- Looking from a path
-- ---------------------------------------------------------------------------

namespace Disk

/-- There is a file at a location. -/
def holdsFile (d : Disk) (l : Location) : Bool :=
  match d.get? l with
  | some (.file _ _) => true
  | _ => false

/-- A directory that holds settings or the host's description. -/
def holdsProject (d : Disk) (l : Location) : Bool :=
  d.holdsFile (l ++ [Settings.fileName.toList]) || d.holdsFile (l ++ [Settings.manifestName.toList])

/-- The nearest project at or above a location; the location itself if there is none. -/
def nearestProject (d : Disk) (l : Location) : Location :=
  ((upwards l).find? d.holdsProject).getD l

/-- Where a walk goes without links, every other walk goes that starts with the same steps. The walk
past the first steps leaves a directory, and from there the rest can be any other. -/
theorem walk_along {d : Disk} (hlinks : ∀ l, d.NoLink l) {followLast : Bool} {links : Nat}
    {a l : Location} {ps rest : List Text} (h : Walks d followLast links a (ps ++ rest) l)
    (hne : rest ≠ []) :
    d.get? (onwards a ps) = some .directory ∧ Walks d followLast links (onwards a ps) rest l ∧
    ∀ follow rest', d.walk follow links a (ps ++ rest') =
      d.walk follow links (onwards a ps) rest' := by
  induction ps generalizing a with
  | nil => exact ⟨directory_of_walks h hne, h, fun _ _ => rfl⟩
  | cons step ps ih =>
    have hmore : ps ++ rest ≠ [] := by simp [hne]
    generalize hsteps : step :: ps ++ rest = steps at h
    rw [List.cons_append] at hsteps
    cases h with
    | done => exact absurd hsteps (by simp)
    | stay hdir hrest =>
      obtain ⟨rfl, rfl⟩ := List.cons.inj hsteps
      obtain ⟨hend, hwalks, hwalk⟩ := ih hrest
      refine ⟨hend, hwalks, fun follow rest' => ?_⟩
      rw [List.cons_append, walk, hdir]
      exact hwalk follow rest'
    | up hdir hrest =>
      obtain ⟨rfl, rfl⟩ := List.cons.inj hsteps
      obtain ⟨hend, hwalks, hwalk⟩ := ih hrest
      refine ⟨hend, hwalks, fun follow rest' => ?_⟩
      rw [List.cons_append, walk, hdir]
      exact hwalk follow rest'
    | halt _ _ _ => exact absurd (List.cons.inj hsteps).2 hmore
    | follow _ _ hlink _ _ => exact absurd hlink (hlinks _ _)
    | @down _ _ _ _ _ e hdir hdown hentry hnot hrest =>
      obtain ⟨rfl, rfl⟩ := List.cons.inj hsteps
      -- only here does the walk go to another place
      have honward := onward_of_goesDown a hdown
      rw [← honward] at hrest
      obtain ⟨hend, hwalks, hwalk⟩ := ih hrest
      refine ⟨hend, hwalks, fun follow rest' => ?_⟩
      rw [honward] at hwalk
      rw [List.cons_append, walk_entry hdir hdown hentry hnot, onwards, List.foldl_cons, ← onwards,
        honward]
      exact hwalk follow rest'

/-- What is told of a name in a directory from where a path starts is what is there. The path to the
name asks for steps that were walked already, and then for the name. -/
theorem isFile_child {d : Disk} (hlinks : ∀ l, d.NoLink l) {base l : Location} {p q : Path}
    (hp : p.isAbsolute = true) (hfound : d.locate true base p = .ok l) (hq : Path.StartOf q p)
    (name : String) (hname : GoesDown name.toList)
    (hplain : name.toList ≠ [] ∧ '/' ∉ name.toList ∧ '\x00' ∉ name.toList) :
    d.isFile base (q.child name) = d.holdsFile (q.place ++ [name.toList]) := by
  obtain ⟨hzero, hwalk⟩ := (locate_eq_ok_iff hp).mp hfound
  obtain ⟨tail, hsteps, -⟩ := Path.exists_steps p
  obtain ⟨rest, hne, hparts⟩ := hq.goes_on
  rw [hsteps, hparts, List.append_assoc] at hwalk
  obtain ⟨hdir, -, halong⟩ := walk_along hlinks (walks_of_walk hwalk)
    (List.append_ne_nil_of_left_ne_nil hne tail)
  rw [← Path.place_eq] at hdir halong
  -- the path to the name asks for the same steps and the name
  have hspelled : ∀ part ∈ [name.toList], Spelled part := by
    simpa using ⟨hplain.1, hplain.2.1, hname.ne_dot, hname.ne_dots⟩
  have hrelative : (Path.ofString name).isAbsolute = false := Path.isAbsolute_ofNames hspelled
  have hchild : steps (q.child name) = q.parts ++ [name.toList] := by
    rw [Path.child, Path.steps_join q hplain.1 hplain.2.1, Path.parts_join q hrelative]
    exact congrArg (q.parts ++ ·) (Path.parts_ofNames hspelled)
  have hclean : '\x00' ∉ (q.child name).text := by
    intro hin
    rcases Path.mem_text_join hin with hin | hin | hin
    · exact hzero (hq.chars _ hin)
    · exact absurd hin (by decide)
    · exact hplain.2.2 hin
  -- and there are no links to be followed at its end
  have hend : d.walk true linkLimit [] (steps (q.child name)) = .ok (q.place ++ [name.toList]) := by
    rw [hchild, halong, walk_goesDown hdir hname]
    rcases hentry : d.get? (q.place ++ [name.toList]) with _ | _ | _ | target
    · rfl
    · rw [walk]
    · rw [walk]
    · exact absurd hentry (hlinks _ target)
  have hlocate : d.locate true base (q.child name) = .ok (q.place ++ [name.toList]) :=
    (locate_eq_ok_iff (Path.isAbsolute_join hq.absolute _)).mpr ⟨hclean, hend⟩
  unfold isFile find holdsFile
  rw [hlocate]
  dsimp only
  rcases d.get? (q.place ++ [name.toList]) with _ | _ | _ | _ <;> rfl

theorem onwards_dots (a : Location) {ps : List Text} (h : ∀ part ∈ ps, part = ['.']) :
    onwards a ps = a := by
  rw [← Path.onwards_filter, Path.filter_dots h]
  rfl

/-- Dots at the end of a path ask for a directory. -/
theorem eq_nil_of_dots {d : Disk} (hlinks : ∀ l, d.NoLink l) {followLast : Bool} {links : Nat}
    {a l : Location} {ps dots : List Text} (h : d.walk followLast links a (ps ++ dots) = .ok l)
    (hdots : ∀ part ∈ dots, part = ['.']) (hnot : d.get? l ≠ some .directory) : dots = [] := by
  by_contra hne
  obtain ⟨hdir, -, halong⟩ := walk_along hlinks (walks_of_walk h) hne
  rw [halong, Workspace.walk_dots hdir hdots] at h
  obtain rfl := Except.ok.inj h
  exact hnot hdir

/-- The last step to something that is no directory goes down: above a directory there are only
directories. -/
theorem Walks.eq_concat {d : Disk} (hd : d.Lawful) (hlinks : ∀ l, d.NoLink l) {followLast : Bool}
    {links : Nat} {a l : Location} {last : Text} (h : Walks d followLast links a [last] l)
    (hlast : last ≠ ['.']) (hnot : d.get? l ≠ some .directory) : l = a ++ [last] := by
  have hdir := directory_of_walks h (by simp)
  generalize hone : [last] = ps at h
  cases h with
  | done => simp at hone
  | stay _ _ => exact absurd (List.cons.inj hone).1 hlast
  | up _ hrest =>
    obtain ⟨-, rfl⟩ := List.cons.inj hone
    cases hrest
    exfalso
    -- a step that climbs leads to a directory
    rcases List.eq_nil_or_concat a with rfl | ⟨above, name, rfl⟩
    · exact hnot rfl
    · rw [List.concat_eq_append] at hdir hnot
      rw [List.dropLast_concat] at hnot
      exact hnot (hd.held above name (by simp [hdir]))
  | halt _ _ _ =>
    obtain ⟨rfl, -⟩ := List.cons.inj hone
    rfl
  | follow _ _ hlink _ _ => exact absurd hlink (hlinks _ _)
  | down _ _ _ _ hrest =>
    obtain ⟨rfl, rfl⟩ := List.cons.inj hone
    cases hrest
    rfl

/-- **A file lies in the directory that its path's parent names.** The last part of the path is a
name: neither a dot nor a step that climbs leads to a file. -/
theorem place_of_file {d : Disk} (hd : d.Lawful) (hlinks : ∀ l, d.NoLink l) {base l : Location}
    {p : Path} (hp : p.isAbsolute = true) {bytes : Bytes} {mode : Bool}
    (h : d.find true base p = .ok (l, .file bytes mode)) :
    ∃ q last, p.parent? = some q ∧ l = q.place ++ [last] := by
  obtain ⟨hlocate, hfile⟩ := find_eq_ok h
  obtain ⟨-, hwalk⟩ := (locate_eq_ok_iff hp).mp hlocate
  obtain ⟨tail, hsteps, htail⟩ := Path.exists_steps p
  rw [hsteps] at hwalk
  have hnot : d.get? l ≠ some .directory := by simp [hfile]
  rcases hparent : p.parent? with _ | q
  · -- the path would name the root
    have hnone := Path.names_of_orphan hp hparent
    rw [Path.names_eq, List.filter_eq_nil_iff] at hnone
    have hdots : ∀ part ∈ p.parts ++ tail, part = ['.'] :=
      List.forall_mem_append.mpr ⟨fun part hpart => by simpa using hnone part hpart, htail⟩
    rw [Workspace.walk_dots rfl hdots] at hwalk
    obtain rfl := Except.ok.inj hwalk
    exact absurd rfl hnot
  · obtain ⟨hq, dots, last, dots', hparts, hdots, hlast, hdots'⟩ := Path.parts_parent hp hparent
    refine ⟨q, last, rfl, ?_⟩
    -- nothing can follow the last part, since it leads to a file
    have hcut : p.parts ++ tail = (q.parts ++ dots) ++ [last] ++ (dots' ++ tail) := by
      rw [hparts]
      simp
    rw [hcut] at hwalk
    have hend := eq_nil_of_dots hlinks hwalk (List.forall_mem_append.mpr ⟨hdots', htail⟩) hnot
    rw [hend, List.append_nil] at hwalk
    obtain ⟨-, hwalks, -⟩ := walk_along hlinks (walks_of_walk hwalk) (by simp)
    rw [onwards_append, onwards_dots _ hdots, ← Path.place_eq] at hwalks
    exact hwalks.eq_concat hd hlinks hlast hnot

end Disk

namespace Toolchain

variable {σ : Type}

/-- A directory from where the path of a source starts is taken for a root if it is one. -/
theorem isRoot_eq {m : Machine} (hlinks : ∀ l, m.disk.NoLink l) {l : Location} {p q : Path}
    (hp : p.isAbsolute = true) (hfound : m.disk.locate true m.directory p = .ok l)
    (hq : Path.StartOf q p) : isRoot Machine.host m q = m.disk.holdsProject q.place := by
  have hsettings := Disk.isFile_child hlinks hp hfound hq Settings.fileName
    ⟨by decide, by decide, by decide⟩ (by decide)
  have hmanifest := Disk.isFile_child hlinks hp hfound hq Settings.manifestName
    ⟨by decide, by decide, by decide⟩ (by decide)
  unfold isRoot Disk.holdsProject
  rw [← hsettings, ← hmanifest]
  rfl

/-- What a compiled source is made from: the path taken from the current directory, a file there,
and the root that is looked for from its directory on. -/
theorem compile_eq_ok {host : Host σ} {m : σ} {env : Environment} {path : Path} {c : Compiled}
    (h : (compile host m env path).1 = .ok c) :
    c.source.path = env.currentDir.join path ∧ host.isFile m c.source.path = true ∧
      c.root = findRoot host m c.source.dir := by
  unfold compile readInputs at h
  split at h
  · exact absurd h (by simp)
  · next i hinputs =>
    -- the source is read first, then the settings at the root that was found
    split at hinputs
    · exact absurd hinputs (by simp)
    · next source hsource =>
      dsimp only at hinputs
      split at hinputs
      · exact absurd hinputs (by simp)
      · obtain rfl := Except.ok.inj hinputs
        have hc : c.source = source ∧ c.root = findRoot host m source.dir := by
          unfold Inputs.compile at h
          dsimp only at h
          split at h
          · exact absurd h (by simp)
          · obtain rfl := Except.ok.inj h
            exact ⟨rfl, rfl⟩
        have hread : source.path = env.currentDir.join path ∧
            host.isFile m (env.currentDir.join path) = true := by
          unfold readSource at hsource
          dsimp only at hsource
          split at hsource
          · exact absurd hsource (by simp)
          · next hfile =>
            split at hsource
            · exact absurd hsource (by simp)
            · split at hsource
              · exact absurd hsource (by simp)
              · unfold Source.make at hsource
                split at hsource
                · exact absurd hsource (by simp)
                · obtain rfl := Except.ok.inj hsource
                  exact ⟨rfl, by simpa using hfile⟩
        rw [hc.1, hc.2]
        exact ⟨hread.1, hread.1 ▸ hread.2, rfl⟩

/-- **When the root of a source is the nearest project.** On a disk without links, the source lies
in the directory that its path's parent names. The root is the nearest project at or above that
directory, exactly if the first project that one comes to by leaving out parts of the path lies
above the source at all. So it is for every path that does not climb. -/
theorem root_nearest_iff {m : Machine} {env : Environment} {path : Path} {c : Compiled}
    (hdisk : m.disk.Lawful) (hlinks : ∀ l, m.disk.NoLink l)
    (hcurrent : env.currentDir.isAbsolute = true)
    (h : (compile Machine.host m env path).1 = .ok c) :
    (∃ name bytes mode, m.disk.find true m.directory c.source.path =
      .ok (c.source.dir.place ++ [name], .file bytes mode)) ∧
    (c.root.place = m.disk.nearestProject c.source.dir.place ↔
      ∀ q, c.source.dir.ancestors.find? (fun q => m.disk.holdsProject q.place) = some q →
        q.place <+: c.source.dir.place) ∧
    (['.', '.'] ∉ c.source.path.names →
      c.root.place = m.disk.nearestProject c.source.dir.place) := by
  obtain ⟨hpath, hfile, hroot⟩ := compile_eq_ok h
  have hp : c.source.path.isAbsolute = true := by
    rw [hpath]
    exact Path.isAbsolute_join hcurrent path
  obtain ⟨l, bytes, mode, hfind⟩ : ∃ l bytes mode,
      m.disk.find true m.directory c.source.path = .ok (l, .file bytes mode) := by
    change m.disk.isFile m.directory c.source.path = true at hfile
    unfold Disk.isFile at hfile
    split at hfile
    · exact ⟨_, _, _, by assumption⟩
    · exact absurd hfile (by simp)
  obtain ⟨q, last, hparent, rfl⟩ := Disk.place_of_file hdisk hlinks hp hfind
  have hdir : c.source.dir = q := by rw [Source.dir, hparent, Option.getD_some]
  have hq := Path.startOf_parent hp hparent
  rw [hdir] at hroot ⊢
  -- all directories that are tried lie on the way to the source
  have htried : ∀ r ∈ q.ancestors, Path.StartOf r c.source.path :=
    Path.of_mem_ancestors hq fun r r' hr hr' => hr.parent hr'
  have hplaces : (places q.names).find? m.disk.holdsProject =
      (q.ancestors.find? (fun r => m.disk.holdsProject r.place)).map Path.place := by
    rw [← Path.map_place_ancestors hq.absolute, List.find?_map]
    rfl
  -- so what is told of them is what is there
  have hfound : q.ancestors.find? (isRoot Machine.host m) =
      q.ancestors.find? (fun r => m.disk.holdsProject r.place) :=
    List.find?_congr fun r hr => isRoot_eq hlinks hp (Disk.find_eq_ok hfind).1 (htried r hr)
  have hrootplace : c.root.place =
      ((places q.names).find? m.disk.holdsProject).getD (onwards [] q.names) := by
    rw [hroot, findRoot, hfound, hplaces]
    exact (Option.getD_map Path.place q _).symm
  have hiff := Location.find?_places_eq_iff m.disk.holdsProject q.names
  rw [← hrootplace] at hiff
  refine ⟨⟨last, bytes, mode, hfind⟩, hiff.trans ?_, fun hclimbs => hiff.mpr fun x hx => ?_⟩
  · rw [hplaces]
    constructor
    · intro habove r hr
      exact habove r.place (by rw [hr]; rfl)
    · intro habove x hx
      obtain ⟨r, hr, rfl⟩ := Option.map_eq_some_iff.mp hx
      exact habove r hr
  · obtain ⟨-, last', hnames⟩ := Path.names_parent hp hparent
    refine Location.prefix_of_mem_places (fun hin => hclimbs ?_) (List.mem_of_find?_eq_some hx)
    rw [hnames]
    exact List.mem_append_left _ hin

namespace RootSample

/-- A script beside a directory of tools, with the host's description in the given place. -/
def machine (place : Location) : Machine where
  disk := ⟨[(["p".toList], .directory), (["p".toList, "tools".toList], .directory),
    (["p".toList, "app".toList], .directory),
    (["p".toList, "app".toList, "main.fnr".toList], .file (Utf8.encode "log(1)".toList) false),
    (place ++ [Settings.manifestName.toList], .file [] false)]⟩

/-- The script is named from among the tools. -/
def environment : Environment := ⟨[], .ofString "/p/tools"⟩

def path : Path := .ofString "../app/main.fnr"

/-- What is read to compile the script. -/
def inputs (root : String) : Inputs :=
  ⟨⟨.ofString "/p/tools/../app/main.fnr", "log(1)".toList⟩, .ofString root, {}⟩

theorem compile_sample (place : Location) (root : String)
    (h : readInputs Machine.host (machine place) environment path = .ok (inputs root)) :
    ∃ c, (compile Machine.host (machine place) environment path).1 = .ok c ∧
      c.source = (inputs root).source ∧ c.root = .ofString root := by
  unfold compile
  rw [h]
  exact ⟨_, rfl, rfl, rfl⟩

end RootSample

open RootSample

/-- A path that climbs to a directory above the source, where the project is. -/
theorem root_nearest_iff_climbing :
    ∃ c, (compile Machine.host (machine ["p".toList]) environment path).1 = .ok c ∧
      c.root = .ofString "/p/tools/.." ∧
      c.root.place = (machine ["p".toList]).disk.nearestProject c.source.dir.place := by
  obtain ⟨c, hc, hsource, hroot⟩ := compile_sample ["p".toList] "/p/tools/.." (by cbv)
  refine ⟨c, hc, hroot, ?_⟩
  refine (root_nearest_iff (Disk.lawful_of_entries (by decide)) (Disk.noLink_of_entries (by decide))
    (by decide) hc).2.1.mpr fun q hq => ?_
  rw [hsource] at hq ⊢
  obtain rfl : .ofString "/p/tools/.." = q := Option.some.inj hq
  decide

/-- The tools are a project of their own, and the path leads past them. They are taken for the root
of a script that does not lie among them. -/
theorem root_beside_source :
    ∃ c, (compile Machine.host (machine ["p".toList, "tools".toList]) environment path).1 = .ok c ∧
      c.root.place = ["p".toList, "tools".toList] ∧
      c.source.dir.place = ["p".toList, "app".toList] ∧
      (machine ["p".toList, "tools".toList]).disk.nearestProject c.source.dir.place =
        ["p".toList, "app".toList] := by
  obtain ⟨c, hc, hsource, hroot⟩ := compile_sample ["p".toList, "tools".toList] "/p/tools"
    (by cbv)
  refine ⟨c, hc, ?_⟩
  rw [hsource, hroot]
  decide

end Toolchain

end Sandscript
