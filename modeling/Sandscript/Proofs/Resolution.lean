import Sandscript.Proofs.ImportLiterals
import Sandscript.Proofs.ProjectRoot

/-!
# Resolved paths

Resolving folds each `..` of a path into the name before it. What is left when all of them have
found their names is the path's residue: the `..` that found none, and names. Walking along a path
depends on its residue alone (`onwards_eq_residue`).

Where there is no name, resolving keeps the `..`, but the next one takes it away again, so of the
`..` without a name at most one is left, and only their parity counts (`resolvedNames_eq`). At the
root this does no harm, since nothing is above it. In a relative path each of them is a directory
further up.

* `resolve_resolve` — a resolved path is resolved.
* `absolute_resolution` — a resolved absolute path names the place of the path.
* `relative_resolution` — a resolved relative path does so exactly if at most one `..` has no name.
-/

namespace Sandscript

open Disk (onward onwards staysBelow)

namespace Path

-- ---------------------------------------------------------------------------
-- What is left of steps
-- ---------------------------------------------------------------------------

/-- What is left of steps once each `..` that has a name before it is taken away together with that
name: a number of `..`, and then names. -/
structure Residue where
  climbs : Nat
  names : List Text
deriving DecidableEq, Repr

/-- One more step: a `..` takes the last name away, and climbs if there is none. -/
def Residue.step (r : Residue) (part : Text) : Residue :=
  if part = ['.', '.'] then
    if r.names.isEmpty then { r with climbs := r.climbs + 1 }
    else { r with names := r.names.dropLast }
  else { r with names := r.names ++ [part] }

/-- What is left of steps. -/
def residue (steps : List Text) : Residue := steps.foldl Residue.step ⟨0, []⟩

theorem residue_concat (steps : List Text) (part : Text) :
    residue (steps ++ [part]) = (residue steps).step part :=
  List.foldl_concat ..

/-- What a step does to a residue. -/
theorem Residue.step_cases (r : Residue) (part : Text) :
    (part = ['.', '.'] ∧ r.names = [] ∧ r.step part = ⟨r.climbs + 1, []⟩) ∨
    (part = ['.', '.'] ∧ r.names ≠ [] ∧ r.step part = ⟨r.climbs, r.names.dropLast⟩) ∨
    (part ≠ ['.', '.'] ∧ r.step part = ⟨r.climbs, r.names ++ [part]⟩) := by
  unfold Residue.step
  by_cases hpart : part = ['.', '.']
  · by_cases hnames : r.names = []
    · exact Or.inl ⟨hpart, hnames, by rw [if_pos hpart, if_pos (by simp [hnames]), hnames]⟩
    · exact Or.inr (Or.inl ⟨hpart, hnames, by rw [if_pos hpart, if_neg (by simp [hnames])]⟩)
  · exact Or.inr (Or.inr ⟨hpart, by rw [if_neg hpart]⟩)

/-- The names of a residue are steps that do not climb. By induction on the steps from their end, as
a residue is made by one step after another. -/
theorem mem_residue {steps : List Text} {name : Text} (h : name ∈ (residue steps).names) :
    name ∈ steps ∧ name ≠ ['.', '.'] := by
  induction steps using List.reverseRecOn with
  | nil => exact absurd h List.not_mem_nil
  | append_singleton steps part ih =>
    rw [residue_concat] at h
    have hold : name ∈ (residue steps).names → name ∈ steps ++ [part] ∧ name ≠ ['.', '.'] :=
      fun hin => ⟨List.mem_append_left _ (ih hin).1, (ih hin).2⟩
    obtain ⟨-, -, hstep⟩ | ⟨-, -, hstep⟩ | ⟨hpart, hstep⟩ := (residue steps).step_cases part
    · rw [hstep] at h
      exact absurd h List.not_mem_nil
    · rw [hstep] at h
      exact hold (List.mem_of_mem_dropLast h)
    · rw [hstep] at h
      rcases List.mem_append.mp h with h | h
      · exact hold h
      · obtain rfl := List.mem_singleton.mp h
        exact ⟨by simp, hpart⟩

/-- Names that follow are kept as they are. -/
theorem residue_append_names (steps : List Text) {names : List Text}
    (h : ∀ name ∈ names, name ≠ ['.', '.']) :
    residue (steps ++ names) = ⟨(residue steps).climbs, (residue steps).names ++ names⟩ := by
  induction names using List.reverseRecOn with
  | nil => simp
  | append_singleton names name ih =>
    rw [List.forall_mem_append] at h
    rw [← List.append_assoc, residue_concat, ih h.1, Residue.step,
      if_neg (h.2 name (List.mem_singleton_self name)), List.append_assoc]

/-- Steps that climb from the start all remain. -/
theorem residue_replicate (n : Nat) : residue (List.replicate n ['.', '.']) = ⟨n, []⟩ := by
  induction n with
  | zero => rfl
  | succ n ih =>
    rw [List.replicate_succ', residue_concat, ih]
    rfl

/-- A residue is the residue of its own parts. -/
theorem residue_residue (n : Nat) (steps : List Text) :
    residue (List.replicate n ['.', '.'] ++ (residue steps).names) =
      ⟨n, (residue steps).names⟩ := by
  rw [residue_append_names _ fun name hname => (mem_residue hname).2, residue_replicate]
  rfl

-- ---------------------------------------------------------------------------
-- Where steps lead
-- ---------------------------------------------------------------------------

/-- Taking the last name off what is left above gives what is left one level further up. -/
theorem dropLast_above (base : Location) (n : Nat) :
    (base.take (base.length - n)).dropLast = base.take (base.length - (n + 1)) := by
  rw [List.dropLast_eq_take, List.length_take, List.take_take]
  congr 1
  omega

/-- **Where steps lead depends on their residue alone.** Each `..` that is left leaves out a name of
the place that the steps start from, as long as there is one. -/
theorem onwards_eq_residue (base : Location) {steps : List Text} (h : ['.'] ∉ steps) :
    onwards base steps =
      base.take (base.length - (residue steps).climbs) ++ (residue steps).names := by
  induction steps using List.reverseRecOn with
  | nil => simp [onwards, residue]
  | append_singleton steps part ih =>
    rw [List.mem_append, not_or, List.mem_singleton] at h
    rw [Disk.onwards_append, ih h.1, residue_concat]
    change onward _ part = _
    obtain ⟨hpart, hnone, hstep⟩ | ⟨hpart, hnames, hstep⟩ | ⟨hpart, hstep⟩ :=
      (residue steps).step_cases part
    · rw [hstep, onward, if_neg (Ne.symm h.2), if_pos hpart, hnone, List.append_nil,
        List.append_nil, dropLast_above]
    · rw [hstep, onward, if_neg (Ne.symm h.2), if_pos hpart, List.dropLast_append_of_ne_nil hnames]
    · rw [hstep, onward, if_neg (Ne.symm h.2), if_neg hpart, List.append_assoc]

theorem dot_notMem_names (p : Path) : ['.'] ∉ p.names := by
  rw [names_eq]
  simp

/-- From the root, where climbing stops, the steps lead to the names of the residue. -/
theorem onwards_nil_eq {steps : List Text} (h : ['.'] ∉ steps) :
    onwards [] steps = (residue steps).names := by
  rw [onwards_eq_residue [] h]
  simp

theorem place_eq_residue (p : Path) : p.place = (residue p.names).names :=
  onwards_nil_eq p.dot_notMem_names

/-- Steps stay below their start exactly if every `..` finds its name. Both sides are kept by a step
under the same condition, so the induction is on the steps from their end. -/
theorem staysBelow_iff {steps : List Text} (h : ['.'] ∉ steps) :
    staysBelow [] steps = true ↔ (residue steps).climbs = 0 := by
  induction steps using List.reverseRecOn with
  | nil => exact ⟨fun _ => rfl, fun _ => rfl⟩
  | append_singleton steps part ih =>
    rw [List.mem_append, not_or] at h
    rw [Disk.staysBelow_append, Bool.and_eq_true, ih h.1, onwards_nil_eq h.1, staysBelow,
      staysBelow, Bool.and_true, residue_concat]
    obtain ⟨hpart, hnone, hstep⟩ | ⟨hpart, hnames, hstep⟩ | ⟨hpart, hstep⟩ :=
      (residue steps).step_cases part
    · rw [hstep, hnone, hpart]
      simp
    · rw [hstep]
      simp [hnames]
    · rw [hstep]
      simp [hpart]

-- ---------------------------------------------------------------------------
-- Resolving
-- ---------------------------------------------------------------------------

/-- What resolving leaves of a residue: two `..` without names take each other away. -/
def Residue.resolved (r : Residue) : List Text :=
  List.replicate (r.climbs % 2) ['.', '.'] ++ r.names

/-- One step of the code is one step of the residue, seen through what the code keeps of it: of the
steps that climb only whether their number is odd. -/
theorem Residue.resolved_step (r : Residue) (part : Text) :
    resolvePart r.resolved part = (r.step part).resolved := by
  unfold resolvePart Residue.resolved
  obtain ⟨hpart, hnone, hstep⟩ | ⟨hpart, hnames, hstep⟩ | ⟨hpart, hstep⟩ := r.step_cases part
  · rw [if_pos hpart, hstep, hnone, hpart]
    rcases Nat.mod_two_eq_zero_or_one r.climbs with hparity | hparity
    · rw [hparity, Nat.succ_mod_two_eq_one_iff.mpr hparity]
      rfl
    · rw [hparity, Nat.succ_mod_two_eq_zero_iff.mpr hparity]
      rfl
  · rw [if_pos hpart, hstep, if_neg (by simp [hnames]), List.dropLast_append_of_ne_nil hnames]
  · rw [if_neg hpart, hstep, List.append_assoc]

/-- **The parts of a resolved path**: at most one `..`, by the parity of those without a name, and
then the names that are left. -/
theorem resolvedNames_eq (p : Path) : p.resolvedNames = (residue p.names).resolved := by
  rw [resolvedNames]
  induction p.names using List.reverseRecOn with
  | nil => rfl
  | append_singleton steps part ih =>
    rw [List.foldl_concat, ih, Residue.resolved_step, residue_concat]

theorem mem_resolvedNames {p : Path} {part : Text} (h : part ∈ p.resolvedNames) :
    (part ≠ [] ∧ '/' ∉ part) ∧ part ≠ ['.'] := by
  have hname : part ∈ p.names := (mem_foldl_resolvePart h).resolve_left List.not_mem_nil
  rw [names_eq, List.mem_filter] at hname
  exact ⟨mem_parts hname.1, by simpa using hname.2⟩

theorem resolve_of_isAbsolute {p : Path} (hp : p.isAbsolute = true) :
    p.resolve = Location.toPath p.resolvedNames := if_pos hp

theorem resolve_of_relative {p : Path} (hp : p.isAbsolute = false) :
    p.resolve = ⟨Text.join ['/'] p.resolvedNames⟩ := if_neg (by simp [hp])

/-- Resolving keeps an absolute path absolute and a relative one relative. -/
theorem isAbsolute_resolve (p : Path) : p.resolve.isAbsolute = p.isAbsolute := by
  cases hp : p.isAbsolute with
  | true =>
    rw [resolve_of_isAbsolute hp]
    exact isAbsolute_iff.mpr ⟨_, rfl⟩
  | false =>
    rw [resolve_of_relative hp]
    exact isAbsolute_ofParts fun part hpart => (mem_resolvedNames hpart).1

/-- The parts of a resolved path are the resolved names. -/
theorem parts_resolve (p : Path) : p.resolve.parts = p.resolvedNames := by
  have hparts : parts ⟨Text.join ['/'] p.resolvedNames⟩ = p.resolvedNames :=
    parts_ofParts fun part hpart => (mem_resolvedNames hpart).1
  cases hp : p.isAbsolute with
  | true => rw [resolve_of_isAbsolute hp, Location.toPath, parts_cons_slash, ← parts, hparts]
  | false => rw [resolve_of_relative hp, hparts]

theorem names_resolve (p : Path) : p.resolve.names = p.resolvedNames := by
  rw [names_eq, parts_resolve, List.filter_eq_self]
  intro part hpart
  simpa using (mem_resolvedNames hpart).2

/-- Resolving keeps the names of the residue, and of its climbing steps the parity only. -/
theorem residue_resolve (p : Path) : residue p.resolve.names =
    ⟨(residue p.names).climbs % 2, (residue p.names).names⟩ := by
  rw [names_resolve, resolvedNames_eq, Residue.resolved, residue_residue]

/-- **A resolved path is resolved.** -/
theorem resolve_resolve (p : Path) : p.resolve.resolve = p.resolve := by
  have hnames : p.resolve.resolvedNames = p.resolvedNames := by
    rw [resolvedNames_eq, residue_resolve, resolvedNames_eq, Residue.resolved, Nat.mod_mod]
    rfl
  cases hp : p.isAbsolute with
  | true =>
    rw [resolve_of_isAbsolute ((isAbsolute_resolve p).trans hp), hnames, resolve_of_isAbsolute hp]
  | false =>
    rw [resolve_of_relative ((isAbsolute_resolve p).trans hp), hnames, resolve_of_relative hp]

-- ---------------------------------------------------------------------------
-- Absolute paths
-- ---------------------------------------------------------------------------

/-- A path that stands for the absolute path `p` and is written without detours. -/
structure Settles (p q : Path) : Prop where
  absolute : q.isAbsolute = true
  no_dot : ['.'] ∉ q.parts
  same_place : q.place = p.place
  climbs_once : q.parts.count ['.', '.'] ≤ 1
  /-- Nothing stands before a `..`. -/
  climbs_first : ∀ before after, q.parts = before ++ ['.', '.'] :: after → before = []
  /-- Where the path never climbs above the root, its place is written out. -/
  written_out : staysBelow [] p.names = true → q = p.place.toPath
  resolved : q.resolve = q

theorem count_resolved (p : Path) :
    p.resolvedNames.count ['.', '.'] = (residue p.names).climbs % 2 := by
  rw [resolvedNames_eq, Residue.resolved, List.count_append, List.count_replicate_self,
    List.count_eq_zero.mpr fun hin => (mem_residue hin).2 rfl, Nat.add_zero]

/-- A climbing step that is left stands first. -/
theorem nil_of_resolvedNames {p : Path} {before after : List Text}
    (h : p.resolvedNames = before ++ ['.', '.'] :: after) : before = [] := by
  rw [resolvedNames_eq, Residue.resolved] at h
  have hnot : ['.', '.'] ∉ (residue p.names).names := fun hin => (mem_residue hin).2 rfl
  rcases Nat.mod_two_eq_zero_or_one (residue p.names).climbs with hparity | hparity
  · rw [hparity, List.replicate_zero, List.nil_append] at h
    exact absurd (h ▸ by simp) hnot
  · rw [hparity, List.replicate_one, List.singleton_append] at h
    -- a second part before the `..` would make it one of the names
    cases before with
    | nil => rfl
    | cons first before =>
      rw [List.cons_append] at h
      exact absurd ((List.cons.inj h).2 ▸ by simp) hnot

/-- An absolute path is resolved to the place it leads to: at the root, climbing steps that are lost
make no difference. -/
theorem settles_resolve {p : Path} (hp : p.isAbsolute = true) : Settles p p.resolve where
  absolute := (isAbsolute_resolve p).trans hp
  no_dot := by
    rw [parts_resolve]
    exact fun hin => (mem_resolvedNames hin).2 rfl
  same_place := by rw [place_eq_residue, residue_resolve, place_eq_residue]
  climbs_once := by
    rw [parts_resolve, count_resolved]
    omega
  climbs_first := by
    intro before after h
    rw [parts_resolve] at h
    exact nil_of_resolvedNames h
  written_out := by
    intro hbelow
    rw [staysBelow_iff p.dot_notMem_names] at hbelow
    rw [resolve_of_isAbsolute hp, resolvedNames_eq, Residue.resolved, hbelow, place_eq_residue]
    rfl
  resolved := resolve_resolve p

end Path

open Sandscript.Path (Settles residue)

theorem Import.specifier_of_file {i : Import} (h : i.external = false) (dir : Path) :
    i.specifier dir = "file://".toList ++ (dir.join ⟨i.module⟩).resolve.text := by
  rw [specifier, h]
  rfl

/-- **Resolving keeps the place of a relative path exactly if at most one `..` has no name before
it**, from whichever directory the path is followed that is deep enough. Of more of them only the
parity is kept. -/
theorem relative_resolution {dir : Path} {module : Text} (hdir : dir.isAbsolute = false)
    (hmodule : Path.isAbsolute ⟨module⟩ = false) {climbs : Nat} {names : List Text}
    (hleft : residue (dir.join ⟨module⟩).names = ⟨climbs, names⟩) :
    (dir.join ⟨module⟩).resolve.isAbsolute = false ∧
    (dir.join ⟨module⟩).resolve.parts = List.replicate (climbs % 2) ['.', '.'] ++ names ∧
    ((dir.join ⟨module⟩).resolve.parts = List.replicate climbs ['.', '.'] ++ names ↔
      climbs ≤ 1) ∧
    ∀ base : Location, climbs ≤ base.length →
      (onwards base (dir.join ⟨module⟩).resolve.parts = onwards base (dir.join ⟨module⟩).parts ↔
        climbs ≤ 1) := by
  have hrelative := Path.isAbsolute_join_relative hdir hmodule
  have hparts : (dir.join ⟨module⟩).resolve.parts =
      List.replicate (climbs % 2) ['.', '.'] ++ names := by
    rw [Path.parts_resolve, Path.resolvedNames_eq, hleft, Path.Residue.resolved]
  refine ⟨(Path.isAbsolute_resolve _).trans hrelative, hparts, ?_, fun base hdeep => ?_⟩
  · rw [hparts, List.append_left_inj, List.replicate_left_inj]
    omega
  · -- both paths climb from the base as often as their residues say
    have hresolved : onwards base (dir.join ⟨module⟩).resolve.parts =
        base.take (base.length - climbs % 2) ++ names := by
      have hnames := (Path.names_resolve (dir.join ⟨module⟩)).trans (Path.parts_resolve _).symm
      rw [← hnames, Path.onwards_eq_residue base (Path.dot_notMem_names _), Path.residue_resolve,
        hleft]
    have hjoined : onwards base (dir.join ⟨module⟩).parts =
        base.take (base.length - climbs) ++ names := by
      rw [← Path.onwards_filter, ← Path.names_eq,
        Path.onwards_eq_residue base (Path.dot_notMem_names _), hleft]
    rw [hresolved, hjoined, List.append_left_inj]
    constructor
    · -- places of different depth are different places
      intro heq
      have hlength := congrArg List.length heq
      rw [List.length_take, List.length_take] at hlength
      omega
    · intro hfew
      rw [Nat.mod_eq_of_lt (by omega)]

/-- One `..` without a name: the file is one directory above the start, wherever that is. -/
theorem relative_resolution_one_above :
    residue (Path.join (.ofString "lib/./a") (.ofString "../../../m.mjs")).names =
      ⟨1, ["m.mjs".toList]⟩ ∧
    (Path.join (.ofString "lib/./a") (.ofString "../../../m.mjs")).resolve.parts =
      ["..".toList, "m.mjs".toList] ∧
    ∀ base : Location, 1 ≤ base.length →
      onwards base (Path.join (.ofString "lib/./a") (.ofString "../../../m.mjs")).resolve.parts =
        onwards base (Path.join (.ofString "lib/./a") (.ofString "../../../m.mjs")).parts := by
  have hdir : (Path.ofString "lib/./a").isAbsolute = false := by decide
  have hmodule : (Path.ofString "../../../m.mjs").isAbsolute = false := by decide
  have hleft : residue (Path.join (.ofString "lib/./a") (.ofString "../../../m.mjs")).names =
      ⟨1, ["m.mjs".toList]⟩ := by decide
  obtain ⟨-, hparts, -, hplace⟩ := relative_resolution hdir hmodule hleft
  exact ⟨hleft, hparts, fun base hdeep => (hplace base hdeep).mpr (by decide)⟩

/-- Two `..` without a name are both lost, and the file is looked for in the wrong directory. -/
theorem two_climbs_lost :
    isExternal "../../../m.mjs".toList = false ∧
    residue (Path.join (.ofString "lib") (.ofString "../../../m.mjs")).names =
      ⟨2, ["m.mjs".toList]⟩ ∧
    (Path.join (.ofString "lib") (.ofString "../../../m.mjs")).resolve = .ofString "m.mjs" ∧
    onwards ["home".toList, "app".toList]
        (Path.join (.ofString "lib") (.ofString "../../../m.mjs")).parts = ["m.mjs".toList] ∧
    onwards ["home".toList, "app".toList]
        (Path.join (.ofString "lib") (.ofString "../../../m.mjs")).resolve.parts =
      ["home".toList, "app".toList, "m.mjs".toList] := by
  decide

end Sandscript
