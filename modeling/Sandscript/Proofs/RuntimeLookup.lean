import Mathlib
import Sandscript.Proofs.TreeListing
import Sandscript.Proofs.WorkspaceReach
import Sandscript.Toolchain

/-!
# Looking the runtime up

The runtime is looked for in places that are written down as paths. A place that is an absolute path
is the same from everywhere. A place that is not is taken from wherever the toolchain happens to be,
and later, when the program is started, from the workspace.

* `findRuntime_eq` — the runtime is the first of the places that leads to a file.
* `Steady` — no place that depends on where one is can come first.
* `exists_isFile_of_join` — what is found below the current directory is found from somewhere.
* `runtime_lookup_tfae` — the lookup depends on the snapshot alone exactly if the places are steady,
  and then it answers as the snapshot says.
-/

namespace Sandscript

theorem Path.mem_text_join_of_mem {p q : Path} (hq : q.isAbsolute = false) {c : Char}
    (h : c ∈ p.text ∨ c ∈ q.text) : c ∈ (p.join q).text := by
  rw [join, if_neg (by simp [hq])]
  split
  · exact List.mem_append.mpr h
  · exact List.mem_append.mpr (h.imp_right (List.mem_cons_of_mem _))

/-- A relative path that does not start with `.` and has no names is empty. -/
theorem Path.text_eq_nil_of_names {p : Path} (habs : p.isAbsolute = false)
    (hhere : p.startsHere = false) (h : p.names = []) : p.text = [] := by
  obtain ⟨text⟩ := p
  cases text with
  | nil => rfl
  | cons c rest =>
    exfalso
    have hroot : c ≠ '/' := by
      rintro rfl
      exact absurd habs (by simp [isAbsolute, anchored])
    obtain ⟨piece, more, hpieces⟩ := Text.exists_split '/' rest
    have hsplit := Text.split_cons_of_ne hroot hpieces
    -- the first piece is not empty, so it is the `.` that the path does not start with
    have hpart : c :: piece = ['.'] := by
      rw [names_eq, parts, hsplit, List.filter_cons_of_pos (by simp), List.filter_eq_nil_iff] at h
      simpa using h (c :: piece) (List.mem_cons_self ..)
    obtain ⟨rfl, rfl⟩ := List.cons.inj hpart
    cases rest with
    | nil => exact absurd hhere (by simp [startsHere, anchored])
    | cons next rest =>
      by_cases hnext : next = '/'
      · subst hnext
        exact absurd hhere (by simp [startsHere, anchored])
      · obtain ⟨piece, more, hmore⟩ := Text.exists_split '/' rest
        rw [Text.split_cons_of_ne hnext hmore] at hpieces
        simp at hpieces

namespace Disk

variable {d : Disk}

-- ---------------------------------------------------------------------------
-- Walks with fewer links
-- ---------------------------------------------------------------------------

/-- A walk arrives if it may follow as many links, or more. So a place that is found from one
directory with some links left is found from another with all of them. -/
theorem Walks.walk_eq {followLast : Bool} {links links' : Nat} {a l : Location} {ps : List Text}
    (h : Walks d followLast links a ps l) (hle : links ≤ links') :
    d.walk followLast links' a ps = .ok l := by
  induction h generalizing links' with
  | done => rw [walk]
  | stay hdir _ ih =>
    rw [walk, hdir]
    exact ih hle
  | up hdir _ ih =>
    rw [walk, hdir]
    exact ih hle
  | halt hdir hdown hend =>
    rw [walk_goesDown hdir hdown]
    rcases hend with hnone | ⟨target, hlink, rfl⟩
    · rw [hnone]
      rfl
    · rw [hlink]
      rfl
  | follow hdir hdown hlink hmust _ ih =>
    -- a link takes one of both numbers
    obtain ⟨left, rfl⟩ : ∃ left, links' = left + 1 := ⟨links' - 1, by omega⟩
    rw [walk_link hdir hdown hlink hmust]
    exact ih (by omega)
  | down hdir hdown hentry hnot _ ih =>
    rw [walk_entry hdir hdown hentry hnot]
    exact ih hle

-- ---------------------------------------------------------------------------
-- Files, seen from a base
-- ---------------------------------------------------------------------------

theorem find_base {followLast : Bool} {base base' : Location} {p : Path}
    (hp : p.isAbsolute = true) : d.find followLast base p = d.find followLast base' p := by
  unfold find
  rw [locate_base hp]

/-- Whether there is a file at an absolute path does not depend on where it is asked. -/
theorem isFile_base {base base' : Location} {p : Path} (hp : p.isAbsolute = true) :
    d.isFile base p = d.isFile base' p := by
  unfold isFile
  rw [find_base hp]

/-- There is a file at a path exactly if the path leads to one, all links followed. -/
theorem isFile_iff {base : Location} {p : Path} :
    d.isFile base p = true ↔
      ∃ l bytes executable, d.locate true base p = .ok l ∧
        d.get? l = some (.file bytes executable) := by
  constructor
  · intro h
    unfold isFile at h
    split at h
    · next l bytes executable hfind => exact ⟨l, bytes, executable, find_eq_ok hfind⟩
    · exact absurd h (by simp)
  · rintro ⟨l, bytes, executable, hlocate, hfile⟩
    unfold isFile find
    rw [hlocate]
    dsimp only
    rw [hfile]

/-- A path that ends with a `/` leads to no file, because the walk asks for one step more, a dot,
and that needs a directory. -/
theorem isFile_of_slash {base : Location} {p : Path} (hp : p.isAbsolute = true)
    (h : p.text.getLast? = some '/') : d.isFile base p = false := by
  rw [Bool.eq_false_iff, Ne, isFile_iff]
  rintro ⟨l, bytes, executable, hlocate, hfile⟩
  obtain ⟨before, hbefore⟩ := List.getLast?_eq_some_iff.mp h
  have hwalk := locate_of_isAbsolute hp hlocate
  have hpieces : Text.split '/' p.text = Text.split '/' before ++ [[]] := by
    rw [hbefore, Text.split_append]
    rfl
  unfold steps at hwalk
  dsimp only at hwalk
  split at hwalk
  · obtain ⟨left, c, -, hdir, hway⟩ := (walks_of_walk hwalk).directory_before (by simp)
    rw [hway, Workspace.walk_dots hdir (by simp)] at hwalk
    obtain rfl := Except.ok.inj hwalk
    exact absurd (hdir.symm.trans hfile) (by simp)
  · next hsome =>
    have hnone : (Text.split '/' p.text).filter (!·.isEmpty) = [] := by
      rw [Bool.and_eq_true, not_and_or] at hsome
      simpa [hpieces] using hsome
    rw [hnone, walk] at hwalk
    obtain rfl := Except.ok.inj hwalk
    exact absurd hfile (by simp [get?])

/-- A path with a slash at its end is no file, as it asks for a directory. -/
theorem isFile_join_nil {base : Location} {p : Path} (hp : p.isAbsolute = true) :
    d.isFile base (p.join ⟨[]⟩) = false := by
  obtain ⟨body, hbody⟩ := Path.isAbsolute_iff.mp hp
  exact isFile_of_slash (Path.isAbsolute_join hp _) (Path.getLast?_join_nil (by simp [hbody]))

/-- A file in a relative directory, taken from a path, is also found when one is at the place that
the path leads to. The walk comes by that place, and has fewer links left there. -/
theorem exists_isFile_of_join {top dir : Path} {name : Text} (htop : top.isAbsolute = true)
    (hdir : dir.isAbsolute = false) (hne : name ≠ []) (hslash : '/' ∉ name)
    (h : d.isFile [] ((top.join dir).join ⟨name⟩) = true) :
    ∃ base, d.isFile base (dir.join ⟨name⟩) = true := by
  obtain ⟨l, bytes, executable, hlocate, hfile⟩ := isFile_iff.mp h
  have hname : Path.isAbsolute ⟨name⟩ = false := Path.isAbsolute_of_notMem hslash
  have hparts : Path.parts ⟨name⟩ = [name] := by
    rw [Path.parts, Text.split_of_notMem hslash]
    simpa using hne
  have hbelow : steps (dir.join ⟨name⟩) = dir.parts ++ [name] := by
    rw [Path.steps_join dir hne hslash, Path.parts_join dir hname, hparts]
  have hsteps : steps ((top.join dir).join ⟨name⟩) = top.parts ++ steps (dir.join ⟨name⟩) := by
    rw [Path.steps_join _ hne hslash, Path.parts_join _ hname, Path.parts_join top hdir, hparts,
      hbelow, List.append_assoc]
  have hjoin := Path.isAbsolute_join (Path.isAbsolute_join htop dir) ⟨name⟩
  have hwalk := locate_of_isAbsolute hjoin hlocate
  rw [hsteps] at hwalk
  -- the walk comes by the place of `top`, with some of the links left
  obtain ⟨left, base, hle, -, hway⟩ :=
    (walks_of_walk hwalk).directory_before (by simp [hbelow])
  rw [hway] at hwalk
  have hclean : '\x00' ∉ (dir.join ⟨name⟩).text := by
    intro hzero
    refine (text_of_locate hlocate).2 (Path.mem_text_join_of_mem hname ?_)
    rcases Path.mem_text_join hzero with hin | hsep | hin
    · exact Or.inl (Path.mem_text_join_of_mem hdir (Or.inr hin))
    · exact absurd hsep (by decide)
    · exact Or.inr hin
  have htext : (dir.join ⟨name⟩).text ≠ [] := by
    obtain ⟨c, hc⟩ := List.exists_mem_of_ne_nil name hne
    exact List.ne_nil_of_mem (Path.mem_text_join_of_mem hname (Or.inr hc))
  refine ⟨base, isFile_iff.mpr ⟨l, bytes, executable, ?_, hfile⟩⟩
  rw [locate_of_text htext hclean, Path.isAbsolute_join_relative hdir hname, if_neg (by simp)]
  exact (walks_of_walk hwalk).walk_eq hle

/-- There is a place where nothing is. -/
theorem exists_missing (d : Disk) : ∃ l, d.get? l = none := by
  refine ⟨List.replicate (d.depth + 1) [], ?_⟩
  cases h : d.get? (List.replicate (d.depth + 1) []) with
  | none => rfl
  | some e =>
    have hlength := length_le_depth h
    rw [List.length_replicate] at hlength
    omega

/-- From a place where nothing is, only absolute paths lead to a file, as every step starts at a
directory. -/
theorem isFile_of_missing {base : Location} {p : Path} (hbase : d.get? base = none)
    (hp : p.isAbsolute = false) : d.isFile base p = false := by
  rw [Bool.eq_false_iff, Ne, isFile_iff]
  rintro ⟨l, bytes, executable, hlocate, hfile⟩
  obtain ⟨hne, hclean⟩ := text_of_locate hlocate
  rw [locate_of_text hne hclean, if_neg (by simp [hp])] at hlocate
  cases hsteps : steps p with
  | nil =>
    rw [hsteps, walk] at hlocate
    obtain rfl := Except.ok.inj hlocate
    exact absurd (hbase.symm.trans hfile) (by simp)
  | cons step rest =>
    rw [hsteps] at hlocate
    have hdir := directory_of_walks (walks_of_walk hlocate) (by simp)
    exact absurd (hbase.symm.trans hdir) (by simp)

end Disk

-- ---------------------------------------------------------------------------
-- The first file among places
-- ---------------------------------------------------------------------------

/-- Of the places that can come first, none depends on where one is: up to the first absolute path
that leads to a file, the relative paths lead to no file, wherever they are taken from. -/
def Disk.Steady (d : Disk) : List Path → Prop
  | [] => True
  | p :: ps =>
    if p.isAbsolute then d.isFile [] p = true ∨ d.Steady ps
    else (∀ base, d.isFile base p = false) ∧ d.Steady ps

namespace Disk

variable {d : Disk} {ps : List Path}

/-- Absolute places are steady. -/
theorem steady_of_absolute (h : ∀ p ∈ ps, p.isAbsolute = true) : d.Steady ps := by
  induction ps with
  | nil => exact trivial
  | cons p ps ih =>
    rw [List.forall_mem_cons] at h
    rw [Steady, if_pos h.1]
    exact Or.inr (ih h.2)

/-- Where the places are not steady, a relative path comes first from somewhere: the absolute places
before it have no file, and there is a directory from which it has one. -/
theorem exists_relative_first (h : ¬ d.Steady ps) :
    ∃ base p, ps.find? (d.isFile base) = some p ∧ p.isAbsolute = false := by
  induction ps with
  | nil => exact absurd trivial h
  | cons p ps ih =>
    rw [Steady] at h
    split at h
    · next habs =>
      rw [not_or, Bool.not_eq_true] at h
      obtain ⟨base, q, hfirst, hq⟩ := ih h.2
      refine ⟨base, q, ?_, hq⟩
      rw [List.find?_cons_of_neg, hfirst]
      rw [isFile_base habs, h.1]
      simp
    · next habs =>
      by_cases hany : ∃ base, d.isFile base p = true
      · obtain ⟨base, hfile⟩ := hany
        exact ⟨base, p, List.find?_cons_of_pos hfile, by simpa using habs⟩
      · simp only [not_exists, Bool.not_eq_true] at hany
        obtain ⟨base, q, hfirst, hq⟩ := ih fun hsteady => h ⟨hany, hsteady⟩
        exact ⟨base, q, by rw [List.find?_cons_of_neg (by simp [hany]), hfirst], hq⟩

/-- A place as it is asked for, and as it is meant: the same if absolute, and otherwise a file where
it is meant is a file from somewhere. -/
def Meant (d : Disk) (p q : Path) : Prop :=
  if p.isAbsolute then q = p else d.isFile [] q = true → ∃ base, d.isFile base p = true

/-- **Steady places are found as they are meant**, from everywhere. -/
theorem Steady.find?_eq {qs : List Path} (h : d.Steady ps) (hmeant : List.Forall₂ d.Meant ps qs)
    (base : Location) : ps.find? (d.isFile base) = qs.find? (d.isFile []) := by
  induction hmeant with
  | nil => rfl
  | @cons p q ps qs hpq _ ih =>
    rw [Steady] at h
    rw [Meant] at hpq
    split at h
    · next habs =>
      obtain rfl : q = p := by simpa [habs] using hpq
      have hsame : d.isFile base q = d.isFile [] q := isFile_base habs
      cases hfile : d.isFile [] q with
      | true => rw [List.find?_cons_of_pos hfile, List.find?_cons_of_pos (hsame.trans hfile)]
      | false =>
        rw [List.find?_cons_of_neg (by simp [hsame.trans hfile]),
          List.find?_cons_of_neg (by simp [hfile])]
        exact ih (h.resolve_left (by simp [hfile]))
    · next habs =>
      -- a relative place is never a file, so neither is the one that is meant
      have hnot : d.isFile [] q = false := by
        rw [Bool.eq_false_iff]
        intro hfile
        rw [if_neg habs] at hpq
        obtain ⟨base, hthere⟩ := hpq hfile
        exact absurd (hthere.symm.trans (h.1 base)) (by simp)
      rw [List.find?_cons_of_neg (by simp [h.1]), List.find?_cons_of_neg (by simp [hnot])]
      exact ih h.2

end Disk

namespace Toolchain

open Disk

-- ---------------------------------------------------------------------------
-- The places of a runtime
-- ---------------------------------------------------------------------------

/-- The name, if a path is a single name. -/
def single? (p : Path) : Option Text :=
  if p.isAbsolute || p.startsHere then none
  else match p.names with
    | [name] => some name
    | _ => none

/-- The directories of the search path. -/
def searched (env : Environment) : List Text :=
  Text.split ':' ((env.get? programsVar).getD [])

/-- The places where a runtime may be. A single name may be in each of the directories, which are
reached as `reach` says; any other path is taken from the current directory. -/
def placesOf (env : Environment) (runtime : Text) (reach : Path → Path) : List Path :=
  match single? ⟨runtime⟩ with
  | some name => (searched env).map fun dir => (reach ⟨dir⟩).join ⟨name⟩
  | none => [env.currentDir.join ⟨runtime⟩]

/-- The answer, by the path that was found. -/
def answer (runtime : Text) : Option Path → Except Failure Path
  | some p => .ok p
  | none =>
    .error (.runFailed ("host runtime '".toList ++ runtime ++ "' was not found".toList) none)

theorem answer_eq_ok {runtime : Text} {found : Option Path} {p : Path} :
    answer runtime found = .ok p ↔ found = some p := by
  cases found <;> simp [answer]

/-- A single name is relative, does not ask to start here, and is its only name. -/
theorem of_single? {p : Path} {name : Text} (h : single? p = some name) :
    p.isAbsolute = false ∧ p.startsHere = false ∧ p.names = [name] := by
  unfold single? at h
  split at h
  · simp at h
  · next hplain =>
    split at h
    · next name' hnames =>
      obtain rfl := Option.some.inj h
      simpa [hnames] using hplain
    · simp at h

theorem name_of_single? {p : Path} {name : Text} (h : single? p = some name) :
    name ≠ [] ∧ '/' ∉ name := by
  have hin : name ∈ p.names := by simp [(of_single? h).2.2]
  rw [Path.names_eq] at hin
  exact Path.mem_parts (List.mem_filter.mp hin).1

/-- The loop over the directories finds the first place with a file. -/
theorem findSome?_fileAt? {σ : Type} (host : Host σ) (m : σ) (place : Text → Path)
    (dirs : List Text) : (dirs.findSome? fun dir => fileAt? host m (place dir)) =
      (dirs.map place).find? (host.isFile m) := by
  induction dirs with
  | nil => rfl
  | cons dir dirs ih =>
    rw [List.findSome?_cons, List.map_cons, List.find?_cons, ih, fileAt?]
    cases host.isFile m (place dir) <;> rfl

/-- **The runtime is the first of its places that leads to a file**, with the directories of the
search path as they are written. -/
theorem findRuntime_eq {m : Machine} {env : Environment} {runtime : Text}
    (hcurrent : env.currentDir.isAbsolute = true) :
    findRuntime Machine.host m env runtime =
      answer runtime ((placesOf env runtime id).find? (m.disk.isFile m.directory)) := by
  suffices hfound : findProgram? Machine.host m ((env.get? programsVar).getD []) env.currentDir
      ⟨runtime⟩ = (placesOf env runtime id).find? (m.disk.isFile m.directory) by
    rw [findRuntime, hfound]
    cases (placesOf env runtime id).find? (m.disk.isFile m.directory) <;> rfl
  have hone : ∀ p, fileAt? Machine.host m p = [p].find? (m.disk.isFile m.directory) := by
    intro p
    rw [List.find?_singleton]
    rfl
  unfold placesOf
  cases hsingle : single? ⟨runtime⟩ with
  | some name =>
    obtain ⟨habs, hhere, hnames⟩ := of_single? hsingle
    rw [findProgram?, if_neg (by simp [habs]), if_neg (by simp [hhere]), hnames]
    exact findSome?_fileAt? Machine.host m _ _
  | none =>
    unfold findProgram?
    split
    · next habs => rw [hone, Path.join, if_pos habs]
    · next habs =>
      split
      · exact hone _
      · next hhere =>
        split
        · next hnames =>
          -- nothing is asked for, and the current directory is no file
          have hempty : runtime = [] :=
            Path.text_eq_nil_of_names (by simpa using habs) (by simpa using hhere) hnames
          rw [← hone, fileAt?, hempty]
          exact (if_neg (Bool.eq_false_iff.mp (isFile_join_nil hcurrent))).symm
        · next name hnames => simp [single?, habs, hhere, hnames] at hsingle
        · exact hone _

-- ---------------------------------------------------------------------------
-- What the lookup depends on
-- ---------------------------------------------------------------------------

/-- What the toolchain finds when it is at a place. -/
def lookupFrom (m : Machine) (env : Environment) (runtime : Text) (base : Location) :
    Except Failure Path :=
  findRuntime Machine.host { m with directory := base } env runtime

/-- What the snapshot says: every directory of the search path is taken from the current directory,
and the first place that leads to a file is the runtime. -/
def snapshotAnswer (m : Machine) (env : Environment) (runtime : Text) : Except Failure Path :=
  answer runtime ((placesOf env runtime env.currentDir.join).find? (m.disk.isFile []))

/-- Started in any directory, the path is started as it is, and leads to what it leads to from
`base`. -/
def RunsFound (m : Machine) (base : Location) (p : Path) : Prop :=
  ∀ workspace, m.disk.find true workspace p = m.disk.find true base p ∧
    ∀ l q, l.program = p → m.startPath workspace l = .ok q → q = p

variable {m : Machine} {env : Environment} {runtime : Text}

/-- The lookup is the first file among its places, seen from the directory it is done in. -/
theorem lookupFrom_eq (hcurrent : env.currentDir.isAbsolute = true) (base : Location) :
    lookupFrom m env runtime base =
      answer runtime ((placesOf env runtime id).find? (m.disk.isFile base)) :=
  findRuntime_eq hcurrent

/-- The places that are asked mean those that start at the current directory, one by one. An
absolute place is the same from everywhere; a relative one has a file from somewhere if it has one
there. -/
theorem meant_placesOf (hcurrent : env.currentDir.isAbsolute = true) :
    List.Forall₂ m.disk.Meant (placesOf env runtime id)
      (placesOf env runtime env.currentDir.join) := by
  unfold placesOf
  cases hsingle : single? ⟨runtime⟩ with
  | none =>
    refine .cons ?_ .nil
    rw [Meant, if_pos (Path.isAbsolute_join hcurrent _)]
  | some name =>
    obtain ⟨hne, hslash⟩ := name_of_single? hsingle
    have hname : Path.isAbsolute ⟨name⟩ = false := Path.isAbsolute_of_notMem hslash
    rw [List.forall₂_map_left_iff, List.forall₂_map_right_iff, List.forall₂_same]
    intro dir _
    unfold Meant
    cases hdir : Path.isAbsolute ⟨dir⟩ with
    | true =>
      have htop : env.currentDir.join ⟨dir⟩ = ⟨dir⟩ := if_pos hdir
      rw [id, if_pos (Path.isAbsolute_join hdir _), htop]
    | false =>
      rw [id, if_neg (by simp [Path.isAbsolute_join_relative hdir hname])]
      exact exists_isFile_of_join hcurrent hdir hne hslash

/-- The places that are meant are absolute. -/
theorem isAbsolute_of_mem_placesOf (hcurrent : env.currentDir.isAbsolute = true) {p : Path}
    (h : p ∈ placesOf env runtime env.currentDir.join) : p.isAbsolute = true := by
  unfold placesOf at h
  split at h
  · obtain ⟨dir, -, rfl⟩ := List.mem_map.mp h
    exact Path.isAbsolute_join (Path.isAbsolute_join hcurrent _) _
  · rw [List.mem_singleton.mp h]
    exact Path.isAbsolute_join hcurrent _

/-- An absolute path is no plain name, and leads to the same from everywhere. -/
theorem runsFound_of_isAbsolute {base : Location} {p : Path} (hp : p.isAbsolute = true) :
    RunsFound m base p := by
  intro workspace
  refine ⟨find_base hp, fun l q hprogram hstart => ?_⟩
  subst hprogram
  obtain ⟨body, hbody⟩ := Path.isAbsolute_iff.mp hp
  have hpath : l.isPlain = false := by simp [Launch.isPlain, hbody]
  rw [Machine.startPath, if_neg (by simp [hpath])] at hstart
  split at hstart
  · simp at hstart
  · exact (Except.ok.inj hstart).symm

/-- The places are steady if the runtime is no single name or all entries of the search path are
absolute. -/
theorem steady_placesOf (hcurrent : env.currentDir.isAbsolute = true)
    (h : single? ⟨runtime⟩ = none ∨ ∀ dir ∈ searched env, Path.isAbsolute ⟨dir⟩ = true) :
    m.disk.Steady (placesOf env runtime id) := by
  refine steady_of_absolute fun p hp => ?_
  unfold placesOf at hp
  split at hp
  · next name hsingle =>
    obtain ⟨dir, hdir, rfl⟩ := List.mem_map.mp hp
    exact Path.isAbsolute_join (h.resolve_left (by simp [hsingle]) dir hdir) _
  · rw [List.mem_singleton.mp hp]
    exact Path.isAbsolute_join hcurrent _

/-- Where the places are not steady, there is a place from which the toolchain finds a relative
path. -/
theorem exists_relative_answer (hcurrent : env.currentDir.isAbsolute = true)
    (h : ¬ m.disk.Steady (placesOf env runtime id)) :
    ∃ base p, lookupFrom m env runtime base = .ok p ∧ p.isAbsolute = false ∧
      m.disk.isFile base p = true := by
  obtain ⟨base, p, hfirst, hp⟩ := exists_relative_first h
  refine ⟨base, p, ?_, hp, List.find?_some hfirst⟩
  rw [lookupFrom_eq hcurrent, hfirst]
  rfl

/-- **The snapshot and nothing else.** The lookup finds the first place that is a file, with the
directories of the search path as they are written and relative ones taken from where the toolchain
is. So the following are the same: no relative directory of the search path can come first; it does
not matter where the toolchain is; only absolute paths are found; whatever is found is what is
started later, in any workspace; the answer is that of the snapshot. It is so for every runtime that
is not a single name, and if all directories of the search path are absolute. -/
theorem runtime_lookup_tfae (m : Machine) (env : Environment) (runtime : Text)
    (hcurrent : env.currentDir.isAbsolute = true) :
    (∀ base, lookupFrom m env runtime base =
      answer runtime ((placesOf env runtime id).find? (m.disk.isFile base))) ∧
    List.TFAE [
      m.disk.Steady (placesOf env runtime id),
      ∀ base base', lookupFrom m env runtime base = lookupFrom m env runtime base',
      ∀ base p, lookupFrom m env runtime base = .ok p → p.isAbsolute = true,
      ∀ base p, lookupFrom m env runtime base = .ok p → RunsFound m base p,
      ∀ base, lookupFrom m env runtime base = snapshotAnswer m env runtime] ∧
    ((single? ⟨runtime⟩ = none ∨ ∀ dir ∈ searched env, Path.isAbsolute ⟨dir⟩ = true) →
      m.disk.Steady (placesOf env runtime id)) := by
  refine ⟨lookupFrom_eq hcurrent, ?_, fun h => ?_⟩
  · -- from a place where nothing is, a relative path is never found
    obtain ⟨nowhere, hnowhere⟩ := exists_missing m.disk
    tfae_have 1 → 5 := by
      intro hsteady base
      rw [lookupFrom_eq hcurrent, hsteady.find?_eq (meant_placesOf hcurrent) base]
      rfl
    tfae_have 5 → 2 := fun h base base' => (h base).trans (h base').symm
    tfae_have 5 → 3 := by
      intro h base p hp
      rw [h base, snapshotAnswer, answer_eq_ok] at hp
      exact isAbsolute_of_mem_placesOf hcurrent (List.mem_of_find?_eq_some hp)
    tfae_have 3 → 4 := fun h base p hp => runsFound_of_isAbsolute (h base p hp)
    tfae_have 2 → 1 := by
      intro h
      by_contra hsteady
      obtain ⟨base, p, hanswer, hp, -⟩ := exists_relative_answer hcurrent hsteady
      rw [h base nowhere, lookupFrom_eq hcurrent, answer_eq_ok] at hanswer
      have hfile := List.find?_some hanswer
      exact absurd (hfile.symm.trans (isFile_of_missing hnowhere hp)) (by simp)
    tfae_have 4 → 1 := by
      intro h
      by_contra hsteady
      obtain ⟨base, p, hanswer, hp, hfile⟩ := exists_relative_answer hcurrent hsteady
      have hsame : m.disk.isFile nowhere p = m.disk.isFile base p := by
        unfold Disk.isFile
        rw [(h base p hanswer nowhere).1]
      rw [hfile, isFile_of_missing hnowhere hp] at hsame
      exact absurd hsame (by simp)
    tfae_finish
  · exact steady_placesOf hcurrent h

namespace LookupSample

def machine : Machine where
  disk := ⟨[(["app".toList], .directory), (["app".toList, "rt".toList], .file [] true),
    (["far".toList], .directory), (["far".toList, "rt".toList], .file [] true),
    (["tmp".toList], .directory)]⟩

def searching (search : String) : Environment where
  vars := [(programsVar, search.toList)]
  currentDir := .ofString "/app"

/-- How a runtime is started in the directory `/tmp`. -/
def launch (program : Path) (search : String) : Launch where
  program
  argument := .ofString "/tmp/main.js"
  vars := (searching search).vars
  directory := .ofString "/tmp"
  limitMs := none

theorem steady : machine.disk.Steady (placesOf (searching "/far:bin:") "rt".toList id) := by
  refine Or.inl ?_
  cbv

theorem snapshotAnswer_far :
    snapshotAnswer machine (searching "/far:bin:") "rt".toList = .ok (.ofString "/far/rt") := by
  cbv

end LookupSample

open LookupSample in
/-- Relative directories of the search path do no harm behind an absolute one that has the
runtime. -/
theorem runtime_lookup_tfae_absolute_first :
    lookupFrom machine (searching "/far:bin:") "rt".toList ["app".toList] =
      .ok (.ofString "/far/rt") ∧
    RunsFound machine ["app".toList] (.ofString "/far/rt") := by
  obtain ⟨-, htfae, -⟩ :=
    runtime_lookup_tfae machine (searching "/far:bin:") "rt".toList (by decide)
  have hsnapshot := (htfae.out 0 4).mp steady
  have hruns := (htfae.out 0 3).mp steady
  have hanswer := (hsnapshot ["app".toList]).trans snapshotAnswer_far
  exact ⟨hanswer, hruns _ _ hanswer⟩

open LookupSample in
/-- An empty directory of the search path: the toolchain finds the runtime beside the source, as a
plain name, and the workspace starts another one. -/
theorem empty_entry_starts_another :
    lookupFrom machine (searching ":/far") "rt".toList ["app".toList] = .ok (.ofString "rt") ∧
    lookupFrom machine (searching ":/far") "rt".toList [] = .ok (.ofString "/far/rt") ∧
    snapshotAnswer machine (searching ":/far") "rt".toList = .ok (.ofString "/app/rt") ∧
    machine.startPath ["tmp".toList] (launch (.ofString "rt") ":/far") =
      .ok (.ofString "/far/rt") := by
  refine ⟨?_, ?_, ?_, ?_⟩
  · cbv
  · cbv
  · cbv
  · cbv

end Toolchain

end Sandscript
