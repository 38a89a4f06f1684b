import Mathlib
import Sandscript.Proofs.Recording
import Sandscript.Proofs.WorkspaceFrame

/-!
# The lifetime of a workspace

Between the making of a workspace and its removal a lot can fail, and nothing that fails ends the
execution before the removal. What is recorded of an execution shows this for every machine
(`events_of_made`).

That a removal which succeeds leaves nothing is a matter of disks. The way to the removed place may
lead through links, and through the place itself. On the disk after the removal the same way stops
at the first place that is gone, or ends at a place where nothing is (`Walks.get?_after_removal`).
-/

namespace Sandscript

-- ---------------------------------------------------------------------------
-- Walking to a place that was removed
-- ---------------------------------------------------------------------------

namespace Disk

/-- After a removal nothing is left at or below its top. -/
theorem get?_prune_under (d : Disk) {l l' : Location} (hl : l ≠ []) (h : l <+: l') :
    (d.prune l).get? l' = none := by
  have hne : l' ≠ [] := by
    rintro rfl
    exact hl (List.prefix_nil.mp h)
  rw [get?_of_ne_nil _ hne, List.lookup_eq_none_iff]
  intro x hx
  obtain ⟨-, houtside⟩ := List.mem_filter.mp hx
  rw [Bool.not_eq_true', Bool.eq_false_iff, Ne, List.isPrefixOf_iff_prefix] at houtside
  rw [bne_iff_ne]
  rintro rfl
  exact houtside h

/-- A walk that goes on is not at or below a place that was removed. -/
theorem outside_of_walk_prune {d : Disk} {followLast : Bool} {links : Nat} {at_ l l' : Location}
    {step : Text} {rest : List Text} (hl : l ≠ [])
    (h : (d.prune l).walk followLast links at_ (step :: rest) = .ok l') : ¬ l <+: at_ := by
  intro hunder
  rw [walk, get?_prune_under d hl hunder] at h
  exact absurd h (by simp)

/-- A walk that does not follow a link at its end, and whose last step is a name, ends at a place of
that name. -/
theorem Walks.ends_with_name {d : Disk} {links : Nat} {at_ l : Location} {ps : List Text}
    {name : Text} (h : Walks d false links at_ ps l) (hlast : ps.getLast? = some name)
    (hdot : name ≠ ['.']) (hdots : name ≠ ['.', '.']) : l.getLast? = some name := by
  induction h with
  | done => exact absurd hlast (by simp)
  | @stay links at_ l rest _ hrest ih =>
    cases rest with
    | nil => exact absurd (Option.some.inj hlast).symm hdot
    | cons step rest => exact ih (by simpa [List.getLast?_cons_cons] using hlast)
  | @up links at_ l rest _ hrest ih =>
    cases rest with
    | nil => exact absurd (Option.some.inj hlast).symm hdots
    | cons step rest => exact ih (by simpa [List.getLast?_cons_cons] using hlast)
  | halt _ _ _ => rwa [List.getLast?_concat]
  | @follow links at_ l step rest target _ _ _ hmust _ ih =>
    have hne : rest ≠ [] := by simpa using hmust
    refine ih ?_
    rw [List.getLast?_append_of_ne_nil _ hne]
    rwa [List.getLast?_cons_of_ne_nil hne] at hlast
  | @down links at_ l step rest e _ _ _ _ hrest ih =>
    cases rest with
    | nil =>
      cases hrest
      rwa [List.getLast?_concat]
    | cons next rest => exact ih (by simpa [List.getLast?_cons_cons] using hlast)

/-- **The way to a removed place.** Where a walk led before the place was removed, nothing is found
afterwards, whether or not a link at the end is followed now. -/
theorem Walks.get?_after_removal {d : Disk} {links : Nat} {at_ l l' : Location} {ps : List Text}
    {followLast : Bool} (h : Walks d false links at_ ps l) (hl : l ≠ [])
    (hafter : (d.prune l).walk followLast links at_ ps = .ok l') :
    (d.prune l).get? l' = none := by
  induction h with
  | @done links at_ =>
    rw [walk] at hafter
    obtain rfl := Except.ok.inj hafter
    exact get?_prune_under d hl (List.prefix_refl _)
  | stay hdir _ ih =>
    have houtside := outside_of_walk_prune hl hafter
    rw [walk, get?_prune d houtside, hdir] at hafter
    exact ih hl hafter
  | up hdir _ ih =>
    have houtside := outside_of_walk_prune hl hafter
    rw [walk, get?_prune d houtside, hdir] at hafter
    exact ih hl hafter
  | @halt links at_ step hdir hdown _ =>
    have hgone := get?_prune_under d hl (List.prefix_refl _)
    have houtside := outside_of_walk_prune hl hafter
    rw [walk_goesDown ((get?_prune d houtside).trans hdir) hdown, hgone] at hafter
    obtain rfl := Except.ok.inj hafter
    exact hgone
  | @follow links at_ l step rest target hdir hdown hlink hmust _ ih =>
    -- a link that was passed is gone with the place, or leads where it led
    have hne : rest ≠ [] := by simpa using hmust
    have houtside := outside_of_walk_prune hl hafter
    rw [walk_goesDown ((get?_prune d houtside).trans hdir) hdown] at hafter
    by_cases hunder : l <+: at_ ++ [step]
    · rw [get?_prune_under d hl hunder] at hafter
      exact absurd hafter (by simp [hne])
    · rw [get?_prune d hunder, hlink] at hafter
      exact ih hl (by simpa [hne] using hafter)
  | @down links at_ l step rest e hdir hdown hentry hlink _ ih =>
    have houtside := outside_of_walk_prune hl hafter
    rw [walk_goesDown ((get?_prune d houtside).trans hdir) hdown] at hafter
    by_cases hunder : l <+: at_ ++ [step]
    · have hgone := get?_prune_under d hl hunder
      rw [hgone] at hafter
      cases rest with
      | nil =>
        obtain rfl := Except.ok.inj hafter
        exact hgone
      | cons next rest => exact absurd hafter (by simp)
    · rw [get?_prune d hunder, hentry] at hafter
      cases e with
      | file bytes executable => exact ih hl hafter
      | directory => exact ih hl hafter
      | link target => exact absurd rfl (hlink target)

/-- After a tree was removed, its path leads to nothing. -/
theorem find_after_removal {d d' : Disk} {base : Location} {p : Path} {name : Text}
    (hp : p.isAbsolute = true) (hlast : (steps p).getLast? = some name) (hdot : name ≠ ['.'])
    (hdots : name ≠ ['.', '.']) (h : d.removeTree base p = .ok d') (followLast : Bool)
    (base' : Location) (found : Location × Entry) : d'.find followLast base' p ≠ .ok found := by
  obtain ⟨l, hlocate, rfl⟩ := removeTree_eq_ok h
  have hwalk := walks_of_walk (locate_of_isAbsolute hp hlocate)
  have hl : l ≠ [] := by
    rintro rfl
    exact absurd (hwalk.ends_with_name hlast hdot hdots) (by simp)
  intro hfind
  rw [find] at hfind
  split at hfind
  · exact absurd hfind (by simp)
  · next l' hlocate' =>
    rw [hwalk.get?_after_removal hl (locate_of_isAbsolute hp hlocate')] at hfind
    exact absurd hfind (by simp)

end Disk

namespace Machine

theorem spelled_workspaceName (issued : Nat) : Path.Spelled (workspaceName issued) := by
  have hslash := Workspace.slash_notMem_workspaceName issued
  obtain ⟨rest, hfirst⟩ : ∃ rest, workspaceName issued = 'f' :: rest := ⟨_, rfl⟩
  rw [hfirst] at hslash ⊢
  exact ⟨by simp, hslash, by simp, by simp⟩

/-- The path of a workspace is absolute and ends with the workspace's name. -/
theorem path_of_makeWorkspace {m : Machine} {parent p : Path}
    (h : (m.makeWorkspace parent).1 = .ok p) :
    p.isAbsolute = true ∧ (Disk.steps p).getLast? = some (workspaceName m.issued) := by
  have hp : (m.directory.toPath.join parent).join ⟨workspaceName m.issued⟩ = p := by
    rw [makeWorkspace] at h
    split at h
    · exact absurd h (by simp)
    · exact Except.ok.inj h
  have hname := spelled_workspaceName m.issued
  rw [← hp]
  constructor
  · exact Path.isAbsolute_join (Path.isAbsolute_join (Path.isAbsolute_iff.mpr ⟨_, rfl⟩) _) _
  · generalize workspaceName m.issued = name at hname
    have hspelled : ∀ part ∈ [name], Path.Spelled part := by
      intro part hpart
      rwa [List.mem_singleton.mp hpart]
    have hparts : Path.parts ⟨name⟩ = [name] := Path.parts_ofNames hspelled
    rw [Path.steps_join _ hname.1 hname.2.1,
      Path.parts_join _ (Path.isAbsolute_of_notMem hname.2.1), hparts, List.getLast?_concat]

/-- A workspace whose removal succeeds is gone. -/
theorem find_after_removeTree {m m' : Machine} {parent p : Path}
    (hmade : (m.makeWorkspace parent).1 = .ok p) (h : (m'.removeTree p).1 = .ok ())
    (followLast : Bool) (base : Location) (found : Location × Entry) :
    (m'.removeTree p).2.disk.find followLast base p ≠ .ok found := by
  obtain ⟨habsolute, hlast⟩ := path_of_makeWorkspace hmade
  obtain ⟨-, -, hdot, hdots⟩ := spelled_workspaceName m.issued
  unfold removeTree at h ⊢
  rcases hremove : m'.disk.removeTree m'.directory p with e | d'
  · rw [hremove] at h
    exact absurd h (by simp)
  · exact Disk.find_after_removal habsolute hlast hdot hdots hremove followLast base found

end Machine

namespace Event

/-- An event that puts something neither makes nor removes a workspace and starts no program. -/
theorem kinds_of_puts {e : Event} (h : e.puts = true) :
    e.makes = false ∧ e.removes = false ∧ e.starts = false := by
  cases e with
  | makeWorkspace | removeTree | launch => exact absurd h (by simp [puts])
  | makeDirectories | copyLink | copyFile | writeFile => exact ⟨rfl, rfl, rfl⟩

end Event

namespace Execution

variable {σ : Type}

-- ---------------------------------------------------------------------------
-- Executions
-- ---------------------------------------------------------------------------

/-- What is returned does not depend on the removal, neither on how it is done nor on its
answer. -/
theorem result_of_removal (host : Host σ) (env : Environment) (job : Job) (s : Session σ)
    (remove : σ → Path → Except IoError Unit × σ) :
    (execute { host with removeTree := remove } env job s).1 = (execute host env job s).1 := by
  rcases execute_cases host env job s with ⟨e, hmake, hexecute⟩ | ⟨workspace, hmake, hexecute⟩
  · rcases execute_cases { host with removeTree := remove } env job s with
      ⟨e', hmake', hexecute'⟩ | ⟨workspace, hmake', -⟩
    · rw [hexecute, hexecute', Except.error.inj (hmake.symm.trans hmake')]
    · exact absurd (hmake.symm.trans hmake') (by simp)
  · have hmake' : ({ host with removeTree := remove }.makeWorkspace s.machine
        job.workspaceParent).1 = .ok workspace := hmake
    rw [hexecute, execute_of_made hmake']
    rfl

/-- What is recorded between the making of a workspace and its removal: neither of the two, and at
most one start of a program. So the making and the removal are the first and the last event. -/
theorem record_of_made {host : Host σ} {job : Job} {s : Session σ} {workspace : Path}
    (h : (host.makeWorkspace s.machine job.workspaceParent).1 = .ok workspace)
    (env : Environment) :
    ∃ inside, events host env job s =
        .makeWorkspace job.workspaceParent (.ok workspace) :: inside ++
          [.removeTree workspace (host.removeTree
            (runIn host env job workspace (made host job s)).2.machine workspace).1] ∧
      (∀ e ∈ inside, e.makes = false ∧ e.removes = false) ∧ inside.countP Event.starts ≤ 1 := by
  obtain ⟨new, start, hputs, hstart, hevents⟩ := events_of_made h env
  have hnone : new.countP Event.starts = 0 := by
    rw [List.countP_eq_zero]
    intro e he
    simp [Event.kinds_of_puts (hputs e he)]
  refine ⟨new ++ start, hevents, ?_, ?_⟩
  · intro e he
    rcases List.mem_append.mp he with he | he
    · obtain ⟨hmakes, hremoves, -⟩ := Event.kinds_of_puts (hputs e he)
      exact ⟨hmakes, hremoves⟩
    · rcases hstart with rfl | ⟨l, answer, rfl⟩
      · exact absurd he List.not_mem_nil
      · obtain rfl := List.mem_singleton.mp he
        exact ⟨rfl, rfl⟩
  · rw [List.countP_append, hnone, Nat.zero_add]
    rcases hstart with rfl | ⟨l, answer, rfl⟩
    · exact Nat.zero_le 1
    · exact Nat.le_refl 1

/-- **The lifetime of a workspace.** Once a workspace was made, it is asked to be removed exactly
once, as the last thing of all; in between at most one program is started. What is returned is the
result of what was done in it, whatever the removal does or answers. On the disk of a machine, with
any other operations, nothing is found at its path after a removal that succeeded. -/
theorem workspace_lifetime :
    (∀ (σ : Type) (host : Host σ) (env : Environment) (job : Job) (s : Session σ)
      (workspace : Path), (host.makeWorkspace s.machine job.workspaceParent).1 = .ok workspace →
      (∃ inside answer, events host env job s =
          .makeWorkspace job.workspaceParent (.ok workspace) :: inside ++
            [.removeTree workspace answer] ∧
        (∀ e ∈ inside, e.makes = false ∧ e.removes = false) ∧ inside.countP Event.starts ≤ 1) ∧
      (execute host env job s).1 =
        report workspace (runIn host env job workspace (made host job s)).1 ∧
      ∀ remove, (execute { host with removeTree := remove } env job s).1 =
        (execute host env job s).1) ∧
    ∀ (host : Host Machine) (env : Environment) (job : Job) (s : Session Machine)
      (workspace : Path), host.makeWorkspace = Machine.makeWorkspace →
      host.removeTree = Machine.removeTree →
      (host.makeWorkspace s.machine job.workspaceParent).1 = .ok workspace →
      .removeTree workspace (.ok ()) ∈ events host env job s →
      ∀ followLast base found,
        (execute host env job s).2.machine.disk.find followLast base workspace ≠ .ok found := by
  constructor
  · intro σ host env job s workspace hmade
    obtain ⟨inside, hevents, hkinds, hstarts⟩ := record_of_made hmade env
    refine ⟨⟨inside, _, hevents, hkinds, hstarts⟩, ?_, result_of_removal host env job s⟩
    rw [execute_of_made hmade]
  · intro host env job s workspace hmake hremove hmade hremoved
    obtain ⟨inside, hevents, hkinds, -⟩ := record_of_made hmade env
    obtain ⟨log, hsession⟩ := removeWorkspace_eq host workspace
      (runIn host env job workspace (made host job s)).2
    -- no other removal was recorded, so this is the answer that the machine gave
    have hanswer : (host.removeTree (runIn host env job workspace (made host job s)).2.machine
        workspace).1 = .ok () := by
      rw [hevents, List.cons_append, List.mem_cons, List.mem_append] at hremoved
      rcases hremoved with hfirst | hinside | hlast
      · exact absurd hfirst (by simp)
      · exact absurd (hkinds _ hinside).2 (by simp [Event.removes])
      · exact (Event.removeTree.inj (List.mem_singleton.mp hlast)).2.symm
    intro followLast base found
    rw [execute_of_made hmade, hsession, hremove]
    rw [hmake] at hmade
    rw [hremove] at hanswer
    exact Machine.find_after_removeTree hmade hanswer followLast base found

namespace LitterSample

/-- The place of the first workspace of `session`. -/
def place : Location := ["tmp".toList, "fenrir-0-xxxxx0".toList]

/-- A machine with a file in the workspace. -/
def littered (m : Machine) : Machine :=
  { m with disk := m.disk.insert (place ++ ["core".toList]) (.file [] false) }

/-- A machine that shows no files of a project, and whose programs leave a file and are killed. -/
def littering : Host Machine :=
  { Machine.host with
    isDirectory := fun _ _ => false
    isPresent := fun _ _ => false
    writeFile := fun m _ _ => (.ok (), m)
    launch := fun m _ => (.ok ⟨[], [], .killed 9⟩, littered m) }

def session : Session Machine :=
  { machine := { disk := ⟨[(["tmp".toList], .directory)]⟩ }, out := .unbounded, err := .unbounded }

def environment : Environment := ⟨[], .ofString "/app"⟩

def job : Job :=
  { program := ⟨"log(1)".toList⟩, root := .ofString "/app", runtime := .ofString "/bin/true"
    limitMs := none, dependencyDir := "lib".toList, debug := false
    workspaceParent := .ofString "/tmp" }

end LitterSample

open LitterSample

/-- A program that leaves a file behind and is killed: the workspace is gone, with the file. -/
theorem workspace_lifetime_killed :
    (littering.makeWorkspace session.machine job.workspaceParent).1 = .ok place.toPath ∧
    (∃ inside answer, events littering environment job session =
        .makeWorkspace job.workspaceParent (.ok place.toPath) :: inside ++
          [.removeTree place.toPath answer]) ∧
    .removeTree place.toPath (.ok ()) ∈ events littering environment job session ∧
    ∀ followLast base found, (execute littering environment job session).2.machine.disk.find
      followLast base place.toPath ≠ .ok found := by
  have hmade : (littering.makeWorkspace session.machine job.workspaceParent).1 =
      .ok place.toPath := by cbv
  obtain ⟨⟨inside, answer, hevents, -⟩, -⟩ :=
    workspace_lifetime.1 Machine littering environment job session place.toPath hmade
  have hremoved :
      .removeTree place.toPath (.ok ()) ∈ events littering environment job session := by
    obtain ⟨inside, hevents, -⟩ := record_of_made hmade environment
    have hleft : (runIn littering environment job place.toPath
        (made littering job session)).2.machine =
        littered (made littering job session).machine := rfl
    have hanswer : (littering.removeTree (littered (made littering job session).machine)
        place.toPath).1 = .ok () := by cbv
    rw [hevents, hleft, hanswer]
    exact List.mem_append_right _ (List.mem_singleton.mpr rfl)
  exact ⟨hmade, ⟨inside, answer, hevents⟩, hremoved,
    workspace_lifetime.2 littering environment job session place.toPath rfl rfl hmade hremoved⟩

end Execution

end Sandscript
