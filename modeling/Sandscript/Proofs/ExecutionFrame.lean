import Mathlib
import Sandscript.Proofs.Stages
import Sandscript.Proofs.WorkspaceFrame

/-!
# What an execution leaves alone

An execution copies parts of a project into a workspace, writes two files there, runs one program
and removes the workspace. Apart from what the program does, nothing outside the workspace changes,
provided that the copy of the dependencies stays inside (`Contained`). The name of the dependency
directory is joined to the workspace's path as it is, so this can fail in three ways.

* `Framed` — how an execution changed a disk, told by what the program was given and what it left.
* `execute_frame` — the theorem, for programs that do anything.
* `uncontained_dependencies_escape` — a project for which each of the three ways out is taken.
-/

namespace Sandscript

open Disk (SameOutside onwards staysBelow)
open Workspace (Site Ready hostWith written)

namespace Workspace

variable {d₀ : Disk} {p : Path} {W : Location}
  {launch : Machine → Launch → Except IoError Child × Machine}

-- ---------------------------------------------------------------------------
-- Copying
-- ---------------------------------------------------------------------------

/-- The copy of a project's dependencies stays in the workspace: their directory is given by a
relative path that never climbs, and if it is the project itself, no link is in the way of the
files at the top. -/
structure Contained (d : Disk) (base : Location) (root : Path) (dep : Text) : Prop where
  relative : Path.isAbsolute ⟨dep⟩ = false
  stays : staysBelow [] (Path.parts ⟨dep⟩) = true
  free : onwards [] (Path.parts ⟨dep⟩) = [] → ∀ name ∈ written,
    ⟨[name.toList], .link⟩ ∉ d.tree base (root.join ⟨dep⟩)

/-- After the dependencies were copied, no link is in the way of the files at the top. If the
directory is not there nothing was copied, and otherwise it is contained, which is what the
invariant of the copying needs. -/
theorem ready_dependencies {m : Machine} (site : Site d₀ p W) (hd : d₀.Lawful)
    (hdisk : m.disk = d₀.insert W .directory) (hlaw : m.disk.Lawful) {root : Path} {dep : Text}
    (hsafe : m.disk.isDirectory m.directory (root.join ⟨dep⟩) = true →
      Contained m.disk m.directory root dep) :
    Ready d₀ W (copyAll (CopyStep.perform (hostWith launch))
      (dependencySteps (hostWith launch) m p root dep) m).2.disk := by
  rw [dependencySteps]
  split
  · next hdir =>
    obtain ⟨hrelative, hstays, hfree⟩ := hsafe hdir
    have hitems := tidy_tree hlaw m.directory (root.join ⟨dep⟩)
    have hnew : Prepared d₀ W (MayLink (Path.parts ⟨dep⟩)
        (m.disk.tree m.directory (root.join ⟨dep⟩))) m.disk := by
      rw [hdisk]
      exact prepared_new site hd
    refine Prepared.ready (copyAll_keeps (P := fun m : Machine => Prepared d₀ W _ m.disk)
      (fun step hstep m hm => ?_) hnew) hfree
    exact hm.perform site hrelative hstays hitems hstep
  · have hnew : Prepared d₀ W (MayLink [] []) m.disk := by
      rw [hdisk]
      exact prepared_new site hd
    exact hnew.ready (by simp)

/-- Copying the descriptions keeps the workspace ready: they are among the names that are no links.
-/
theorem ready_descriptions {m : Machine} (site : Site d₀ p W) (hm : Ready d₀ W m.disk)
    (root : Path) :
    Ready d₀ W (copyAll (CopyStep.perform (hostWith launch))
      (descriptionSteps (hostWith launch) m p root) m).2.disk := by
  refine copyAll_keeps (P := fun m : Machine => Ready d₀ W m.disk) (fun step hstep m' hm' => ?_) hm
  rw [descriptionSteps, List.mem_map] at hstep
  obtain ⟨name, hname, rfl⟩ := hstep
  have hwritten : name ∈ written := List.mem_append_left _ (List.mem_of_mem_filter hname)
  refine change_keeps hm' fun d' hcopy => ?_
  obtain ⟨l, bytes, mode, hputs, rfl⟩ := Disk.copyFile_eq_ok hcopy
  exact hm'.put site hwritten hputs

theorem ready_write {m : Machine} (site : Site d₀ p W) (hm : Ready d₀ W m.disk) {name : String}
    (hname : name ∈ written) (bytes : Bytes) :
    Ready d₀ W ((hostWith launch).writeFile m (p.child name) bytes).2.disk := by
  refine change_keeps hm fun d' hwrite => ?_
  obtain ⟨l, mode, hputs, rfl⟩ := Disk.writeFile_eq_ok hwrite
  exact hm.put site hname hputs

end Workspace

namespace Execution

variable {d₀ : Disk} {p : Path} {W : Location}
  {launch : Machine → Launch → Except IoError Child × Machine}

/-- Writing the prelude and the program keeps the workspace ready, also if the first fails. -/
theorem ready_writeProgram {m : Machine} (site : Site d₀ p W) (hm : Ready d₀ W m.disk)
    (program : Program) : Ready d₀ W (writeProgram (hostWith launch) program p m).2.disk := by
  have hprelude : Ready d₀ W ((hostWith launch).writeFile m (p.child Prelude.fileName)
      (Utf8.encode Prelude.text)).2.disk := Workspace.ready_write site hm (by decide) _
  rw [writeProgram]
  split
  · next e m' h =>
    rw [h] at hprelude
    exact hprelude
  · next m' h =>
    rw [h] at hprelude
    exact Workspace.ready_write site hprelude (by decide) _

-- ---------------------------------------------------------------------------
-- Running
-- ---------------------------------------------------------------------------

/-- Forwarding output does not touch the machine. -/
theorem machine_forwardOutput {σ : Type} (c : Child) (s : Session σ) :
    (forwardOutput c s).2.machine = s.machine := by
  have hloss : ∀ (name : String) (o : Forward.Outcome) (s : Session σ),
      (reportLoss name o s).machine = s.machine := by
    intro name o s
    rw [reportLoss]
    split <;> rfl
  rw [forwardOutput]
  exact (hloss _ _ _).trans (hloss _ _ _)

/-- Of all that is done to run a program, starting it is what touches the machine. -/
theorem machine_runChild {σ : Type} (host : Host σ) (env : Environment) (job : Job)
    (workspace : Path) (searchPath : Text) (s : Session σ) :
    ∃ l, (runChild host env job workspace searchPath s).2.machine =
      (host.launch s.machine l).2 := by
  refine ⟨⟨job.runtime, workspace.child Workspace.programName,
    (env.set Environment.searchPathVar searchPath).vars, workspace, job.limitMs⟩, ?_⟩
  rw [runChild]
  split
  · next e s' h => exact (congrArg (·.2.machine) h).symm
  · next child s' h =>
    have hmachine := congrArg (·.2.machine) h
    have hforward := machine_forwardOutput child s'
    dsimp only
    split
    · exact hforward.trans hmachine.symm
    · exact hforward.trans hmachine.symm

/-- Running in a workspace prepares it, and then starts a program or does not. The streams and the
log have no part in the machine, so that this is all that can happen to it. -/
theorem machine_runIn {σ : Type} (host : Host σ) (env : Environment) (job : Job) (workspace : Path)
    (s : Session σ) :
    ∃ m, m = (writeProgram host job.program workspace
        (Workspace.copyProject host workspace job.root job.dependencyDir s.machine).2).2 ∧
      ((runIn host env job workspace s).2.machine = m ∨
        ∃ l, (runIn host env job workspace s).2.machine = (host.launch m l).2) := by
  refine ⟨_, rfl, ?_⟩
  rw [runIn]
  dsimp only
  split
  · next e s' h => exact Or.inl (congrArg (·.2.machine) h).symm
  · next s' h =>
    have hmachine := congrArg (·.2.machine) h
    split
    · exact Or.inl hmachine.symm
    · next searchPath _ =>
      right
      have hlisted : (if job.debug then listBefore job.program searchPath s' else s').machine =
          s'.machine := by split <;> rfl
      obtain ⟨l, hl⟩ := machine_runChild host env job workspace searchPath
        (if job.debug then listBefore job.program searchPath s' else s')
      rw [hlisted, ← hmachine] at hl
      refine ⟨l, Eq.trans ?_ hl⟩
      split
      · next f s'' h' => exact (congrArg (·.2.machine) h').symm
      · next code s'' h' => exact (congrArg (·.2.machine) h').symm

/-- Removing a workspace takes away what its path leads to, if that can be found. -/
theorem disk_removeWorkspace (launch : Machine → Launch → Except IoError Child × Machine)
    (workspace : Path) (s : Session Machine) :
    (removeWorkspace (hostWith launch) workspace s).machine.disk = s.machine.disk ∨
      ∃ l, s.machine.disk.locate false s.machine.directory workspace = .ok l ∧
        (removeWorkspace (hostWith launch) workspace s).machine.disk = s.machine.disk.prune l := by
  have hmachine : (removeWorkspace (hostWith launch) workspace s).machine =
      (s.machine.removeTree workspace).2 := by
    rw [removeWorkspace]
    split
    · next s' h => exact (congrArg (·.2.machine) h).symm
    · next e s' h => exact (congrArg (·.2.machine) h).symm
  rw [hmachine, Machine.removeTree]
  split
  · exact Or.inl rfl
  · next d' h =>
    obtain ⟨l, hl, rfl⟩ := Disk.removeTree_eq_ok h
    exact Or.inr ⟨l, hl, rfl⟩

/-- Removing the workspace changes nothing outside it, provided its path leads to nothing else. A
removal that fails changes nothing at all. -/
theorem sameOutside_removeWorkspace {workspace : Path} (hpath : workspace.isAbsolute = true)
    {d : Disk} {s : Session Machine} (hsame : SameOutside W d s.machine.disk)
    (hway : ∀ l, s.machine.disk.locate false [] workspace = .ok l → l = W) :
    SameOutside W d (removeWorkspace (hostWith launch) workspace s).machine.disk := by
  rcases disk_removeWorkspace launch workspace s with hkept | ⟨l, hl, hpruned⟩
  · rw [hkept]
    exact hsame
  · rw [Disk.locate_base hpath] at hl
    rw [hpruned, hway l hl]
    exact hsame.trans (Disk.sameOutside_prune W _)

/-- If no workspace was made, the execution ends there: the machine is as the attempt left it. -/
theorem machine_execute_of_error {σ : Type} {host : Host σ} {env : Environment} {job : Job}
    {s : Session σ} {e : IoError}
    (h : (host.makeWorkspace s.machine job.workspaceParent).1 = .error e) :
    (execute host env job s).2.machine = (host.makeWorkspace s.machine job.workspaceParent).2 := by
  have hact : s.act (host.makeWorkspace · job.workspaceParent) =
      (.error e, { s with machine := (host.makeWorkspace s.machine job.workspaceParent).2 }) :=
    Prod.ext h rfl
  rw [execute, hact]

/-- If a workspace was made, the session after the execution is that of the run in it, with the
workspace removed. -/
theorem session_execute_of_ok {σ : Type} {host : Host σ} {env : Environment} {job : Job}
    {s : Session σ} {workspace : Path}
    (h : (host.makeWorkspace s.machine job.workspaceParent).1 = .ok workspace) :
    (execute host env job s).2 = removeWorkspace host workspace (runIn host env job workspace
      { s with machine := (host.makeWorkspace s.machine job.workspaceParent).2 }).2 := by
  have hact : s.act (host.makeWorkspace · job.workspaceParent) =
      (.ok workspace, { s with machine := (host.makeWorkspace s.machine job.workspaceParent).2 }) :=
    Prod.ext h rfl
  rw [execute, hact]
  dsimp only
  split <;> rfl

end Execution

-- ---------------------------------------------------------------------------
-- The theorem
-- ---------------------------------------------------------------------------

/-- How an execution changed the disk `d₀` to the disk `d`, with a workspace at `W`: what the
program was given, and what it left. Where none was started these are the same. -/
structure Framed (launch : Machine → Launch → Except IoError Child × Machine) (d₀ : Disk)
    (workspace : Path) (W : Location) (given left d : Disk) : Prop where
  /-- Nothing that was there lies in the workspace. -/
  new : ∀ l, W <+: l → d₀.get? l = none
  before : SameOutside W d₀ given
  program : left = given ∨ ∃ m l, m.disk = given ∧ (launch m l).2.disk = left
  /-- Unless the program has changed where the workspace's path leads to. -/
  after : (∀ l, left.locate false [] workspace = .ok l → l = W) → SameOutside W left d
  whole : SameOutside W d₀ left → SameOutside W d₀ d

theorem makeWorkspace_of_error {m : Machine} {parent : Path} {e : IoError}
    (h : (m.makeWorkspace parent).1 = .error e) : (m.makeWorkspace parent).2 = m := by
  rw [Machine.makeWorkspace] at h ⊢
  split at h
  · rfl
  · simp at h

/-- **An execution changes nothing outside its workspace**, apart from what the program does. If no
workspace can be made, nothing changes at all. -/
theorem execute_frame (launch : Machine → Launch → Except IoError Child × Machine)
    (env : Environment) (job : Job) (s : Session Machine) (hd : s.machine.disk.Lawful)
    (hsafe : ∀ m, m = (s.machine.makeWorkspace job.workspaceParent).2 →
      m.disk.isDirectory m.directory (job.root.join ⟨job.dependencyDir⟩) = true →
      Workspace.Contained m.disk m.directory job.root job.dependencyDir) :
    (∀ e, (s.machine.makeWorkspace job.workspaceParent).1 = .error e →
      (Execution.execute (hostWith launch) env job s).2.machine = s.machine) ∧
    (∀ workspace, (s.machine.makeWorkspace job.workspaceParent).1 = .ok workspace →
      ∃ W given left,
        (s.machine.makeWorkspace job.workspaceParent).2.disk = s.machine.disk.insert W .directory ∧
        Framed launch s.machine.disk workspace W given left
          (Execution.execute (hostWith launch) env job s).2.machine.disk) := by
  refine ⟨fun e he => ?_, fun workspace hok => ?_⟩
  · exact (Execution.machine_execute_of_error he).trans (makeWorkspace_of_error he)
  · obtain ⟨W, site, hdisk, hlaw⟩ := Workspace.makeWorkspace_eq_ok hd (Prod.ext hok rfl)
    obtain ⟨s₁, hs₁, hsession⟩ : ∃ s₁ : Session Machine,
        s₁.machine = (s.machine.makeWorkspace job.workspaceParent).2 ∧
        (Execution.execute (hostWith launch) env job s).2 = Execution.removeWorkspace
          (hostWith launch) workspace (Execution.runIn (hostWith launch) env job workspace s₁).2 :=
      ⟨_, rfl, Execution.session_execute_of_ok hok⟩
    rw [hsession]
    -- up to the start of the program
    obtain ⟨m, hm, hrun⟩ := Execution.machine_runIn (hostWith launch) env job workspace s₁
    obtain ⟨mayLink, hgiven, -⟩ : Ready s.machine.disk W m.disk := by
      rw [hm, hs₁]
      refine Execution.ready_writeProgram site ?_ _
      exact Workspace.ready_descriptions site
        (Workspace.ready_dependencies site hd hdisk hlaw (hsafe _ rfl)) _
    -- and after its end
    generalize (Execution.runIn (hostWith launch) env job workspace s₁).2 = s₂ at hrun ⊢
    refine ⟨W, m.disk, s₂.machine.disk, hdisk, ?_, hgiven.same, ?_, fun hway => ?_, fun hsame => ?_⟩
    · exact fun l hl => hd.none_below site.new hl
    · rcases hrun with hnone | ⟨l, hl⟩
      · exact Or.inl (by rw [hnone])
      · exact Or.inr ⟨m, l, rfl, by rw [hl]; rfl⟩
    · exact Execution.sameOutside_removeWorkspace site.absolute (SameOutside.refl W _) hway
    · exact Execution.sameOutside_removeWorkspace site.absolute hsame fun l hl =>
        site.eq_of_locate hsame hl

namespace Sample

/-- A project with one dependency and a link to it. -/
def disk : Disk :=
  ⟨[(["tmp".toList], .directory), (["app".toList], .directory),
    (["app".toList, "lib".toList], .directory),
    (["app".toList, "lib".toList, "a.js".toList], .file [49] false),
    (["app".toList, "main.mjs".toList], .link (.ofString "/app/lib/a.js"))]⟩

def session : Session Machine :=
  { machine := { disk }, out := .unbounded, err := .unbounded }

/-- The empty program, run for the project with the given dependency directory. -/
def job (dependencyDir : String) : Job :=
  { program := ⟨[]⟩, root := .ofString "/app", runtime := .ofString "/bin/true", limitMs := none
    dependencyDir := dependencyDir.toList, debug := false, workspaceParent := .ofString "/tmp" }

/-- Programs that do nothing. -/
def idle (m : Machine) (_ : Launch) : Except IoError Child × Machine :=
  (.ok ⟨[], [], .exited 0⟩, m)

/-- The disk after the job was executed. -/
def after (dependencyDir : String) : Disk :=
  let (_, s) := Execution.execute (hostWith idle) ⟨[], .ofString "/app"⟩ (job dependencyDir) session
  s.machine.disk

theorem lawful_disk : disk.Lawful := Disk.lawful_of_entries (by decide)

end Sample

/-- A dependency directory that is written with `..` and holds what a link in the project leads
to. -/
theorem execute_frame_sample : Sample.disk.Lawful ∧
    Workspace.Contained Sample.disk [] (.ofString "/app") "./lib/../lib".toList ∧
    ∃ workspace W given left,
      (Sample.session.machine.makeWorkspace (.ofString "/tmp")).1 = .ok workspace ∧
      Framed Sample.idle Sample.disk workspace W given left (Sample.after "./lib/../lib") := by
  have hcontained : ∀ d base, Workspace.Contained d base (.ofString "/app") "./lib/../lib".toList :=
    fun d base => ⟨by decide, by decide, fun htop => absurd htop (by decide)⟩
  refine ⟨Sample.lawful_disk, hcontained _ _, ?_⟩
  obtain ⟨workspace, hok⟩ : ∃ workspace,
      (Sample.session.machine.makeWorkspace (.ofString "/tmp")).1 = .ok workspace :=
    ⟨.ofString "/tmp/fenrir-0-xxxxx0", by cbv⟩
  obtain ⟨-, hframe⟩ := execute_frame Sample.idle ⟨[], .ofString "/app"⟩
    (Sample.job "./lib/../lib") Sample.session Sample.lawful_disk fun m _ _ => hcontained _ _
  obtain ⟨W, given, left, -, hframed⟩ := hframe workspace hok
  exact ⟨workspace, W, given, left, hok, hframed⟩

/-- The three ways out. With an absolute name the dependencies are copied onto themselves, and
their files end empty. With a name that climbs the copy lands beside the workspace, and stays there.
If the project itself is copied, the program is written through a link in it. -/
theorem uncontained_dependencies_escape :
    (Sample.disk.get? ["app".toList, "lib".toList, "a.js".toList] = some (.file [49] false) ∧
      (Sample.after "/app/lib").get? ["app".toList, "lib".toList, "a.js".toList] =
        some (.file [] false)) ∧
    (Sample.disk.get? ["tmp".toList, "app".toList] = none ∧
      (Sample.after "../app").get? ["tmp".toList, "app".toList] = some .directory) ∧
    (Sample.after ".").get? ["app".toList, "lib".toList, "a.js".toList] =
      some (.file (Utf8.encode (Program.entryText ⟨[]⟩)) false) := by
  refine ⟨⟨by decide, ?_⟩, ⟨by decide, ?_⟩, ?_⟩
  all_goals
    unfold Sample.after Execution.execute Execution.runIn Execution.writeProgram
    -- the prelude is long, and nothing looks at it
    generalize Utf8.encode Prelude.text = bytes
    cbv

end Sandscript
