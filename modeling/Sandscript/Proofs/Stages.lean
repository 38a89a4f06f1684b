import Sandscript.Toolchain

/-!
# The stages of a run

A run goes through stages, and most of them can end it: the source is compiled, the runtime is
looked for, a workspace is made and prepared, the program is started, and what came of it is judged.
Here each stage is said on its own, and a run is put together from them. What later modules prove
about runs follows these cases and does not look into the definitions again:

* `run_cases` — a run ends before there is a workspace, or is the execution of a job;
* `execute_cases` — an execution makes no workspace, or is what was done in it and its removal;
* `runIn_cases` — the workspace cannot be prepared, or the program is started once (`launchOf`),
  and the answer to that settles the run (`conclude`).
-/

namespace Sandscript

-- ---------------------------------------------------------------------------
-- Copying
-- ---------------------------------------------------------------------------

namespace Workspace

variable {σ : Type}

/-- What each step keeps is kept by copying entries in order. -/
theorem copyAll_keeps {P : σ → Prop} {attempt : CopyStep → σ → Except IoError Unit × σ}
    {steps : List CopyStep} (h : ∀ step ∈ steps, ∀ m, P m → P (attempt step m).2) {m : σ}
    (hm : P m) : P (copyAll attempt steps m).2 := by
  induction steps generalizing m with
  | nil => exact hm
  | cons step steps ih =>
    have hrest := ih (fun step hstep => h step (List.mem_cons_of_mem _ hstep))
      (h step (List.mem_cons_self ..) m hm)
    rw [copyAll]
    dsimp only
    split <;> exact hrest

end Workspace

namespace Execution

variable {σ : Type}

-- ---------------------------------------------------------------------------
-- Passing on output
-- ---------------------------------------------------------------------------

/-- The records about a stream of which a part was refused. -/
def lossRecords (name : String) (o : Forward.Outcome) : Log :=
  if o.lost then
    [⟨.warn, "lost part of program ".toList ++ name.toList ++ ": ".toList ++
      IoError.sinkFull.message⟩]
  else []

theorem reportLoss_eq (name : String) (o : Forward.Outcome) (s : Session σ) :
    reportLoss name o s = { s with log := s.log ++ lossRecords name o } := by
  unfold reportLoss lossRecords
  split
  · rfl
  · rw [List.append_nil]

/-- What passing on a program's output does: each stream gets its part, and only the error stream
decides whether an uncaught error was reported. -/
theorem forwardOutput_eq (c : Child) (s : Session σ) :
    forwardOutput c s = ((Forward.stream s.err c.err).1.reported,
      { s with
        out := (Forward.stream s.out c.out).2
        err := (Forward.stream s.err c.err).2
        log := s.log ++ lossRecords "stdout" (Forward.stream s.out c.out).1 ++
          lossRecords "stderr" (Forward.stream s.err c.err).1 }) := by
  unfold forwardOutput
  dsimp only
  rw [reportLoss_eq, reportLoss_eq]

-- ---------------------------------------------------------------------------
-- Starting a program
-- ---------------------------------------------------------------------------

/-- How the program of a job is started. -/
def launchOf (env : Environment) (job : Job) (workspace : Path) (searchPath : Text) : Launch where
  program := job.runtime
  argument := workspace.child Workspace.programName
  vars := (env.set Environment.searchPathVar searchPath).vars
  directory := workspace
  limitMs := job.limitMs

/-- How a run is to be understood, given the answer to starting its program. -/
def verdict (job : Job) (reported : Bool) : Except IoError Child → Except Fault Nat
  | .error e => .error (.notStarted job.runtime e)
  | .ok child => judge job.limitMs reported child.ending

/-- Passes on what a program wrote, if there was one. -/
def passOn (answer : Except IoError Child) (s : Session σ) : Bool × Session σ :=
  match answer with
  | .ok child => forwardOutput child s
  | .error _ => (false, s)

/-- Ends a run with a status or a fault. -/
def settle (p : Program) (v : Except Fault Nat) (s : Session σ) :
    Except Failure Nat × Session σ :=
  match v with
  | .error f => giveUp p f s
  | .ok code =>
    (.ok code, s.report .info ("program exited with code ".toList ++ Text.ofNat code))

/-- What follows from the answer to starting a program. -/
def conclude (job : Job) (answer : Except IoError Child) (s : Session σ) :
    Except Failure Nat × Session σ :=
  settle job.program (verdict job (passOn answer s).1 answer) (passOn answer s).2

/-- Running the program is starting it and then drawing the conclusion from the answer. This parts
what the machine does from what is made of it, and the second part does not ask the machine again.
-/
theorem runChild_eq (host : Host σ) (env : Environment) (job : Job) (workspace : Path)
    (searchPath : Text) (s : Session σ) :
    runChild host env job workspace searchPath s =
      conclude job (s.act (host.launch · (launchOf env job workspace searchPath))).1
        (s.act (host.launch · (launchOf env job workspace searchPath))).2 := by
  have hlaunch : Launch.mk job.runtime (workspace.child Workspace.programName)
      (env.set Environment.searchPathVar searchPath).vars workspace job.limitMs =
      launchOf env job workspace searchPath := rfl
  unfold runChild
  dsimp only
  rw [hlaunch]
  rcases s.act (host.launch · (launchOf env job workspace searchPath)) with ⟨e | child, s'⟩
  · rfl
  · show _ = settle job.program (judge job.limitMs (forwardOutput child s').1 child.ending) _
    dsimp only
    rcases judge job.limitMs (forwardOutput child s').1 child.ending with f | code
    · rfl
    · rfl

-- ---------------------------------------------------------------------------
-- Preparing a workspace
-- ---------------------------------------------------------------------------

/-- The warnings about what could not be copied into a workspace. -/
def copyWarnings (host : Host σ) (job : Job) (workspace : Path) (s : Session σ) :
    List CopyWarning :=
  (Workspace.copyProject host workspace job.root job.dependencyDir s.machine).1

/-- The session after the project was copied into a workspace. -/
def copied (host : Host σ) (job : Job) (workspace : Path) (s : Session σ) : Session σ :=
  { s with
    machine := (Workspace.copyProject host workspace job.root job.dependencyDir s.machine).2
    log := s.log ++ (copyWarnings host job workspace s).map fun w =>
      Record.mk .warn (CopyWarning.message w) }

/-- Everything that is done in a workspace before the program is started. The answer is the search
path that it will be given. -/
def prepare (host : Host σ) (env : Environment) (job : Job) (workspace : Path) (s : Session σ) :
    Except IoError Text × Session σ :=
  match (copied host job workspace s).act (writeProgram host job.program workspace) with
  | (.error e, s) => (.error e, s)
  | (.ok _, s) =>
    match Workspace.searchPath workspace job.root job.dependencyDir env.inheritedSearchPath? with
    | .error e => (.error e, s)
    | .ok searchPath =>
      (.ok searchPath, if job.debug then listBefore job.program searchPath s else s)

/-- The preparation changes the machine by copying the project and writing the program, in this
order. The listing and the log do not touch it. -/
theorem machine_prepare (host : Host σ) (env : Environment) (job : Job) (workspace : Path)
    (s : Session σ) :
    (prepare host env job workspace s).2.machine =
      (writeProgram host job.program workspace (copied host job workspace s).machine).2 := by
  unfold prepare Session.act
  rcases writeProgram host job.program workspace (copied host job workspace s).machine with
    ⟨e | _, m⟩
  · rfl
  · dsimp only
    rcases Workspace.searchPath workspace job.root job.dependencyDir env.inheritedSearchPath? with
      e | searchPath
    · rfl
    · dsimp only
      split
      · rfl
      · rfl

/-- A run in a workspace as one equation: the preparation, and then the program if the preparation
succeeded. -/
theorem runIn_eq (host : Host σ) (env : Environment) (job : Job) (workspace : Path)
    (s : Session σ) :
    runIn host env job workspace s =
      match prepare host env job workspace s with
      | (.error e, s') => (.error (.noWorkspace e), s')
      | (.ok searchPath, s') =>
        ((runChild host env job workspace searchPath s').1.map
            (·, copyWarnings host job workspace s),
          (runChild host env job workspace searchPath s').2) := by
  rw [prepare]
  change ((match (copied host job workspace s).act (writeProgram host job.program workspace) with
    | (.error e, s) => (.error (.noWorkspace e), s)
    | (.ok _, s) => _ : Except Failure (Nat × List CopyWarning) × Session σ)) = _
  rcases (copied host job workspace s).act (writeProgram host job.program workspace) with
    ⟨e | _, s'⟩
  · rfl
  · dsimp only
    rcases Workspace.searchPath workspace job.root job.dependencyDir env.inheritedSearchPath? with
      e | searchPath
    · rfl
    · dsimp only
      generalize runChild host env job workspace searchPath _ = r
      obtain ⟨f | code, s''⟩ := r <;> rfl

/-- **What can happen in a workspace.** -/
theorem runIn_cases (host : Host σ) (env : Environment) (job : Job) (workspace : Path)
    (s : Session σ) :
    (∃ e s', prepare host env job workspace s = (.error e, s') ∧
      runIn host env job workspace s = (.error (.noWorkspace e), s')) ∨
    ∃ searchPath ready answer ended,
      prepare host env job workspace s = (.ok searchPath, ready) ∧
      ready.act (host.launch · (launchOf env job workspace searchPath)) = (answer, ended) ∧
      runIn host env job workspace s =
        ((conclude job answer ended).1.map (·, copyWarnings host job workspace s),
          (conclude job answer ended).2) := by
  rcases hprepare : prepare host env job workspace s with ⟨e | searchPath, s'⟩
  · exact Or.inl ⟨e, s', rfl, by rw [runIn_eq, hprepare]⟩
  · rcases hact : s'.act (host.launch · (launchOf env job workspace searchPath)) with
      ⟨answer, ended⟩
    refine Or.inr ⟨searchPath, s', answer, ended, rfl, hact, ?_⟩
    rw [runIn_eq, hprepare]
    dsimp only
    rw [runChild_eq, hact]

/-- Where a program is started, it is given the workspace's search path, and its listing is all that
was printed before. The machine and the log may have changed in between. -/
theorem of_prepare {host : Host σ} {env : Environment} {job : Job} {workspace : Path}
    {s ready : Session σ} {searchPath : Text}
    (h : prepare host env job workspace s = (.ok searchPath, ready)) :
    Workspace.searchPath workspace job.root job.dependencyDir env.inheritedSearchPath? =
      .ok searchPath ∧
    ∃ m log, ready =
      if job.debug then listBefore job.program searchPath { s with machine := m, log }
      else { s with machine := m, log } := by
  rw [prepare] at h
  split at h
  · exact absurd (congrArg Prod.fst h) (by simp)
  · next written hwrite =>
    have hsession : written = { s with machine := written.machine, log := written.log } := by
      have hwritten : _ = written := congrArg Prod.snd hwrite
      rw [← hwritten]
      rfl
    split at h
    · exact absurd (congrArg Prod.fst h) (by simp)
    · next found hfound =>
      obtain ⟨hpath, hready⟩ := Prod.mk.inj h
      obtain rfl := Except.ok.inj hpath
      exact ⟨hfound, written.machine, written.log, by rw [← hsession, hready]⟩

-- ---------------------------------------------------------------------------
-- Executions
-- ---------------------------------------------------------------------------

/-- What a caller learns of what was done in a workspace. -/
def report (workspace : Path) (result : Except Failure (Nat × List CopyWarning)) :
    Except Failure Execution :=
  result.map fun r => ⟨r.1, workspace, r.2⟩

/-- The session after a workspace was asked for. -/
def made (host : Host σ) (job : Job) (s : Session σ) : Session σ :=
  { s with machine := (host.makeWorkspace s.machine job.workspaceParent).2 }

/-- **What an execution is made of.** -/
theorem execute_cases (host : Host σ) (env : Environment) (job : Job) (s : Session σ) :
    (∃ e, (host.makeWorkspace s.machine job.workspaceParent).1 = .error e ∧
      execute host env job s = (.error (.noWorkspace e), made host job s)) ∨
    ∃ workspace, (host.makeWorkspace s.machine job.workspaceParent).1 = .ok workspace ∧
      execute host env job s =
        (report workspace (runIn host env job workspace (made host job s)).1,
          removeWorkspace host workspace (runIn host env job workspace (made host job s)).2) := by
  have hact : s.act (host.makeWorkspace · job.workspaceParent) =
      ((host.makeWorkspace s.machine job.workspaceParent).1, made host job s) := rfl
  unfold execute
  rw [hact]
  rcases (host.makeWorkspace s.machine job.workspaceParent).1 with e | workspace
  · exact Or.inl ⟨e, rfl, rfl⟩
  · refine Or.inr ⟨workspace, rfl, ?_⟩
    dsimp only
    rcases runIn host env job workspace (made host job s) with ⟨f | r, s'⟩
    · rfl
    · rfl

/-- An execution whose workspace was made runs in it, and then removes it whatever the run gave. -/
theorem execute_of_made {host : Host σ} {job : Job} {s : Session σ} {workspace : Path}
    (h : (host.makeWorkspace s.machine job.workspaceParent).1 = .ok workspace)
    (env : Environment) :
    execute host env job s =
      (report workspace (runIn host env job workspace (made host job s)).1,
        removeWorkspace host workspace (runIn host env job workspace (made host job s)).2) := by
  rcases execute_cases host env job s with ⟨e, herror, -⟩ | ⟨workspace', hok, hexecute⟩
  · exact absurd (herror.symm.trans h) (by simp)
  · obtain rfl : workspace' = workspace := Except.ok.inj (hok.symm.trans h)
    exact hexecute

/-- Removing the workspace changes the machine and the log, never the streams. -/
theorem removeWorkspace_eq (host : Host σ) (workspace : Path) (s : Session σ) :
    ∃ log, removeWorkspace host workspace s =
      { s with machine := (host.removeTree s.machine workspace).2, log } := by
  rw [removeWorkspace, Session.act]
  rcases host.removeTree s.machine workspace with ⟨e | _, m⟩
  · exact ⟨_, rfl⟩
  · exact ⟨_, rfl⟩

end Execution

-- ---------------------------------------------------------------------------
-- Runs
-- ---------------------------------------------------------------------------

namespace Toolchain

variable {σ : Type}

/-- The session after a source was compiled: there are new records, and nothing else is new. -/
def afterCompile (host : Host σ) (env : Environment) (path : Path) (s : Session σ) : Session σ :=
  { s with log := s.log ++ (compile host s.machine env path).2 }

/-- A run of the toolchain as one equation: it compiles, finds the runtime and executes, and the
first failure ends it. -/
theorem run_eq (host : Host σ) (env : Environment) (options : Options) (path : Path)
    (s : Session σ) :
    run host env options path s =
      match (compile host s.machine env path).1 with
      | .error f => (.error f, afterCompile host env path s)
      | .ok c =>
        match findRuntime host s.machine env (env.runtimeOverride?.getD c.settings.runtime) with
        | .error f => (.error f, afterCompile host env path s)
        | .ok runtime =>
          Execution.execute host env (job env options c runtime) (afterCompile host env path s) :=
  rfl

/-- **What a run is made of.** -/
theorem run_cases (host : Host σ) (env : Environment) (options : Options) (path : Path)
    (s : Session σ) :
    (∃ f, (compile host s.machine env path).1 = .error f ∧
      run host env options path s = (.error f, afterCompile host env path s)) ∨
    (∃ c f, (compile host s.machine env path).1 = .ok c ∧
      findRuntime host s.machine env (env.runtimeOverride?.getD c.settings.runtime) = .error f ∧
      run host env options path s = (.error f, afterCompile host env path s)) ∨
    ∃ c runtime, (compile host s.machine env path).1 = .ok c ∧
      findRuntime host s.machine env (env.runtimeOverride?.getD c.settings.runtime) = .ok runtime ∧
      run host env options path s =
        Execution.execute host env (job env options c runtime) (afterCompile host env path s) := by
  rw [run_eq]
  rcases (compile host s.machine env path).1 with f | c
  · exact Or.inl ⟨f, rfl, rfl⟩
  · right
    dsimp only
    rcases hfind : findRuntime host s.machine env (env.runtimeOverride?.getD c.settings.runtime)
      with f | runtime
    · exact Or.inl ⟨c, f, rfl, hfind, rfl⟩
    · exact Or.inr ⟨c, runtime, rfl, hfind, rfl⟩

end Toolchain

end Sandscript
