import Sandscript.Proofs.Stages

/-!
# Recording what a machine is asked for

The toolchain is written for any machine. So it also runs on one that does what another machine
does and keeps a record of it: `Host.recorded`. Each operation that can change the machine leaves an
`Event` with its arguments and its answer; operations that only look leave none. What a run did on
its way, and not only what it left behind, can then be read off the record.

* `run_erased`, `execute_erased`, `runIn_erased` — recording changes nothing else: without its
  record, a recorded run is the run.
* `Execution.runIn_recorded` — in a workspace, files are put and then at most one program is
  started.
* `Execution.events_of_made` — around that, the workspace is made and removed.
-/

namespace Sandscript

/-- A change that a machine was asked for, and its answer. -/
inductive Event where
  | makeWorkspace (parent : Path) (answer : Except IoError Path)
  | makeDirectories (target : Path) (answer : Except IoError Unit)
  | copyLink (source target : Path) (answer : Except IoError Unit)
  | copyFile (source target : Path) (answer : Except IoError Unit)
  | writeFile (target : Path) (bytes : Bytes) (answer : Except IoError Unit)
  | removeTree (target : Path) (answer : Except IoError Unit)
  | launch (l : Launch) (answer : Except IoError Child)

namespace Event

/-- A single file, link or directory was to be put somewhere. -/
def puts : Event → Bool
  | makeDirectories _ _ | copyLink _ _ _ | copyFile _ _ _ | writeFile _ _ _ => true
  | makeWorkspace _ _ | removeTree _ _ | launch _ _ => false

/-- A workspace was to be made. -/
def makes : Event → Bool
  | makeWorkspace _ _ => true
  | _ => false

/-- Something was to be removed. -/
def removes : Event → Bool
  | removeTree _ _ => true
  | _ => false

/-- A program was to be started. -/
def starts : Event → Bool
  | launch _ _ => true
  | _ => false

end Event

/-- A machine with the record of what it was asked for, oldest first. -/
structure Recorded (σ : Type) where
  state : σ
  events : List Event := []

namespace Recorded

variable {σ α : Type}

/-- Runs an operation and records it. -/
def step (m : Recorded σ) (f : σ → α × σ) (event : α → Event) : α × Recorded σ :=
  ((f m.state).1, ⟨(f m.state).2, m.events ++ [event (f m.state).1]⟩)

/-- From one machine to the other, nothing but files, links and directories was put. -/
def Puts (m m' : Recorded σ) : Prop :=
  ∃ new, m'.events = m.events ++ new ∧ ∀ e ∈ new, e.puts = true

theorem Puts.refl (m : Recorded σ) : m.Puts m := ⟨[], by simp, by simp⟩

/-- Two stretches of a run that only put things are one such stretch. -/
theorem Puts.trans {m m' m'' : Recorded σ} (h : m.Puts m') (h' : m'.Puts m'') : m.Puts m'' := by
  obtain ⟨new, hnew, hputs⟩ := h
  obtain ⟨new', hnew', hputs'⟩ := h'
  refine ⟨new ++ new', by rw [hnew', hnew, List.append_assoc], fun e he => ?_⟩
  rcases List.mem_append.mp he with he | he
  · exact hputs e he
  · exact hputs' e he

/-- A recorded operation that puts something appends one event, and this event is of that kind. -/
theorem Puts.step {m : Recorded σ} {f : σ → α × σ} {event : α → Event}
    (h : ∀ a, (event a).puts = true) : m.Puts (m.step f event).2 :=
  ⟨[event (f m.state).1], rfl, by simpa using h _⟩

/-- The first operation does to a recording machine what the second does to the machine below. -/
def Erases (g : Recorded σ → α × Recorded σ) (f : σ → α × σ) : Prop :=
  ∀ m, f m.state = ((g m).1, (g m).2.state)

end Recorded

open Recorded (Erases Puts)

/-- The host that records what it is asked for. -/
def Host.recorded {σ : Type} (host : Host σ) : Host (Recorded σ) where
  isFile m := host.isFile m.state
  isDirectory m := host.isDirectory m.state
  isPresent m := host.isPresent m.state
  readFile m := host.readFile m.state
  tree m := host.tree m.state
  makeWorkspace m parent := m.step (host.makeWorkspace · parent) (.makeWorkspace parent)
  makeDirectories m p := m.step (host.makeDirectories · p) (.makeDirectories p)
  copyLink m source target := m.step (host.copyLink · source target) (.copyLink source target)
  copyFile m source target := m.step (host.copyFile · source target) (.copyFile source target)
  writeFile m p bytes := m.step (host.writeFile · p bytes) (.writeFile p bytes)
  removeTree m p := m.step (host.removeTree · p) (.removeTree p)
  launch m l := m.step (host.launch · l) (.launch l)

namespace Session

variable {σ α : Type}

/-- The same session on a machine that records, with nothing recorded yet. -/
def recorded (s : Session σ) : Session (Recorded σ) :=
  { machine := ⟨s.machine, []⟩, log := s.log, out := s.out, err := s.err }

/-- The session without the record. -/
def erased (s : Session (Recorded σ)) : Session σ :=
  { machine := s.machine.state, log := s.log, out := s.out, err := s.err }

theorem erased_recorded (s : Session σ) : s.recorded.erased = s := rfl

/-- An operation whose record can be erased can be erased as part of a session. -/
theorem act_erased {g : Recorded σ → α × Recorded σ} {f : σ → α × σ} (h : Erases g f)
    (s : Session (Recorded σ)) : s.erased.act f = ((s.act g).1, (s.act g).2.erased) := by
  have hstate := h s.machine
  rw [act, show s.erased.machine = s.machine.state from rfl, hstate]
  rfl

end Session

-- ---------------------------------------------------------------------------
-- Recording changes nothing else
-- ---------------------------------------------------------------------------

namespace Workspace

variable {σ : Type}

/-- Erasing commutes with the loop over the steps, if it does with each step. -/
theorem copyAll_erases {attempt : CopyStep → Recorded σ → Except IoError Unit × Recorded σ}
    {attempt' : CopyStep → σ → Except IoError Unit × σ}
    (h : ∀ step, Erases (attempt step) (attempt' step)) (steps : List CopyStep) :
    Erases (copyAll attempt steps) (copyAll attempt' steps) := by
  induction steps with
  | nil => exact fun _ => rfl
  | cons step steps ih =>
    intro m
    rw [copyAll, copyAll, h step m]
    dsimp only
    rw [ih (attempt step m).2]
    dsimp only
    split <;> rfl

/-- A copying step does the same with and without a record. -/
theorem perform_erases (host : Host σ) (step : CopyStep) :
    Erases (step.perform host.recorded) (step.perform host) := by
  intro m
  rw [CopyStep.perform, CopyStep.perform]
  split <;> rfl

/-- Copying the project does the same with and without a record. What it asks of the machine first,
it asks of the erased one. -/
theorem copyProject_erases (host : Host σ) (workspace root : Path) (dependencyDir : Text) :
    Erases (copyProject host.recorded workspace root dependencyDir)
      (copyProject host workspace root dependencyDir) := by
  intro m
  rw [copyProject]
  dsimp only
  rw [copyAll_erases (perform_erases host) _ m]
  dsimp only
  rw [copyAll_erases (perform_erases host) _ (copyAll _ _ m).2]
  rfl

end Workspace

namespace Execution

variable {σ : Type}

/-- Writing the program does the same with and without a record. -/
theorem writeProgram_erases (host : Host σ) (p : Program) (workspace : Path) :
    Erases (writeProgram host.recorded p workspace) (writeProgram host p workspace) := by
  intro m
  have hwrite : ∀ (m : Recorded σ) (target : Path) (bytes : Bytes),
      host.writeFile m.state target bytes = ((host.recorded.writeFile m target bytes).1,
        (host.recorded.writeFile m target bytes).2.state) := fun _ _ _ => rfl
  unfold writeProgram
  rw [hwrite m]
  rcases host.recorded.writeFile m (workspace.child Prelude.fileName) (Utf8.encode Prelude.text)
    with ⟨e | _, m'⟩
  · rfl
  · exact hwrite m' _ _

/-- Forwarding does not touch the machine, so it does not see whether there is a record. -/
theorem forwardOutput_erased (c : Child) (s : Session (Recorded σ)) :
    forwardOutput c s.erased = ((forwardOutput c s).1, (forwardOutput c s).2.erased) := by
  rw [forwardOutput_eq, forwardOutput_eq]
  rfl

/-- Nor does the conclusion that is drawn from the answer of the program. -/
theorem conclude_erased (job : Job) (answer : Except IoError Child)
    (s : Session (Recorded σ)) :
    conclude job answer s.erased =
      ((conclude job answer s).1, (conclude job answer s).2.erased) := by
  have hpass : passOn answer s.erased = ((passOn answer s).1, (passOn answer s).2.erased) := by
    rcases answer with e | child
    · rfl
    · exact forwardOutput_erased child s
  unfold conclude
  rw [hpass]
  dsimp only
  rcases verdict job (passOn answer s).1 answer with f | code
  · rfl
  · rfl

/-- The preparation does the same with and without a record, and warns of the same. It is made of
operations that can be erased one by one, with nothing else that looks at the machine. -/
theorem prepare_erased (host : Host σ) (env : Environment) (job : Job) (workspace : Path)
    (s : Session (Recorded σ)) :
    prepare host env job workspace s.erased =
      ((prepare host.recorded env job workspace s).1,
        (prepare host.recorded env job workspace s).2.erased) ∧
    copyWarnings host job workspace s.erased = copyWarnings host.recorded job workspace s := by
  have hcopy := Workspace.copyProject_erases host workspace job.root job.dependencyDir s.machine
  have hwarnings : copyWarnings host job workspace s.erased =
      copyWarnings host.recorded job workspace s := congrArg Prod.fst hcopy
  have hcopied : copied host job workspace s.erased =
      (copied host.recorded job workspace s).erased := by
    rw [copied, copied, hwarnings]
    exact congrArg (fun m => Session.mk m _ _ _) (congrArg Prod.snd hcopy)
  refine ⟨?_, hwarnings⟩
  rw [prepare, prepare, hcopied,
    Session.act_erased (writeProgram_erases host job.program workspace)]
  rcases (copied host.recorded job workspace s).act
    (writeProgram host.recorded job.program workspace) with ⟨e | _, s'⟩
  · rfl
  · dsimp only
    split
    · rfl
    · split <;> rfl

/-- In a workspace, recording changes nothing else. -/
theorem runIn_erased (host : Host σ) (env : Environment) (job : Job) (workspace : Path)
    (s : Session (Recorded σ)) :
    runIn host env job workspace s.erased =
      ((runIn host.recorded env job workspace s).1,
        (runIn host.recorded env job workspace s).2.erased) := by
  obtain ⟨hprepare, hwarnings⟩ := prepare_erased host env job workspace s
  rw [runIn_eq, runIn_eq, hprepare, hwarnings]
  rcases prepare host.recorded env job workspace s with ⟨e | searchPath, s'⟩
  · rfl
  · have hlaunch : Erases (host.recorded.launch · (launchOf env job workspace searchPath))
        (host.launch · (launchOf env job workspace searchPath)) := fun _ => rfl
    dsimp only
    rw [runChild_eq, runChild_eq, Session.act_erased hlaunch, conclude_erased]

theorem removeWorkspace_erased (host : Host σ) (workspace : Path) (s : Session (Recorded σ)) :
    removeWorkspace host workspace s.erased =
      (removeWorkspace host.recorded workspace s).erased := by
  have hremove : Erases (host.recorded.removeTree · workspace) (host.removeTree · workspace) :=
    fun _ => rfl
  rw [removeWorkspace, removeWorkspace, Session.act_erased hremove]
  rcases s.act (host.recorded.removeTree · workspace) with ⟨e | _, s'⟩ <;> rfl

/-- In an execution, recording changes nothing else. -/
theorem execute_erased (host : Host σ) (env : Environment) (job : Job)
    (s : Session (Recorded σ)) :
    execute host env job s.erased =
      ((execute host.recorded env job s).1, (execute host.recorded env job s).2.erased) := by
  have hmake : Erases (host.recorded.makeWorkspace · job.workspaceParent)
      (host.makeWorkspace · job.workspaceParent) := fun _ => rfl
  rw [execute, execute, Session.act_erased hmake]
  rcases s.act (host.recorded.makeWorkspace · job.workspaceParent) with ⟨e | workspace, s'⟩
  · rfl
  · dsimp only
    rw [runIn_erased]
    rcases runIn host.recorded env job workspace s' with ⟨f | r, s''⟩
    · exact Prod.ext rfl (removeWorkspace_erased host workspace s'')
    · exact Prod.ext rfl (removeWorkspace_erased host workspace s'')

end Execution

namespace Toolchain

variable {σ : Type}

/-- **In a run, recording changes nothing else.** -/
theorem run_erased (host : Host σ) (env : Environment) (options : Options) (path : Path)
    (s : Session (Recorded σ)) :
    run host env options path s.erased =
      ((run host.recorded env options path s).1,
        (run host.recorded env options path s).2.erased) := by
  -- compiling and looking for the runtime only look at the machine
  have hcompile : compile host s.erased.machine env path =
      compile host.recorded s.machine env path := rfl
  have hfind : ∀ name, findRuntime host s.erased.machine env name =
      findRuntime host.recorded s.machine env name := fun _ => rfl
  rw [run_eq, run_eq, hcompile]
  rcases (compile host.recorded s.machine env path).1 with f | c
  · rfl
  · dsimp only
    rw [hfind]
    rcases findRuntime host.recorded s.machine env (env.runtimeOverride?.getD c.settings.runtime)
      with f | runtime
    · rfl
    · exact Execution.execute_erased host env _ (afterCompile host.recorded env path s)

end Toolchain

-- ---------------------------------------------------------------------------
-- What is recorded
-- ---------------------------------------------------------------------------

namespace Workspace

variable {σ : Type}

/-- Whatever a copying step does to the machine is putting something. -/
theorem puts_perform (host : Host σ) (step : CopyStep) (m : Recorded σ) :
    m.Puts (step.perform host.recorded m).2 := by
  unfold CopyStep.perform
  split
  · exact Puts.step fun _ => rfl
  · exact Puts.step fun _ => rfl
  · exact Puts.step fun _ => rfl
  · exact Puts.refl m

/-- By induction over the steps, the whole copying only puts things. -/
theorem puts_copyAll (host : Host σ) (steps : List CopyStep) (m : Recorded σ) :
    m.Puts (copyAll (CopyStep.perform host.recorded) steps m).2 := by
  refine copyAll_keeps (P := m.Puts) (fun step _ m' hm' => ?_) (Puts.refl m)
  exact hm'.trans (puts_perform host step m')

end Workspace

namespace Execution

variable {σ : Type}

/-- Writing the program only puts things, also if it stops after the prelude. -/
theorem puts_writeProgram (host : Host σ) (p : Program) (workspace : Path) (m : Recorded σ) :
    m.Puts (writeProgram host.recorded p workspace m).2 := by
  have hwrite : ∀ (m : Recorded σ) (target : Path) (bytes : Bytes),
      m.Puts (host.recorded.writeFile m target bytes).2 := fun _ _ _ => Puts.step fun _ => rfl
  have hfirst := hwrite m (workspace.child Prelude.fileName) (Utf8.encode Prelude.text)
  unfold writeProgram
  rcases hanswer : host.recorded.writeFile m (workspace.child Prelude.fileName)
    (Utf8.encode Prelude.text) with ⟨e | _, m'⟩
  · rw [hanswer] at hfirst
    exact hfirst
  · rw [hanswer] at hfirst
    exact hfirst.trans (hwrite m' _ _)

/-- The preparation only puts things. So the first event of another kind comes after it. -/
theorem puts_prepare (host : Host σ) (env : Environment) (job : Job) (workspace : Path)
    (s : Session (Recorded σ)) :
    s.machine.Puts (prepare host.recorded env job workspace s).2.machine := by
  have hcopy : s.machine.Puts (copied host.recorded job workspace s).machine :=
    (Workspace.puts_copyAll host _ _).trans (Workspace.puts_copyAll host _ _)
  rw [machine_prepare]
  exact hcopy.trans (puts_writeProgram host job.program workspace _)

/-- The machine stays as the program has left it. -/
theorem machine_conclude (job : Job) (answer : Except IoError Child) (s : Session σ) :
    (conclude job answer s).2.machine = s.machine := by
  have hpass : (passOn answer s).2.machine = s.machine := by
    rcases answer with e | child
    · rfl
    · show (forwardOutput child s).2.machine = s.machine
      rw [forwardOutput_eq]
  unfold conclude settle
  split
  · exact hpass
  · exact hpass

/-- **What is recorded in a workspace**: what was put there, and the start of a program unless it
could not be prepared. -/
theorem runIn_recorded (host : Host σ) (env : Environment) (job : Job) (workspace : Path)
    (s : Session (Recorded σ)) :
    ∃ new start, (∀ e ∈ new, e.puts = true) ∧
      (runIn host.recorded env job workspace s).2.machine.events =
        s.machine.events ++ new ++ start ∧
      ((start = [] ∧ ∃ e, (runIn host.recorded env job workspace s).1 = .error (.noWorkspace e)) ∨
        ∃ searchPath ready answer m,
          prepare host.recorded env job workspace s = (.ok searchPath, ready) ∧
          start = [.launch (launchOf env job workspace searchPath) answer] ∧
          runIn host.recorded env job workspace s =
            ((conclude job answer { ready with machine := m }).1.map
                (·, copyWarnings host.recorded job workspace s),
              (conclude job answer { ready with machine := m }).2)) := by
  obtain ⟨new, hnew, hputs⟩ := puts_prepare host env job workspace s
  rcases runIn_cases host.recorded env job workspace s with
    ⟨e, s', hprepare, hrun⟩ | ⟨searchPath, ready, answer, ended, hprepare, hlaunch, hrun⟩
  · rw [hprepare] at hnew
    refine ⟨new, [], hputs, ?_, Or.inl ⟨rfl, e, by rw [hrun]⟩⟩
    rw [hrun, List.append_nil]
    exact hnew
  · rw [hprepare] at hnew
    have hended : ended = { ready with machine := ended.machine } := by
      have hsession : _ = ended := congrArg Prod.snd hlaunch
      rw [← hsession]
      rfl
    -- starting the program appends one event, and drawing the conclusion none
    have hevents : ended.machine.events =
        ready.machine.events ++ [.launch (launchOf env job workspace searchPath) answer] := by
      have hsession : _ = ended := congrArg Prod.snd hlaunch
      have hanswer : _ = answer := congrArg Prod.fst hlaunch
      rw [← hsession, ← hanswer]
      rfl
    refine ⟨new, _, hputs, ?_, Or.inr ⟨searchPath, ready, answer, ended.machine, hprepare, rfl, ?_⟩⟩
    · rw [hrun, machine_conclude, hevents, hnew]
    · rw [hrun, ← hended]

/-- The changes that a machine is asked for in a workspace. -/
def eventsIn (host : Host σ) (env : Environment) (job : Job) (workspace : Path) (s : Session σ) :
    List Event :=
  (runIn host.recorded env job workspace s.recorded).2.machine.events

/-- The changes that a machine is asked for by an execution. -/
def events (host : Host σ) (env : Environment) (job : Job) (s : Session σ) : List Event :=
  (execute host.recorded env job s.recorded).2.machine.events

/-- **What is recorded of an execution**: that a workspace was made, what was done in it, and that
it was removed. -/
theorem events_of_made {host : Host σ} {job : Job} {s : Session σ} {workspace : Path}
    (h : (host.makeWorkspace s.machine job.workspaceParent).1 = .ok workspace)
    (env : Environment) :
    ∃ new start, (∀ e ∈ new, e.puts = true) ∧
      (start = [] ∨ ∃ l answer, start = [.launch l answer]) ∧
      events host env job s =
        .makeWorkspace job.workspaceParent (.ok workspace) :: (new ++ start) ++
          [.removeTree workspace (host.removeTree
            (runIn host env job workspace (made host job s)).2.machine workspace).1] := by
  have hfirst : (made host.recorded job s.recorded).machine.events =
      [.makeWorkspace job.workspaceParent (.ok workspace)] := by
    rw [← h]
    rfl
  have herased : (made host.recorded job s.recorded).erased = made host job s := rfl
  obtain ⟨new, start, hputs, hinside, hstart⟩ :=
    runIn_recorded host env job workspace (made host.recorded job s.recorded)
  obtain ⟨log, hremove⟩ := removeWorkspace_eq host.recorded workspace
    (runIn host.recorded env job workspace (made host.recorded job s.recorded)).2
  refine ⟨new, start, hputs, ?_, ?_⟩
  · rcases hstart with ⟨hnone, -⟩ | ⟨searchPath, ready, answer, m, -, hlaunch, -⟩
    · exact Or.inl hnone
    · exact Or.inr ⟨_, answer, hlaunch⟩
  · have hmade : (host.recorded.makeWorkspace s.recorded.machine job.workspaceParent).1 =
        .ok workspace := h
    unfold events
    rw [execute_of_made hmade, hremove, ← herased, runIn_erased]
    show (runIn host.recorded env job workspace
      (made host.recorded job s.recorded)).2.machine.events ++ _ = _
    rw [hinside, hfirst]
    rfl

end Execution

namespace Toolchain

variable {σ : Type}

/-- The changes that a machine is asked for by a run. -/
def events (host : Host σ) (env : Environment) (options : Options) (path : Path) (s : Session σ) :
    List Event :=
  (run host.recorded env options path s.recorded).2.machine.events

/-- A run that comes to execute its program asks for what the execution asks for. -/
theorem events_of_compiled {host : Host σ} {env : Environment} {path : Path} {s : Session σ}
    {c : Compiled} {runtime : Path} (hcompile : (compile host s.machine env path).1 = .ok c)
    (hfind : findRuntime host s.machine env (env.runtimeOverride?.getD c.settings.runtime) =
      .ok runtime) (options : Options) :
    events host env options path s =
      Execution.events host env (job env options c runtime) (afterCompile host env path s) := by
  have hcompile' : (compile host.recorded s.recorded.machine env path).1 = .ok c := hcompile
  have hfind' : findRuntime host.recorded s.recorded.machine env
      (env.runtimeOverride?.getD c.settings.runtime) = .ok runtime := hfind
  unfold events
  rw [run_eq, hcompile']
  dsimp only
  rw [hfind']
  rfl

end Toolchain

end Sandscript
