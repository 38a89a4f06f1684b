import Mathlib
import Sandscript.Machine
import Sandscript.Proofs.Recording

/-!
# Failures that leave nothing behind

Most of what can go wrong with a run goes wrong before there is a workspace: the source or the
settings cannot be read, a statement cannot be lowered, the runtime cannot be found. A run that ends
so has asked the machine for nothing and has printed nothing.

The failure to find a runtime has the same constructor as the failure of a program that ran. The
two are told apart by their wording (`toFailure_ne_runtimeMissing`).

* `Failure.BeforeWorkspace` — the failures in question, by their value.
* `failure_of_execute` — an execution ends with none of them.
* `early_failure_harmless` — a run that ends with one of them has done nothing.
-/

namespace Sandscript

namespace Failure

/-- The failures that the source, its statements or the settings give rise to. -/
def ofInput : Failure → Bool
  | sourceMissing _ | sourceEmpty _ | forbiddenImport _ | badStatement _ _ | badSettings _ _ => true
  | noWorkspace _ | runFailed _ _ => false

/-- There is no runtime of the given name. -/
def runtimeMissing (name : Text) : Failure :=
  .runFailed ("host runtime '".toList ++ name ++ "' was not found".toList) none

/-- A failure that comes before there is a workspace. -/
def BeforeWorkspace (f : Failure) : Prop := f.ofInput = true ∨ ∃ name, f = runtimeMissing name

end Failure

open Failure (BeforeWorkspace runtimeMissing)

namespace Execution

variable {σ : Type}

-- ---------------------------------------------------------------------------
-- The failures of an execution
-- ---------------------------------------------------------------------------

/-- No fault of a program is worded like a missing runtime. The texts are compared at their
beginnings, so that neither the name of the runtime nor the cause of the fault matters. -/
theorem toFailure_ne_runtimeMissing (fault : Fault) (name : Text) :
    fault.toFailure ≠ runtimeMissing name := by
  intro h
  obtain ⟨hreason, -⟩ := Failure.runFailed.inj h
  have hwording : fault.message.head? = some 'h' := by
    rw [hreason]
    rfl
  have hword : fault.message.head? = some 'c' ∨ fault.message.head? = some 'f' ∨
      fault.message.head? = some 'p' := by
    cases fault with
    | notStarted runtime cause => exact Or.inl rfl
    | notAwaited cause => exact Or.inr (Or.inl rfl)
    | timedOut limitMs => cases limitMs <;> exact Or.inr (Or.inr rfl)
    | uncaught code => exact Or.inr (Or.inr rfl)
    | killed signal => exact Or.inr (Or.inr rfl)
  rw [hwording] at hword
  exact absurd hword (by decide)

/-- Once the program was started, a failure is a fault of the program. -/
theorem failure_of_conclude {job : Job} {answer : Except IoError Child} {s : Session σ}
    {f : Failure} (h : (conclude job answer s).1 = .error f) :
    ∃ fault : Fault, f = fault.toFailure := by
  unfold conclude settle at h
  split at h
  · next fault _ => exact ⟨fault, (Except.error.inj h).symm⟩
  · exact absurd h (by simp)

/-- A run in a workspace fails because it could not be prepared or because of a fault of the
program, and in no other way. -/
theorem failure_of_runIn {host : Host σ} {env : Environment} {job : Job} {workspace : Path}
    {s : Session σ} {f : Failure} (h : (runIn host env job workspace s).1 = .error f) :
    (∃ e, f = .noWorkspace e) ∨ ∃ fault : Fault, f = fault.toFailure := by
  rcases runIn_cases host env job workspace s with
    ⟨e, s', -, hrun⟩ | ⟨searchPath, ready, answer, ended, -, -, hrun⟩
  · rw [hrun] at h
    exact Or.inl ⟨e, (Except.error.inj h).symm⟩
  · rw [hrun] at h
    rcases hconclude : (conclude job answer ended).1 with fault | code
    · rw [hconclude] at h
      obtain rfl : fault = f := Except.error.inj h
      exact Or.inr (failure_of_conclude hconclude)
    · rw [hconclude] at h
      exact absurd h (by simp [Except.map])

/-- An execution fails because of its workspace or its program, and says so. None of its failures is
one that belongs to the time before the workspace is made. -/
theorem failure_of_execute {host : Host σ} {env : Environment} {job : Job} {s : Session σ}
    {f : Failure} (h : (execute host env job s).1 = .error f) : ¬ f.BeforeWorkspace := by
  have hcases : (∃ e, f = .noWorkspace e) ∨ ∃ fault : Fault, f = fault.toFailure := by
    rcases execute_cases host env job s with ⟨e, -, hexecute⟩ | ⟨workspace, -, hexecute⟩
    · rw [hexecute] at h
      exact Or.inl ⟨e, (Except.error.inj h).symm⟩
    · rw [hexecute] at h
      rcases hrun : (runIn host env job workspace (made host job s)).1 with f' | r
      · rw [hrun] at h
        obtain rfl : f' = f := Except.error.inj h
        exact failure_of_runIn hrun
      · rw [hrun] at h
        exact absurd h (by simp [report, Except.map])
  rintro (hinput | ⟨name, hmissing⟩)
  · rcases hcases with ⟨e, rfl⟩ | ⟨fault, rfl⟩
    · exact absurd hinput (by simp [Failure.ofInput])
    · exact absurd hinput (by simp [Fault.toFailure, Failure.ofInput])
  · rcases hcases with ⟨e, rfl⟩ | ⟨fault, rfl⟩
    · exact absurd hmissing (by simp [runtimeMissing])
    · exact toFailure_ne_runtimeMissing fault name hmissing

end Execution

namespace Toolchain

variable {σ : Type}

-- ---------------------------------------------------------------------------
-- Runs
-- ---------------------------------------------------------------------------

/-- A run that ends before there is a workspace leaves the session as compiling left it. -/
theorem session_of_early {host : Host σ} {env : Environment} {options : Options} {path : Path}
    {s : Session σ} {f : Failure} (hrun : (run host env options path s).1 = .error f)
    (hearly : f.BeforeWorkspace) :
    (run host env options path s).2 = afterCompile host env path s := by
  rcases run_cases host env options path s with
    ⟨f', -, heq⟩ | ⟨c, f', -, -, heq⟩ | ⟨c, runtime, -, -, heq⟩
  · rw [heq]
  · rw [heq]
  · rw [heq] at hrun
    exact absurd hearly (Execution.failure_of_execute hrun)

/-- **Failures before execution have no effects.** A run that ends with a failure of its input, or
without a runtime, has asked the machine for no change, started no program, and printed nothing. So
a run for which a workspace was made does not end with such a failure. -/
theorem early_failure_harmless (host : Host σ) (env : Environment) (options : Options)
    (path : Path) (s : Session σ) :
    (∀ f, (run host env options path s).1 = .error f → f.BeforeWorkspace →
      events host env options path s = [] ∧
      (run host env options path s).2.machine = s.machine ∧
      (run host env options path s).2.out = s.out ∧
      (run host env options path s).2.err = s.err) ∧
    (∀ parent workspace,
      .makeWorkspace parent (.ok workspace) ∈ events host env options path s →
      ∀ f, (run host env options path s).1 = .error f → ¬ f.BeforeWorkspace) := by
  have hnone : ∀ f, (run host env options path s).1 = .error f → f.BeforeWorkspace →
      events host env options path s = [] := by
    intro f hrun hearly
    rw [← s.erased_recorded, run_erased] at hrun
    unfold events
    rw [session_of_early hrun hearly]
    rfl
  constructor
  · intro f hrun hearly
    refine ⟨hnone f hrun hearly, ?_⟩
    rw [session_of_early hrun hearly]
    exact ⟨rfl, rfl, rfl⟩
  · intro parent workspace hmade f hrun hearly
    rw [hnone f hrun hearly] at hmade
    exact absurd hmade (by simp)

namespace ScriptSample

/-- A machine with a script, and with a file that can be named as the runtime. -/
def machine (script : String) : Machine where
  disk := ⟨[(["tmp".toList], .directory), (["app".toList], .directory),
    (["app".toList, "a.fnr".toList], .file (Utf8.encode script.toList) false),
    (["app".toList, "rt".toList], .file [] false)]⟩

def session (script : String) : Session Machine :=
  { machine := machine script, out := .unbounded, err := .unbounded }

/-- Variables that name the given runtime. -/
def environment (runtime : String) : Environment :=
  ⟨[(Environment.runtimeVar, runtime.toList)], .ofString "/app"⟩

/-- The operations of a machine on which no file can be written. -/
def sealed : Host Machine := { Machine.host with writeFile := fun m _ _ => (.error .denied, m) }

/-- What is read to compile the script. -/
def inputs (script : String) : Inputs :=
  ⟨⟨.ofString "/app/a.fnr", script.toList⟩, .ofString "/app", {}⟩

/-- How running the script ends. -/
def ending (host : Host Machine) (runtime script : String) : Except Failure Execution :=
  (run host (environment runtime) {} (.ofString "a.fnr") (session script)).1

/-- What running the script asks of the machine. -/
def changes (host : Host Machine) (runtime script : String) : List Event :=
  events host (environment runtime) {} (.ofString "a.fnr") (session script)

theorem compile_eq (host : Host Machine) (runtime script : String)
    (h : readInputs host (machine script) (environment runtime) (.ofString "a.fnr") =
      .ok (inputs script)) :
    (compile host (session script).machine (environment runtime) (.ofString "a.fnr")).1 =
      (inputs script).compile := by
  unfold compile
  rw [show (session script).machine = machine script from rfl, h]

end ScriptSample

open ScriptSample

/-- An import on the second line, a runtime that does not exist, and a disk on which the program
cannot be written: the first two runs do nothing, the third one makes a workspace and ends with
another failure. -/
theorem early_failure_harmless_samples :
    (ending Machine.host "rt" "log(1)\nimport fs" = .error (.forbiddenImport 2) ∧
      changes Machine.host "rt" "log(1)\nimport fs" = []) ∧
    (ending Machine.host "rt" "log(1)" = .error (runtimeMissing "rt".toList) ∧
      changes Machine.host "rt" "log(1)" = []) ∧
    ∃ parent workspace f,
      .makeWorkspace parent (.ok workspace) ∈ changes sealed "/app/rt" "log(1)" ∧
      ending sealed "/app/rt" "log(1)" = .error f ∧ ¬ f.BeforeWorkspace := by
  obtain ⟨c, hc⟩ : ∃ c, (inputs "log(1)").compile = .ok c := ⟨_, rfl⟩
  refine ⟨?_, ?_, ?_⟩
  · have hcompile := compile_eq Machine.host "rt" "log(1)\nimport fs" (by cbv)
    have hrun : ending Machine.host "rt" "log(1)\nimport fs" = .error (.forbiddenImport 2) := by
      unfold ending
      rw [run_eq, hcompile]
      rfl
    exact ⟨hrun, ((early_failure_harmless ..).1 _ hrun (Or.inl rfl)).1⟩
  · have hcompile := (compile_eq Machine.host "rt" "log(1)" (by cbv)).trans hc
    have hfind : findRuntime Machine.host (session "log(1)").machine (environment "rt")
        ((environment "rt").runtimeOverride?.getD c.settings.runtime) =
        .error (runtimeMissing "rt".toList) := by cbv
    have hrun : ending Machine.host "rt" "log(1)" = .error (runtimeMissing "rt".toList) := by
      unfold ending
      rw [run_eq, hcompile]
      dsimp only
      rw [hfind]
    exact ⟨hrun, ((early_failure_harmless ..).1 _ hrun (Or.inr ⟨_, rfl⟩)).1⟩
  · have hcompile := (compile_eq sealed "/app/rt" "log(1)" (by cbv)).trans hc
    have hfind : findRuntime sealed (session "log(1)").machine (environment "/app/rt")
        ((environment "/app/rt").runtimeOverride?.getD c.settings.runtime) =
        .ok (.ofString "/app/rt") := by cbv
    have hmade : (sealed.makeWorkspace
        (afterCompile sealed (environment "/app/rt") (.ofString "a.fnr") (session "log(1)")).machine
        (job (environment "/app/rt") {} c (.ofString "/app/rt")).workspaceParent).1 =
        .ok (.ofString "/tmp/fenrir-0-xxxxx0") := by
      show (sealed.makeWorkspace (machine "log(1)") (.ofString "/tmp")).1 = _
      cbv
    have hrun : ending sealed "/app/rt" "log(1)" = .error (.noWorkspace .denied) := by
      unfold ending
      rw [run_eq, hcompile]
      dsimp only
      rw [hfind]
      dsimp only
      rw [Execution.execute_of_made hmade]
      rfl
    obtain ⟨new, start, -, -, hevents⟩ :=
      Execution.events_of_made hmade (environment "/app/rt")
    rw [← events_of_compiled hcompile hfind] at hevents
    have hevent : .makeWorkspace (.ofString "/tmp") (.ok (.ofString "/tmp/fenrir-0-xxxxx0")) ∈
        changes sealed "/app/rt" "log(1)" := by
      unfold changes
      rw [hevents]
      exact List.mem_cons_self ..
    exact ⟨_, _, _, hevent, hrun, (early_failure_harmless ..).2 _ _ hevent _ hrun⟩

end Toolchain

end Sandscript
