import Mathlib
import Sandscript.Proofs.Forwarding
import Sandscript.Proofs.Outcomes

/-!
# Reports that get lost

Whether a program reported an uncaught error is found out while its error stream is passed on. A
sink that refuses a line ends both, and then nothing is known of a report, not even of one that was
passed on before. So where output goes has a part in what a run is taken for, though in nothing
else.

* `reported_passedOn` — a report counts if it was written and every line was taken.
* `execute_redirect` — an execution asks the same of its machine whatever the sink is, and all that
  the sink decides is whether the report counts.
* `alike_iff` — hence two sinks lead to the same result, except for a program that exits with a
  status other than zero after a report, where one of them takes every line and the other does not.
-/

namespace Sandscript

namespace Execution

variable {σ : Type}

/-- The error stream takes every line that a program writes to it, after what was printed before. -/
def takes (err : Sink) (job : Job) (searchPath : Text) (bytes : Bytes) : Bool :=
  ((err.printAll (textsBefore job searchPath)).writeAll (Forward.lines bytes)).1

/-- A report is seen exactly if the program wrote one and the stream took every line. A stream that
refuses a line later loses the report that it took before. -/
theorem reported_passedOn (err : Sink) (job : Job) (searchPath : Text)
    (answer : Except IoError Child) :
    (passedOn err job searchPath answer).1.reported =
      (takes err job searchPath (writtenTo answer) && Forward.reports (writtenTo answer)) := by
  unfold passedOn takes
  rw [Forward.stream_eq]
  split
  · next htaken => simp [htaken]
  · next hrefused => simp [hrefused]

/-- A report makes a difference for a program that exits with a status other than zero, and for no
other. This is the one place at which the error stream can have a part in the outcome. -/
theorem verdict_report (job : Job) (answer : Except IoError Child) :
    (∃ child code, answer = .ok child ∧ child.ending = .exited code ∧ code ≠ 0 ∧
      ∀ reported, verdict job reported answer =
        if reported then .error (.uncaught code) else .ok code) ∨
    (∀ child code, answer = .ok child → child.ending = .exited code → code = 0) ∧
      ∀ reported, verdict job reported answer = verdict job false answer := by
  rcases answer with e | ⟨out, err, ending⟩
  · exact Or.inr ⟨by simp, fun _ => rfl⟩
  · cases ending with
    | exited code =>
      by_cases hzero : code = 0
      · refine Or.inr ⟨?_, fun reported => ?_⟩
        · rintro child code' hchild hending
          obtain rfl := Except.ok.inj hchild
          exact (Ending.exited.inj hending).symm.trans hzero
        · simp [verdict, judge, hzero]
      · exact Or.inl ⟨_, code, rfl, rfl, hzero, fun reported => by simp [verdict, judge, hzero]⟩
    | killed signal => exact Or.inr ⟨by rintro _ _ ⟨⟩ ⟨⟩, fun _ => rfl⟩
    | timedOut => exact Or.inr ⟨by rintro _ _ ⟨⟩ ⟨⟩, fun _ => rfl⟩
    | unknown cause => exact Or.inr ⟨by rintro _ _ ⟨⟩ ⟨⟩, fun _ => rfl⟩

-- ---------------------------------------------------------------------------
-- The same run with another sink
-- ---------------------------------------------------------------------------

/-- The preparation does not depend on the error stream: it gives the same result and leaves the
same machine. Whatever it prints goes to the stream, and nothing is read back from there. -/
theorem prepare_redirect (host : Host σ) (env : Environment) (job : Job) (workspace : Path)
    (s : Session σ) (err : Sink) :
    (prepare host env job workspace { s with err }).1 = (prepare host env job workspace s).1 ∧
    (prepare host env job workspace { s with err }).2.machine =
      (prepare host env job workspace s).2.machine := by
  constructor
  · have hcopied : copied host job workspace { s with err } =
        { copied host job workspace s with err } := rfl
    unfold prepare Session.act
    rw [hcopied]
    dsimp only
    rcases writeProgram host job.program workspace (copied host job workspace s).machine with
      ⟨e | _, m⟩
    · rfl
    · dsimp only
      rcases Workspace.searchPath workspace job.root job.dependencyDir env.inheritedSearchPath?
        with e | searchPath
      · rfl
      · rfl
  · rw [machine_prepare, machine_prepare]
    rfl

/-- Which start is recorded of an execution: that of its program, once the workspace is prepared.
The record holds no other start, because making the workspace, preparing it and removing it start
nothing. -/
theorem launch_mem_events_iff {host : Host σ} {env : Environment} {job : Job} {workspace : Path}
    {s : Session σ} (h : (host.makeWorkspace s.machine job.workspaceParent).1 = .ok workspace)
    {l : Launch} {answer : Except IoError Child} :
    .launch l answer ∈ events host env job s ↔
      ∃ searchPath ready, prepare host env job workspace (made host job s) =
          (.ok searchPath, ready) ∧
        l = launchOf env job workspace searchPath ∧ answer = (host.launch ready.machine l).1 := by
  constructor
  · intro hin
    have hmade : (host.recorded.makeWorkspace s.recorded.machine job.workspaceParent).1 =
        .ok workspace := h
    obtain ⟨new, start, hputs, hevents, hstart⟩ :=
      runIn_recorded host env job workspace (made host.recorded job s.recorded)
    obtain ⟨log, hremove⟩ := removeWorkspace_eq host.recorded workspace
      (runIn host.recorded env job workspace (made host.recorded job s.recorded)).2
    -- neither making the workspace nor preparing it starts a program
    have hinside : ∀ l answer, .launch l answer ∈ (runIn host.recorded env job workspace
        (made host.recorded job s.recorded)).2.machine.events → .launch l answer ∈ start := by
      intro l answer hlaunch
      rw [hevents, List.mem_append, List.mem_append] at hlaunch
      rcases hlaunch with (hfirst | hput) | hlaunch
      · exact absurd (List.mem_singleton.mp hfirst) (by simp)
      · exact absurd (hputs _ hput) (by simp [Event.puts])
      · exact hlaunch
    unfold events at hin
    rw [execute_of_made hmade, hremove] at hin
    rcases List.mem_append.mp hin with hin | hlast
    · -- with the record erased, this is the start from the session that was prepared
      have hlaunch := hinside l answer hin
      rcases hstart with ⟨rfl, -⟩ | ⟨searchPath, ready, answer', m, hready, rfl, -⟩
      · exact absurd hlaunch List.not_mem_nil
      · have hprepare : prepare host env job workspace (made host job s) =
            (.ok searchPath, ready.erased) := by
          have herased := (prepare_erased host env job workspace
            (made host.recorded job s.recorded)).1
          rw [hready] at herased
          exact herased
        have hstarted := hinside _ _ (launched_of_prepare hprepare)
        obtain ⟨rfl, rfl⟩ := Event.launch.inj (List.mem_singleton.mp hlaunch)
        obtain ⟨-, hanswer⟩ := Event.launch.inj (List.mem_singleton.mp hstarted)
        exact ⟨searchPath, ready.erased, hprepare, rfl, hanswer.symm⟩
    · exact absurd (List.mem_singleton.mp hlast) (by simp)
  · rintro ⟨searchPath, ready, hprepare, rfl, rfl⟩
    exact launched_of_made h hprepare

/-- If the workspace cannot be prepared, the execution fails with this and starts nothing. -/
theorem execute_of_unprepared {host : Host σ} {env : Environment} {job : Job} {workspace : Path}
    {s : Session σ} {e : IoError}
    (hmade : (host.makeWorkspace s.machine job.workspaceParent).1 = .ok workspace)
    (h : (prepare host env job workspace (made host job s)).1 = .error e) :
    (execute host env job s).1 = .error (.noWorkspace e) ∧
    ∀ l answer, .launch l answer ∉ events host env job s := by
  constructor
  · rw [execute_of_made hmade env]
    rcases runIn_cases host env job workspace (made host job s) with
      ⟨e', s', hfailed, hrun⟩ | ⟨searchPath, ready, -, -, hready, -, -⟩
    · rw [hfailed] at h
      obtain rfl := Except.error.inj h
      rw [hrun]
      rfl
    · rw [hready] at h
      exact absurd h (by simp)
  · intro l answer hin
    obtain ⟨searchPath, ready, hready, -⟩ := (launch_mem_events_iff hmade).mp hin
    rw [hready] at h
    exact absurd h (by simp)

/-- If the workspace was prepared, the program is started once, and the result is the verdict on its
answer. The stream enters by one bit, whether the report was passed on. -/
theorem execute_of_prepared {host : Host σ} {env : Environment} {job : Job} {workspace : Path}
    {s ready : Session σ} {searchPath : Text} {answer : Except IoError Child}
    (hmade : (host.makeWorkspace s.machine job.workspaceParent).1 = .ok workspace)
    (h : prepare host env job workspace (made host job s) = (.ok searchPath, ready))
    (hanswer : (host.launch ready.machine (launchOf env job workspace searchPath)).1 = answer) :
    (execute host env job s).1 =
      report workspace (((verdict job (passedOn s.err job searchPath answer).1.reported
        answer).mapError Fault.toFailure).map
          (·, copyWarnings host job workspace (made host job s))) ∧
    ∀ l answer', .launch l answer' ∈ events host env job s ↔
      l = launchOf env job workspace searchPath ∧ answer' = answer := by
  constructor
  · -- the stream that the output is passed to has got the texts of the preparation
    have herr : ready.err = (made host job s).err.printAll (textsBefore job searchPath) :=
      err_prepare h
    rw [execute_of_made hmade env]
    rcases runIn_cases host env job workspace (made host job s) with
      ⟨e, s', hfailed, -⟩ | ⟨searchPath', ready', answer', ended, hready, hlaunch, hrun⟩
    · exact absurd (congrArg Prod.fst (hfailed.symm.trans h)) (by simp)
    · obtain ⟨hpath, rfl⟩ := Prod.mk.inj (hready.symm.trans h)
      obtain rfl := Except.ok.inj hpath
      obtain ⟨rfl, rfl⟩ := Prod.mk.inj hlaunch
      rw [hrun, (conclude_eq job _ _).1, hanswer]
      show report workspace (((verdict job (Forward.stream ready'.err _).1.reported
        answer).mapError _).map _) = _
      rw [herr]
      rfl
  · intro l answer'
    rw [launch_mem_events_iff hmade]
    constructor
    · rintro ⟨searchPath', ready', hready, rfl, rfl⟩
      obtain ⟨hpath, rfl⟩ := Prod.mk.inj (hready.symm.trans h)
      obtain rfl := Except.ok.inj hpath
      exact ⟨rfl, hanswer⟩
    · rintro ⟨rfl, rfl⟩
      exact ⟨searchPath, ready, h, rfl, hanswer.symm⟩

/-- **The part that the sink has in an execution**: none if no program is asked to be started, and
otherwise it decides whether a report counts. -/
theorem execute_redirect (host : Host σ) (env : Environment) (job : Job) (s : Session σ) :
    (∃ f, ∀ err, (execute host env job { s with err }).1 = .error f ∧
      ∀ l answer, .launch l answer ∉ events host env job { s with err }) ∨
    ∃ workspace searchPath answer warnings, ∀ err,
      (execute host env job { s with err }).1 =
        report workspace (((verdict job (passedOn err job searchPath answer).1.reported
          answer).mapError Fault.toFailure).map (·, warnings)) ∧
      ∀ l answer', .launch l answer' ∈ events host env job { s with err } ↔
        l = launchOf env job workspace searchPath ∧ answer' = answer := by
  rcases hmade : (host.makeWorkspace s.machine job.workspaceParent).1 with e | workspace
  · -- making the workspace does not see the stream
    refine Or.inl ⟨.noWorkspace e, fun err => ⟨?_, fun l answer hin => ?_⟩⟩
    · rcases execute_cases host env job { s with err } with ⟨e', he, hexecute⟩ | ⟨_, hok, -⟩
      · obtain rfl := Except.error.inj (he.symm.trans hmade)
        rw [hexecute]
      · exact absurd (hok.symm.trans hmade) (by simp)
    · unfold events at hin
      rcases execute_cases host.recorded env job (Session.recorded { s with err }) with
        ⟨e', -, hexecute⟩ | ⟨_, hok, -⟩
      · rw [hexecute] at hin
        exact absurd (List.mem_singleton.mp hin) (by simp)
      · exact absurd (hok.symm.trans hmade) (by simp)
  · have hsame := prepare_redirect host env job workspace (made host job s)
    rcases hprepare : prepare host env job workspace (made host job s) with ⟨e | searchPath, ready⟩
    · rw [hprepare] at hsame
      exact Or.inl ⟨.noWorkspace e, fun err =>
        execute_of_unprepared (s := { s with err }) hmade (hsame err).1⟩
    · rw [hprepare] at hsame
      refine Or.inr ⟨workspace, searchPath,
        (host.launch ready.machine (launchOf env job workspace searchPath)).1,
        copyWarnings host job workspace (made host job s), fun err => ?_⟩
      obtain ⟨hpath, hmachine⟩ := hsame err
      -- with any stream the preparation ends at the same machine, so the answer is the same
      have hready : prepare host env job workspace { made host job s with err } =
          (.ok searchPath, (prepare host env job workspace { made host job s with err }).2) :=
        Prod.ext hpath rfl
      refine execute_of_prepared (s := { s with err }) hmade hready ?_
      exact congrArg (fun m => (host.launch m (launchOf env job workspace searchPath)).1) hmachine

-- ---------------------------------------------------------------------------
-- Results that a caller takes alike
-- ---------------------------------------------------------------------------

/-- Two runs are taken alike: both have ended well, or both have failed for one reason. Programs
that did not run to a regular end have failed for one reason if their status is the same. -/
def Alike : Except Failure Execution → Except Failure Execution → Prop
  | .ok _, .ok _ => True
  | .error (.runFailed _ status), .error (.runFailed _ status') => status = status'
  | .error f, .error f' => f = f'
  | _, _ => False

theorem Alike.refl (r : Except Failure Execution) : Alike r r := by
  rcases r with f | execution
  · cases f <;> rfl
  · trivial

/-- What is made of a program that exited with a status other than zero, given whether a report of
it counts. -/
def exited (workspace : Path) (warnings : List CopyWarning) (code : Nat) (counts : Bool) :
    Except Failure Execution :=
  if counts then .error (Fault.uncaught code).toFailure else .ok ⟨code, workspace, warnings⟩

/-- The report of a program that exited by itself, with the one bit on which it depends. -/
theorem report_exited (workspace : Path) (warnings : List CopyWarning) (code : Nat)
    (counts : Bool) :
    report workspace (((if counts then .error (.uncaught code) else .ok code :
      Except Fault Nat).mapError Fault.toFailure).map (·, warnings)) =
        exited workspace warnings code counts := by
  cases counts <;> rfl

/-- Two results of the same exit are alike exactly if the report counts in both or in neither. -/
theorem alike_exited {workspace : Path} {warnings : List CopyWarning} {code : Nat}
    {counts counts' : Bool} :
    Alike (exited workspace warnings code counts) (exited workspace warnings code counts') ↔
      counts = counts' := by
  cases counts <;> cases counts' <;> simp [exited, Alike, Fault.toFailure]

/-- It has failed if the report counts, and ended well if it does not. -/
theorem exited_cases (workspace : Path) (warnings : List CopyWarning) (code : Nat)
    (counts : Bool) :
    if counts then
      ∃ reason, exited workspace warnings code counts = .error (.runFailed reason (some code))
    else ∃ execution : Execution, exited workspace warnings code counts = .ok execution ∧
      execution.exitCode = code := by
  cases counts with
  | true => exact ⟨_, rfl⟩
  | false => exact ⟨_, rfl, rfl⟩

theorem and_eq_and_iff {a b c : Bool} : (a && c) = (b && c) ↔ (c = true → a = b) := by
  cases c <;> simp

/-- The search path can be read off the launch, so two equal launches have the same. -/
theorem searchPath_of_launchOf {env : Environment} {job : Job} {directory directory' : Path}
    {searchPath searchPath' : Text}
    (h : launchOf env job directory searchPath = launchOf env job directory' searchPath') :
    searchPath = searchPath' := by
  have hvars := List.append_cancel_left (congrArg Launch.vars h)
  exact (Prod.mk.inj (List.cons.inj hvars).1).2

/-- **Where output goes decides what a run is taken for, in one case.** Whatever two error streams
take or refuse, the machine is asked for the same. Their runs have the same result, and are taken
alike, exactly if this case does not arise: a program exits with a status other than zero, a line it
wrote reports an uncaught error, and one stream takes all of its lines while the other does not. The
run has then failed with the first stream, and ended well with the second. -/
theorem alike_iff (host : Host σ) (env : Environment) (job : Job) (s : Session σ)
    (err err' : Sink) :
    (∀ l answer, .launch l answer ∈ events host env job { s with err } ↔
      .launch l answer ∈ events host env job { s with err := err' }) ∧
    (Alike (execute host env job { s with err }).1 (execute host env job { s with err := err' }).1 ↔
      ∀ directory searchPath child (code : Nat),
        .launch (launchOf env job directory searchPath) (.ok child) ∈
          events host env job { s with err } →
        child.ending = .exited code → code ≠ 0 → Forward.reports child.err = true →
        takes err job searchPath child.err = takes err' job searchPath child.err) ∧
    (Alike (execute host env job { s with err }).1 (execute host env job { s with err := err' }).1 →
      (execute host env job { s with err }).1 = (execute host env job { s with err := err' }).1) ∧
    ∀ directory searchPath child (code : Nat),
      .launch (launchOf env job directory searchPath) (.ok child) ∈
        events host env job { s with err } →
      child.ending = .exited code → code ≠ 0 → Forward.reports child.err = true →
      if takes err job searchPath child.err then
        ∃ reason, (execute host env job { s with err }).1 = .error (.runFailed reason (some code))
      else ∃ execution : Execution, (execute host env job { s with err }).1 = .ok execution ∧
        execution.exitCode = code := by
  rcases execute_redirect host env job s with
    ⟨f, hsame⟩ | ⟨workspace, searchPath, answer, warnings, hsame⟩
  · -- no program is started, with neither stream
    obtain ⟨hresult, hnone⟩ := hsame err
    obtain ⟨hresult', hnone'⟩ := hsame err'
    rw [hresult, hresult']
    refine ⟨fun l answer => iff_of_false (hnone l answer) (hnone' l answer), ?_, fun _ => rfl, ?_⟩
    · exact iff_of_true (Alike.refl _) fun _ _ _ _ hlaunch => absurd hlaunch (hnone _ _)
    · exact fun _ _ _ _ hlaunch => absurd hlaunch (hnone _ _)
  · obtain ⟨hresult, hlaunch⟩ := hsame err
    obtain ⟨hresult', hlaunch'⟩ := hsame err'
    refine ⟨fun l answer' => (hlaunch l answer').trans (hlaunch' l answer').symm, ?_⟩
    rcases verdict_report job answer with
      ⟨child, code, rfl, hending, hcode, hverdict⟩ | ⟨hzero, hverdict⟩
    · -- this program is the only one that is started, and its report settles the run
      have honly : ∀ directory searchPath' child' (code' : Nat), .launch (launchOf env job directory
          searchPath') (.ok child') ∈ events host env job { s with err } →
          child'.ending = .exited code' → searchPath' = searchPath ∧ child' = child ∧
            code' = code := by
        intro directory searchPath' child' code' hin hending'
        obtain ⟨hl, hchild⟩ := (hlaunch _ _).mp hin
        obtain rfl := Except.ok.inj hchild
        exact ⟨searchPath_of_launchOf hl, rfl, Ending.exited.inj (hending'.symm.trans hending)⟩
      have hstarted : .launch (launchOf env job workspace searchPath) (.ok child) ∈
          events host env job { s with err } := (hlaunch _ _).mpr ⟨rfl, rfl⟩
      rw [hverdict, report_exited, reported_passedOn] at hresult hresult'
      rw [hresult, hresult', alike_exited, and_eq_and_iff]
      refine ⟨⟨fun hsame => ?_, fun hall hreports => ?_⟩, fun hsame => ?_, ?_⟩
      · intro directory searchPath' child' code' hin hending' _ hreports
        obtain ⟨rfl, rfl, rfl⟩ := honly _ _ _ _ hin hending'
        exact hsame hreports
      · exact hall workspace searchPath child code hstarted hending hcode hreports
      · rw [and_eq_and_iff.mpr hsame]
      · intro directory searchPath' child' code' hin hending' _ hreports
        obtain ⟨rfl, rfl, rfl⟩ := honly _ _ _ _ hin hending'
        have hreports' : Forward.reports (writtenTo (.ok child')) = true := hreports
        rw [hreports', Bool.and_true]
        exact exited_cases workspace _ code' (takes err job searchPath' child'.err)
    · -- the report makes no difference
      have hequal : (execute host env job { s with err }).1 =
          (execute host env job { s with err := err' }).1 := by
        rw [hresult, hresult', hverdict, hverdict (passedOn err' job searchPath answer).1.reported]
      have hnone : ∀ directory searchPath' child (code : Nat), .launch (launchOf env job directory
          searchPath') (.ok child) ∈ events host env job { s with err } →
          child.ending = .exited code → code = 0 := fun _ _ child code hin hending =>
        hzero child code ((hlaunch _ _).mp hin).2.symm hending
      refine ⟨iff_of_true (hequal ▸ Alike.refl _) ?_, fun _ => hequal, ?_⟩
      · exact fun _ _ _ _ hin hending hcode => absurd (hnone _ _ _ _ hin hending) hcode
      · exact fun _ _ _ _ hin hending hcode => absurd (hnone _ _ _ _ hin hending) hcode

open ReportSample (reporting job place session child)
open Toolchain.ScriptSample (environment)

/-- What is made of the sample's program is settled by what becomes of its error stream. -/
theorem execute_reporting (err : Sink) :
    (execute reporting (environment "/app/rt") job { session with err }).1 =
      exited place [] 3 (Forward.stream err child.err).1.reported := by
  have hmade : (reporting.makeWorkspace session.machine job.workspaceParent).1 = .ok place := by cbv
  have hprepare : prepare reporting (environment "/app/rt") job place
      (made reporting job { session with err }) = (.ok _, _) := rfl
  rw [(execute_of_prepared (s := { session with err }) hmade hprepare rfl).1]
  exact report_exited place [] 3 (Forward.stream err child.err).1.reported

/-- A program that reports an uncaught error and exits with status three has failed if the error
stream takes the report. If the stream is full, the program has ended well. -/
theorem not_alike_of_full_stream :
    child.ending = .exited 3 ∧ Forward.reports child.err = true ∧
    (∃ reason, (execute reporting (environment "/app/rt") job
      { session with err := .unbounded }).1 = .error (.runFailed reason (some 3))) ∧
    (execute reporting (environment "/app/rt") job { session with err := .bounded 4 }).1 =
      .ok ⟨3, place, []⟩ ∧
    ¬ Alike (execute reporting (environment "/app/rt") job { session with err := .unbounded }).1
      (execute reporting (environment "/app/rt") job { session with err := .bounded 4 }).1 := by
  have htaken : (Forward.stream .unbounded child.err).1.reported = true := by cbv
  have hrefused : (Forward.stream (.bounded 4) child.err).1.reported = false := by cbv
  rw [execute_reporting, execute_reporting, htaken, hrefused, alike_exited]
  exact ⟨rfl, by cbv, ⟨_, rfl⟩, rfl, by decide⟩

end Execution

end Sandscript
