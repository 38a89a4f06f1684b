import Mathlib
import Sandscript.Console
import Sandscript.Proofs.EarlyFailures
import Sandscript.Proofs.Listing

/-!
# What becomes of a run

Once its workspace is prepared, all that matters for a run is the machine's answer to starting the
program, and whether the lines passed on to the error stream held a report of an uncaught error.
This module says which outcomes there are and what is printed with each.

* `verdict_eq_ok_iff` — the one good ending: an exit of its own, with no report or with status zero.
* `status_of_verdict` — a failure has the status of the answer (`status?`), if that has one.
* `conclude_eq` — what is printed: the listing of the entry file after a failure, and nothing else.
* `code_of_conclude` — the status of a run is that of the answer, and one if it has none; the report
  has no part in it.
* `code_of_command` — the command ends with the status of the run, unless it has a failure to tell
  of and its error stream refuses the message.
* `outcome_law` — all of this together, for runs in a workspace and for the command.
-/

namespace Sandscript

-- ---------------------------------------------------------------------------
-- Listings that can be told apart
-- ---------------------------------------------------------------------------

namespace Program

/-- The entry file has one line more than the program, the import of the prelude. So the two
listings of a failed run can be told apart. -/
theorem length_endedLines_entryText (p : Program) :
    (Text.endedLines p.entryText).length = (Text.endedLines p.text).length + 1 := by
  have hline : Text.lines Prelude.importLine = [Prelude.importLine] :=
    Text.lines_of_notMem (by decide)
  have hlines : Text.lines p.entryText = Prelude.importLine :: Text.lines p.text := by
    have hclosed : p.entryText = Text.closed [Prelude.importLine] ++ p.text := by
      simp [entryText, Text.closed]
    rw [hclosed, Text.lines_closed_append, List.flatMap_singleton, hline, List.singleton_append]
  obtain ⟨init, last, hp⟩ :=
    (List.eq_nil_or_concat (Text.lines p.text)).resolve_left (Text.lines_ne_nil p.text)
  rw [List.concat_eq_append] at hp
  rw [hp, ← List.cons_append] at hlines
  rw [Text.endedLines_eq hp, Text.endedLines_eq hlines]
  simp only [List.map_cons, List.length_append, List.length_cons]
  omega

end Program

-- ---------------------------------------------------------------------------
-- Answers to starting a program
-- ---------------------------------------------------------------------------

/-- Prints texts one after the other, each in pieces until one is refused. -/
def Sink.printAll (sink : Sink) (texts : List (List Text)) : Sink := texts.foldl Sink.print sink

namespace Sink

/-- A sink that refuses nothing. -/
def TakesAll (sink : Sink) : Prop := ∀ before piece, sink.admits before piece = true

/-- Writing does not change which pieces a sink takes. -/
theorem admits_write (sink : Sink) (piece : Bytes) : (sink.write piece).2.admits = sink.admits := by
  unfold write
  split
  · rfl
  · split
    · rfl
    · rfl

/-- Nor does writing several pieces, also when one of them is refused and the others are not tried.
-/
theorem admits_writeAll (sink : Sink) (pieces : List Bytes) :
    (sink.writeAll pieces).2.admits = sink.admits := by
  induction pieces generalizing sink with
  | nil => rfl
  | cons piece pieces ih =>
    have hwrite := sink.admits_write piece
    rw [writeAll]
    split
    · next rest h =>
      rw [h] at hwrite
      rw [ih, hwrite]
    · next rest h =>
      rw [h] at hwrite
      exact hwrite

theorem admits_printAll (sink : Sink) (texts : List (List Text)) :
    (sink.printAll texts).admits = sink.admits := by
  induction texts generalizing sink with
  | nil => rfl
  | cons text texts ih => exact (ih (sink.print text)).trans (sink.admits_writeAll _)

/-- A sink that refuses nothing takes all pieces, in every state it can be in. -/
theorem TakesAll.writeAll {sink : Sink} (h : sink.TakesAll) (pieces : List Bytes) :
    (sink.writeAll pieces).1 = true := by
  induction pieces generalizing sink with
  | nil => rfl
  | cons piece pieces ih =>
    have hadmits := sink.admits_write piece
    have htaken : (sink.write piece).1 = true := by
      unfold write
      split
      · rfl
      · rw [h]
        rfl
    rw [Sink.writeAll]
    split
    · next rest hwrite =>
      rw [hwrite] at hadmits
      refine ih fun before piece => ?_
      rw [hadmits]
      exact h before piece
    · next rest hwrite =>
      rw [hwrite] at htaken
      exact absurd htaken Bool.false_ne_true

end Sink

/-- Passing lines on does not change which pieces a sink takes. -/
theorem Forward.admits_pass (reported : Bool) (sink : Sink) (ls : List Bytes) :
    (pass reported sink ls).2.admits = sink.admits := by
  induction ls generalizing reported sink with
  | nil => rfl
  | cons l ls ih =>
    have hwrite := sink.admits_write l
    rw [pass]
    split
    · next rest h =>
      rw [h] at hwrite
      rw [ih, hwrite]
    · next rest h =>
      rw [h] at hwrite
      exact hwrite

namespace Execution

variable {σ : Type}

/-- What a program wrote to its error stream. -/
def writtenTo : Except IoError Child → Bytes
  | .ok child => child.err
  | .error _ => []

/-- The status of a program, if it has one. A signal counts from 128 on. -/
def status? : Except IoError Child → Option Int
  | .ok child =>
    match child.ending with
    | .exited code => some code
    | .killed signal => some (128 + signal)
    | .timedOut | .unknown _ => none
  | .error _ => none

/-- The program exited by itself with a status, and that is zero or no uncaught error was
reported. -/
def EndsWell (answer : Except IoError Child) (reported : Bool) (code : Nat) : Prop :=
  ∃ child, answer = .ok child ∧ child.ending = .exited code ∧ (code = 0 ∨ reported = false)

/-- The verdict is a success exactly if the program ended well, and then it carries the status. One
case for each way in which a program can end. -/
theorem verdict_eq_ok_iff (job : Job) {reported : Bool} {answer : Except IoError Child}
    {code : Nat} : verdict job reported answer = .ok code ↔ EndsWell answer reported code := by
  rcases answer with e | ⟨out, err, ending⟩
  · simp [verdict, EndsWell]
  · cases ending with
    | exited n =>
      rw [verdict, judge]
      -- an exit by itself is a failure only with a status and a report
      by_cases hfault : n ≠ 0 ∧ reported = true
      · obtain ⟨hn, rfl⟩ := hfault
        have hnot : ¬ EndsWell (.ok ⟨out, err, .exited n⟩) true code := by
          rintro ⟨child, hchild, hending, hzero | hnone⟩
          · obtain rfl := Except.ok.inj hchild
            exact hn ((Ending.exited.inj hending).trans hzero)
          · exact absurd hnone (by simp)
        simp [hn, hnot]
      · have hgood : (n = code ↔ EndsWell (.ok ⟨out, err, .exited n⟩) reported code) := by
          constructor
          · rintro rfl
            exact ⟨_, rfl, rfl, by grind⟩
          · rintro ⟨child, hchild, hending, -⟩
            obtain rfl := Except.ok.inj hchild
            exact Ending.exited.inj hending
        rw [if_neg (by simpa using hfault), Except.ok.injEq]
        exact hgood
    | killed signal => simp [verdict, judge, EndsWell]
    | timedOut => simp [verdict, judge, EndsWell]
    | unknown cause => simp [verdict, judge, EndsWell]

/-- A failure has the status of the answer, and that is not zero: a program that exits with zero is
no failure, and the status of a signal is counted from 128 on. -/
theorem status_of_verdict {job : Job} {reported : Bool} {answer : Except IoError Child}
    {fault : Fault} (h : verdict job reported answer = .error fault) :
    fault.status = status? answer ∧ status? answer ≠ some 0 := by
  rcases answer with e | ⟨out, err, ending⟩
  · obtain rfl := Except.error.inj h
    exact ⟨rfl, by simp [status?]⟩
  · rw [verdict] at h
    cases ending with
    | exited n =>
      rw [judge] at h
      split at h
      · next hn =>
        obtain rfl := Except.error.inj h
        exact ⟨rfl, by simp_all [status?]⟩
      · exact absurd h (by simp)
    | killed signal =>
      obtain rfl := Except.error.inj h
      refine ⟨rfl, ?_⟩
      simp only [status?, ne_eq, Option.some.injEq]
      omega
    | timedOut =>
      obtain rfl := Except.error.inj h
      exact ⟨rfl, by simp [status?]⟩
    | unknown cause =>
      obtain rfl := Except.error.inj h
      exact ⟨rfl, by simp [status?]⟩

-- ---------------------------------------------------------------------------
-- What is printed
-- ---------------------------------------------------------------------------

/-- What is printed before a program is started. -/
def textsBefore (job : Job) (searchPath : Text) : List (List Text) :=
  if job.debug then
    [["--- generated source ---\n".toList], [Text.numbered job.program.text],
      ["--- ".toList, Environment.searchPathVar, "=".toList, searchPath, " ---\n".toList]]
  else []

/-- What is printed after a run, given whether it ended well. -/
def textsAfter (p : Program) (ok : Bool) : List (List Text) :=
  if ok then []
  else
    [["--- generated source (program starts at line ".toList, Text.ofNat Program.startLine,
      ") ---\n".toList], [Text.numbered p.entryText]]

/-- What comes of passing on a program's error stream, after what was printed before. -/
def passedOn (err : Sink) (job : Job) (searchPath : Text) (answer : Except IoError Child) :
    Forward.Outcome × Sink :=
  Forward.stream (err.printAll (textsBefore job searchPath)) (writtenTo answer)

/-- Before the program is started, the error stream gets the texts of the preparation and nothing
else. -/
theorem err_prepare {host : Host σ} {env : Environment} {job : Job} {workspace : Path}
    {s ready : Session σ} {searchPath : Text}
    (h : prepare host env job workspace s = (.ok searchPath, ready)) :
    ready.err = s.err.printAll (textsBefore job searchPath) := by
  obtain ⟨-, m, log, rfl⟩ := of_prepare h
  rw [textsBefore]
  split
  · rfl
  · rfl

/-- The entry file is listed after a failure only. What is listed before is something else, even if
it is a listing too, since it has one line less. -/
theorem count_listing (job : Job) (searchPath : Text) (ok : Bool) :
    (textsBefore job searchPath ++ textsAfter job.program ok).count
      [Text.numbered job.program.entryText] = if ok then 0 else 1 := by
  have hlength := job.program.length_endedLines_entryText
  have hhead : "--- generated source ---\n".toList ≠ Text.numbered job.program.entryText := by
    intro h
    have hblank := Text.head?_numbered (t := job.program.entryText) (by grind)
    rw [← h] at hblank
    exact absurd hblank (by decide)
  have hprogram : Text.numbered job.program.text ≠ Text.numbered job.program.entryText := by
    intro h
    have hcount := congrArg (List.count '\n') h
    rw [Text.count_newline_numbered, Text.count_newline_numbered] at hcount
    omega
  have hbefore :
      (textsBefore job searchPath).count [Text.numbered job.program.entryText] = 0 := by
    rw [textsBefore]
    split
    · simpa [List.count_cons, hprogram] using hhead
    · rfl
  rw [List.count_append, hbefore, Nat.zero_add, textsAfter]
  split
  · rfl
  · simp

/-- **What follows from an answer**: the verdict on it, and the listing after a failure. -/
theorem conclude_eq (job : Job) (answer : Except IoError Child) (s : Session σ) :
    (conclude job answer s).1 =
      (verdict job (Forward.stream s.err (writtenTo answer)).1.reported answer).mapError
        Fault.toFailure ∧
    (conclude job answer s).2.err = (Forward.stream s.err (writtenTo answer)).2.printAll
      (textsAfter job.program (conclude job answer s).1.isOk) := by
  have hpass : (passOn answer s).1 = (Forward.stream s.err (writtenTo answer)).1.reported ∧
      (passOn answer s).2.err = (Forward.stream s.err (writtenTo answer)).2 := by
    rcases answer with e | child
    · exact ⟨rfl, rfl⟩
    · show (forwardOutput child s).1 = _ ∧ (forwardOutput child s).2.err = _
      rw [forwardOutput_eq]
      exact ⟨rfl, rfl⟩
  unfold conclude
  rw [← hpass.1, ← hpass.2]
  rcases verdict job (passOn answer s).1 answer with fault | code
  · exact ⟨rfl, rfl⟩
  · exact ⟨rfl, rfl⟩

-- ---------------------------------------------------------------------------
-- Which pieces the error stream takes
-- ---------------------------------------------------------------------------

/-- The preparation writes to the error stream only what it prints, and if it fails it writes
nothing. -/
theorem admits_prepare (host : Host σ) (env : Environment) (job : Job) (workspace : Path)
    (s : Session σ) : (prepare host env job workspace s).2.err.admits = s.err.admits := by
  rcases hprepare : prepare host env job workspace s with ⟨e | searchPath, ready⟩
  · unfold prepare Session.act at hprepare
    have hready : ready.err = s.err := by
      split at hprepare
      · next h =>
        obtain ⟨-, rfl⟩ := Prod.mk.inj hprepare
        exact (congrArg (·.2.err) h).symm
      · next h =>
        split at hprepare
        · obtain ⟨-, rfl⟩ := Prod.mk.inj hprepare
          exact (congrArg (·.2.err) h).symm
        · exact absurd (Prod.mk.inj hprepare).1 (by simp)
    exact congrArg Sink.admits hready
  · have hready : ready.err = s.err.printAll (textsBefore job searchPath) := err_prepare hprepare
    exact (congrArg Sink.admits hready).trans (Sink.admits_printAll ..)

/-- After the program has ended, its errors are passed on and texts are printed. -/
theorem admits_conclude (job : Job) (answer : Except IoError Child) (s : Session σ) :
    (conclude job answer s).2.err.admits = s.err.admits := by
  rw [(conclude_eq job answer s).2, Sink.admits_printAll]
  exact Forward.admits_pass ..

/-- The preparation and the end of a run put together, with the program between them, which has no
access to the stream. -/
theorem admits_runIn (host : Host σ) (env : Environment) (job : Job) (workspace : Path)
    (s : Session σ) : (runIn host env job workspace s).2.err.admits = s.err.admits := by
  have hprepared := admits_prepare host env job workspace s
  rcases runIn_cases host env job workspace s with
    ⟨e, s', hprepare, hrun⟩ | ⟨searchPath, ready, answer, ended, hprepare, hlaunch, hrun⟩
  · rw [hprepare] at hprepared
    rw [hrun]
    exact hprepared
  · rw [hprepare] at hprepared
    have hended : ready.err = ended.err := congrArg (·.2.err) hlaunch
    rw [hrun, admits_conclude, ← hended]
    exact hprepared

/-- An execution does not change which pieces its error stream takes. -/
theorem admits_execute (host : Host σ) (env : Environment) (job : Job) (s : Session σ) :
    (execute host env job s).2.err.admits = s.err.admits := by
  rcases execute_cases host env job s with ⟨e, -, hexecute⟩ | ⟨workspace, -, hexecute⟩
  · rw [hexecute]
    rfl
  · obtain ⟨log, hremove⟩ := removeWorkspace_eq host workspace
      (runIn host env job workspace (made host job s)).2
    rw [hexecute, hremove]
    exact admits_runIn host env job workspace (made host job s)

-- ---------------------------------------------------------------------------
-- From the record to the outcome
-- ---------------------------------------------------------------------------

/-- A start that was recorded in a workspace settled what became of it. Nothing else of the run is a
start, so the recorded answer is the one from which the conclusion was drawn. -/
theorem runIn_of_launched {host : Host σ} {env : Environment} {job : Job} {workspace : Path}
    {s : Session (Recorded σ)} {l : Launch} {answer : Except IoError Child}
    (hnew : .launch l answer ∉ s.machine.events)
    (h : .launch l answer ∈ (runIn host.recorded env job workspace s).2.machine.events) :
    ∃ searchPath ready m,
      prepare host env job workspace s.erased = (.ok searchPath, ready) ∧
      runIn host env job workspace s.erased =
        ((conclude job answer { ready with machine := m }).1.map
            (·, copyWarnings host job workspace s.erased),
          (conclude job answer { ready with machine := m }).2) := by
  obtain ⟨new, start, hputs, hevents, hstart⟩ := runIn_recorded host env job workspace s
  obtain ⟨hprepare, hwarnings⟩ := prepare_erased host env job workspace s
  have hin : .launch l answer ∈ start := by
    rw [hevents, List.mem_append, List.mem_append] at h
    rcases h with (hold | hput) | hin
    · exact absurd hold hnew
    · exact absurd (hputs _ hput) (by simp [Event.puts])
    · exact hin
  rcases hstart with ⟨rfl, -⟩ | ⟨searchPath, ready, answer', m, hready, rfl, hrun⟩
  · exact absurd hin List.not_mem_nil
  · obtain ⟨-, rfl⟩ := Event.launch.inj (List.mem_singleton.mp hin)
    refine ⟨searchPath, ready.erased, m.state, by rw [hprepare, hready], ?_⟩
    have herased := conclude_erased job answer { ready with machine := m }
    rw [runIn_erased, hrun, hwarnings]
    change _ = ((conclude job answer (Session.erased { ready with machine := m })).1.map _,
      (conclude job answer (Session.erased { ready with machine := m })).2)
    rw [herased]

/-- In a workspace that could be prepared, the program is started. -/
theorem launched_of_prepare {host : Host σ} {env : Environment} {job : Job} {workspace : Path}
    {s : Session (Recorded σ)} {searchPath : Text} {ready : Session σ}
    (h : prepare host env job workspace s.erased = (.ok searchPath, ready)) :
    .launch (launchOf env job workspace searchPath)
        (host.launch ready.machine (launchOf env job workspace searchPath)).1 ∈
      (runIn host.recorded env job workspace s).2.machine.events := by
  rw [(prepare_erased host env job workspace s).1] at h
  obtain ⟨hpath, hready⟩ := Prod.mk.inj h
  rcases runIn_cases host.recorded env job workspace s with
    ⟨e, s', hprepare, -⟩ | ⟨found, ready', answer, ended, hprepare, hlaunch, hrun⟩
  · rw [hprepare] at hpath
    exact absurd hpath (by simp)
  · rw [hprepare] at hpath hready
    obtain rfl := Except.ok.inj hpath
    have hended : _ = ended := congrArg Prod.snd hlaunch
    rw [hrun, machine_conclude, ← hended, ← hready]
    exact List.mem_append_right _ (List.mem_singleton.mpr rfl)

/-- If the workspace was made and prepared, the program is started in it, and the record of the run
says so. -/
theorem launched_of_made {host : Host σ} {env : Environment} {job : Job} {workspace : Path}
    {s ready : Session σ} {searchPath : Text}
    (hmade : (host.makeWorkspace s.machine job.workspaceParent).1 = .ok workspace)
    (h : prepare host env job workspace (made host job s) = (.ok searchPath, ready)) :
    .launch (launchOf env job workspace searchPath)
        (host.launch ready.machine (launchOf env job workspace searchPath)).1 ∈
      events host env job s := by
  have hmade' : (host.recorded.makeWorkspace s.recorded.machine job.workspaceParent).1 =
      .ok workspace := hmade
  have hinside := launched_of_prepare (s := made host.recorded job s.recorded) h
  obtain ⟨log, hremove⟩ := removeWorkspace_eq host.recorded workspace
    (runIn host.recorded env job workspace (made host.recorded job s.recorded)).2
  unfold events
  rw [execute_of_made hmade', hremove]
  exact List.mem_append_left _ hinside

/-- The result in a workspace and what is printed to the error stream, from the answer to starting
the program. Both are the same as without the record, which is erased. -/
theorem outcome_of_launched {host : Host σ} {env : Environment} {job : Job} {workspace : Path}
    {s : Session σ} {l : Launch} {answer : Except IoError Child}
    (h : .launch l answer ∈ eventsIn host env job workspace s) :
    ∃ searchPath,
      Workspace.searchPath workspace job.root job.dependencyDir env.inheritedSearchPath? =
        .ok searchPath ∧
      (runIn host env job workspace s).1 =
        ((verdict job (passedOn s.err job searchPath answer).1.reported answer).mapError
          Fault.toFailure).map (·, copyWarnings host job workspace s) ∧
      (runIn host env job workspace s).2.err = (passedOn s.err job searchPath answer).2.printAll
        (textsAfter job.program (runIn host env job workspace s).1.isOk) := by
  obtain ⟨searchPath, ready, m, hprepare, hrun⟩ :=
    runIn_of_launched (s := s.recorded) List.not_mem_nil h
  rw [s.erased_recorded] at hprepare hrun
  obtain ⟨hresult, herr⟩ := conclude_eq job answer { ready with machine := m }
  have hready : ready.err = s.err.printAll (textsBefore job searchPath) := err_prepare hprepare
  have hok : ((conclude job answer { ready with machine := m }).1.map
      (·, copyWarnings host job workspace s)).isOk =
      (conclude job answer { ready with machine := m }).1.isOk := by
    rcases (conclude job answer { ready with machine := m }).1 with f | code
    · rfl
    · rfl
  refine ⟨searchPath, (of_prepare hprepare).1, ?_, ?_⟩
  · rw [hrun, hresult, passedOn, ← hready]
  · rw [hrun, hok, herr, passedOn, ← hready]

/-- A start that was recorded in an execution settled its result: asking for the workspace and
removing it start nothing, so the start is one of the run in the workspace. -/
theorem execute_of_launched {host : Host σ} {env : Environment} {job : Job}
    {s : Session (Recorded σ)} {l : Launch} {answer : Except IoError Child}
    (hnew : .launch l answer ∉ s.machine.events)
    (h : .launch l answer ∈ (execute host.recorded env job s).2.machine.events) :
    ∃ (workspace : Path) (ready : Session σ) (warnings : List CopyWarning),
      (execute host.recorded env job s).1 =
        report workspace ((conclude job answer ready).1.map (·, warnings)) := by
  -- asking for a workspace starts nothing
  have hmade : .launch l answer ∉ (made host.recorded job s).machine.events := by
    intro hin
    rcases List.mem_append.mp hin with hold | hmake
    · exact hnew hold
    · exact absurd (List.mem_singleton.mp hmake) (by simp)
  rcases execute_cases host.recorded env job s with
    ⟨e, -, hexecute⟩ | ⟨workspace, -, hexecute⟩
  · rw [hexecute] at h
    exact absurd h hmade
  · obtain ⟨log, hremove⟩ := removeWorkspace_eq host.recorded workspace
      (runIn host.recorded env job workspace (made host.recorded job s)).2
    rw [hexecute, hremove] at h
    have hinside : .launch l answer ∈
        (runIn host.recorded env job workspace (made host.recorded job s)).2.machine.events := by
      rcases List.mem_append.mp h with hin | hlast
      · exact hin
      · exact absurd (List.mem_singleton.mp hlast) (by simp)
    obtain ⟨searchPath, ready, m, -, hrun⟩ := runIn_of_launched hmade hinside
    rw [runIn_erased] at hrun
    exact ⟨workspace, _, _, by rw [hexecute, congrArg Prod.fst hrun]⟩

end Execution

namespace Toolchain

variable {σ : Type}

/-- The status that a command ends with after a run. -/
def codeOf : Except Failure Execution → Int
  | .ok execution => execution.exitCode
  | .error f => f.exitCode

/-- The status after a verdict is the status of the answer, whether or not an uncaught error was
reported. -/
theorem code_of_conclude (job : Job) (answer : Except IoError Child) (s : Session σ)
    (workspace : Path) (warnings : List CopyWarning) :
    codeOf (Execution.report workspace ((Execution.conclude job answer s).1.map (·, warnings))) =
      (Execution.status? answer).getD 1 := by
  rw [(Execution.conclude_eq job answer s).1]
  rcases hverdict : Execution.verdict job _ answer with fault | code
  · obtain ⟨hstatus, hzero⟩ := Execution.status_of_verdict hverdict
    show (Failure.runFailed fault.message fault.status).exitCode = _
    rw [hstatus]
    rcases hvalue : Execution.status? answer with _ | status
    · rfl
    · rw [hvalue] at hzero
      exact if_neg fun h => hzero (congrArg some h)
  · obtain ⟨child, rfl, hending, -⟩ := (Execution.verdict_eq_ok_iff _).mp hverdict
    rw [Execution.status?, hending]
    rfl

/-- A run that started a program ends with the status of the answer, or with one if that has none.
Whatever fails before the execution starts nothing, so only the execution is left. -/
theorem code_of_launched {host : Host σ} {env : Environment} {options : Options} {path : Path}
    {s : Session σ} {l : Launch} {answer : Except IoError Child}
    (h : .launch l answer ∈ events host env options path s) :
    codeOf (run host env options path s).1 = (Execution.status? answer).getD 1 := by
  rw [← s.erased_recorded, run_erased]
  unfold events at h
  rcases run_cases host.recorded env options path s.recorded with
    ⟨f, -, hrun⟩ | ⟨c, f, -, -, hrun⟩ | ⟨c, runtime, -, -, hrun⟩
  · rw [hrun] at h
    exact absurd h List.not_mem_nil
  · rw [hrun] at h
    exact absurd h List.not_mem_nil
  · rw [hrun] at h ⊢
    obtain ⟨workspace, ready, warnings, hresult⟩ :=
      Execution.execute_of_launched List.not_mem_nil h
    dsimp only
    rw [hresult, code_of_conclude]

/-- A run does not change which pieces its error stream takes. -/
theorem admits_run (host : Host σ) (env : Environment) (options : Options) (path : Path)
    (s : Session σ) : (run host env options path s).2.err.admits = s.err.admits := by
  rcases run_cases host env options path s with
    ⟨f, -, hrun⟩ | ⟨c, f, -, -, hrun⟩ | ⟨c, runtime, -, -, hrun⟩
  · rw [hrun]
    rfl
  · rw [hrun]
    rfl
  · rw [hrun, Execution.admits_execute]
    rfl

end Toolchain

namespace Console

variable {σ : Type}

/-- A command that says something ends with the status that goes with it, or is stopped. -/
theorem code_of_say (stream : Sink) (pieces : List Text) (code : Int) :
    (say stream pieces code).1 =
      if (stream.writeAll (pieces.map Utf8.encode)).1 then code else stoppedCode := by
  unfold say
  split
  · next h => rw [h, if_pos rfl]
  · next h => rw [h, if_neg Bool.false_ne_true]

/-- The error stream takes what the command has to say of a run, after all that was printed before.
That is nothing if the run ended well, and the message about its failure otherwise. -/
def told (file : Path) (run : Except Failure Execution × Session σ) : Bool :=
  match run.1 with
  | .ok _ => true
  | .error f => (run.2.err.writeAll ((message (context file) f).map Utf8.encode)).1

/-- The status of a command that runs a source. It is the one of the run, except that a command is
stopped when it cannot tell of a failure. -/
theorem code_of_command {host : Host σ} {env : Environment} {args : List Text}
    {request : Command.Run} {s : Session σ}
    (hargs : Command.parse (Command.normalize args) = .run request) (hrun : request.emit = false) :
    (command host env args s).1 =
      if told request.file
          (Toolchain.run host env { limitMs := request.timeoutMs } request.file s) then
        Toolchain.codeOf
          (Toolchain.run host env { limitMs := request.timeoutMs } request.file s).1
      else stoppedCode := by
  unfold command
  rw [hargs]
  dsimp only
  rw [hrun, if_neg Bool.false_ne_true, run]
  rcases Toolchain.run host env { limitMs := request.timeoutMs } request.file s with
    ⟨f | execution, s'⟩
  · exact code_of_say s'.err (message (context request.file) f) f.exitCode
  · rfl

/-- A stream that takes all takes what the command has to say. -/
theorem told_of_takesAll {host : Host σ} {env : Environment} {options : Toolchain.Options}
    {path : Path} {s : Session σ} (h : s.err.TakesAll) :
    told path (Toolchain.run host env options path s) = true := by
  have hadmits := Toolchain.admits_run host env options path s
  unfold told
  split
  · rfl
  · refine Sink.TakesAll.writeAll (fun before piece => ?_) _
    rw [hadmits]
    exact h before piece

end Console

open Execution

namespace ReportSample

open Toolchain.ScriptSample (machine environment inputs compile_eq)

/-- A program that reports an uncaught error and exits. -/
def child : Child := ⟨[], Utf8.encode "TypeError: no\n".toList, .exited 3⟩

/-- The operations of a machine that has nothing to copy and always starts that program. -/
def reporting : Host Machine :=
  { Machine.host with
    isDirectory := fun _ _ => false
    isPresent := fun _ _ => false
    writeFile := fun m _ _ => (.ok (), m)
    launch := fun m _ => (.ok child, m) }

/-- A session whose error stream takes everything. -/
def session : Session Machine :=
  { machine := machine "log(1)", out := .unbounded, err := .unbounded }

def job : Job :=
  { program := ⟨"log(1)".toList⟩, root := .ofString "/app", runtime := .ofString "/app/rt"
    limitMs := none, dependencyDir := "lib".toList, debug := false
    workspaceParent := .ofString "/tmp" }

/-- The first workspace of the machine. -/
def place : Path := .ofString "/tmp/fenrir-0-xxxxx0"

theorem launched_in : ∃ l, .launch l (.ok child) ∈
    eventsIn reporting (environment "/app/rt") job place session := by
  have hprepare : prepare reporting (environment "/app/rt") job place session = (.ok _, _) := rfl
  exact ⟨_, launched_of_prepare (s := session.recorded) hprepare⟩

theorem launched_by_run : ∃ l, .launch l (.ok child) ∈
    Toolchain.events reporting (environment "/app/rt") {} (.ofString "a.fnr") session := by
  obtain ⟨p, hp⟩ : ∃ p, (inputs "log(1)").compile = .ok
      ⟨(inputs "log(1)").source, (inputs "log(1)").root, (inputs "log(1)").settings, p⟩ := ⟨_, rfl⟩
  have hcompile := (compile_eq reporting "/app/rt" "log(1)" (by cbv)).trans hp
  have hfind : Toolchain.findRuntime reporting session.machine (environment "/app/rt")
      ((environment "/app/rt").runtimeOverride?.getD (inputs "log(1)").settings.runtime) =
      .ok (.ofString "/app/rt") := by cbv
  have hmade : (reporting.makeWorkspace (machine "log(1)") (.ofString "/tmp")).1 =
      .ok place := by cbv
  have hevents := Toolchain.events_of_compiled (s := session) hcompile hfind {}
  rw [hevents]
  exact ⟨_, launched_of_made hmade rfl⟩

theorem reported (searchPath : Text) :
    (passedOn session.err job searchPath (.ok child)).1.reported = true := by
  show (Forward.stream session.err child.err).1.reported = true
  cbv

end ReportSample

open ReportSample
open Toolchain.ScriptSample (environment)

end Sandscript
