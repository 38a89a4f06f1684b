import Sandscript.Environment
import Sandscript.Forward
import Sandscript.Program
import Sandscript.Text.Numbered
import Sandscript.Workspace

/-!
# Executing a program

One execution creates a workspace, prepares it, starts one program in it, and removes it again. The
program's output is passed on, and how it ended is turned into a status or a failure:

* a program that exits with status zero has succeeded;
* one that exits with another status has run too, unless its output held the host's report of an
  uncaught error;
* a program that was killed, took too long, or could not be started or waited for has failed. After
  such a failure the generated program is listed on the error stream.
-/

namespace Sandscript

/-- What is to be executed, and how. -/
structure Job where
  program : Program
  /-- The root of the project. -/
  root : Path
  /-- The program that runs it. -/
  runtime : Path
  limitMs : Option Nat
  dependencyDir : Text
  /-- List the program before it is run. -/
  debug : Bool
  /-- Where the workspace is created. -/
  workspaceParent : Path

/-- An execution that ran to its end. -/
structure Execution where
  /-- The status that the program ended with. -/
  exitCode : Int
  /-- Where it ran; gone by now. -/
  workspace : Path
  warnings : List CopyWarning
deriving Repr

namespace Execution

variable {σ : Type}

-- ---------------------------------------------------------------------------
-- How a program ended
-- ---------------------------------------------------------------------------

/-- Why a run counts as failed. -/
inductive Fault where
  | notStarted (runtime : Path) (cause : IoError)
  | notAwaited (cause : IoError)
  | timedOut (limitMs : Option Nat)
  /-- The program ended with a status after it had reported an uncaught error. -/
  | uncaught (code : Nat)
  | killed (signal : Nat)
deriving DecidableEq, Repr

/-- The wording of a fault. -/
def Fault.message : Fault → Text
  | notStarted runtime cause =>
    "could not start ".toList ++ runtime.text ++ ": ".toList ++ cause.message
  | notAwaited cause => "failed to wait for program: ".toList ++ cause.message
  | timedOut (some ms) =>
    "program exceeded the ".toList ++ Text.ofNat ms ++ " ms timeout".toList
  | timedOut none => "program timed out".toList
  | uncaught code =>
    "program exited with code ".toList ++ Text.ofNat code ++ " after an uncaught error".toList
  | killed _ => "program was terminated by a signal".toList

/-- The status that goes with a fault. A signal counts from 128 on. -/
def Fault.status : Fault → Option Int
  | uncaught code => some code
  | killed signal => some (128 + signal)
  | notStarted _ _ | notAwaited _ | timedOut _ => none

/-- A fault as a failure of the toolchain. -/
def Fault.toFailure (f : Fault) : Failure := .runFailed f.message f.status

/-- How an ending is to be understood, given whether an uncaught error was reported. -/
def judge (limitMs : Option Nat) (reported : Bool) : Ending → Except Fault Nat
  | .exited code => if code ≠ 0 && reported then .error (.uncaught code) else .ok code
  | .killed signal => .error (.killed signal)
  | .timedOut => .error (.timedOut limitMs)
  | .unknown cause => .error (.notAwaited cause)

-- ---------------------------------------------------------------------------
-- Listings
-- ---------------------------------------------------------------------------

/-- Lists the program and the search path. -/
def listBefore (p : Program) (searchPath : Text) (s : Session σ) : Session σ :=
  let s := s.printErr ["--- generated source ---\n".toList]
  let s := s.printErr [Text.numbered p.text]
  s.printErr ["--- ".toList, Environment.searchPathVar, "=".toList, searchPath, " ---\n".toList]

/-- Lists the file that the host was started with. -/
def listAfter (p : Program) (s : Session σ) : Session σ :=
  let s := s.printErr ["--- generated source (program starts at line ".toList,
    Text.ofNat Program.startLine, ") ---\n".toList]
  s.printErr [Text.numbered p.entryText]

/-- Ends a run that failed: a record, a listing, and the failure. -/
def giveUp (p : Program) (f : Fault) (s : Session σ) : Except Failure Nat × Session σ :=
  let s := s.report .error (f.message ++ "; generated source follows".toList)
  (.error f.toFailure, listAfter p s)

-- ---------------------------------------------------------------------------
-- Output
-- ---------------------------------------------------------------------------

/-- Reports a stream of which a part was refused. -/
def reportLoss (name : String) (o : Forward.Outcome) (s : Session σ) : Session σ :=
  if o.lost then
    s.report .warn ("lost part of program ".toList ++ name.toList ++ ": ".toList ++
      IoError.sinkFull.message)
  else s

/-- Passes on what a program wrote. The answer is whether it reported an uncaught error. -/
def forwardOutput (c : Child) (s : Session σ) : Bool × Session σ :=
  let (outcome, out) := Forward.stream s.out c.out
  let s := reportLoss "stdout" outcome { s with out }
  let (outcome, err) := Forward.stream s.err c.err
  (outcome.reported, reportLoss "stderr" outcome { s with err })

-- ---------------------------------------------------------------------------
-- One execution
-- ---------------------------------------------------------------------------

/-- Starts the program in a workspace that is ready, and waits for it. -/
def runChild (host : Host σ) (env : Environment) (job : Job) (workspace : Path) (searchPath : Text)
    (s : Session σ) : Except Failure Nat × Session σ :=
  let launch : Launch :=
    { program := job.runtime
      argument := workspace.child Workspace.programName
      vars := (env.set Environment.searchPathVar searchPath).vars
      directory := workspace
      limitMs := job.limitMs }
  match s.act (host.launch · launch) with
  | (.error e, s) => giveUp job.program (.notStarted job.runtime e) s
  | (.ok child, s) =>
    let (reported, s) := forwardOutput child s
    match judge job.limitMs reported child.ending with
    | .error f => giveUp job.program f s
    | .ok code =>
      (.ok code, s.report .info ("program exited with code ".toList ++ Text.ofNat code))

/-- Writes the prelude and the program into a workspace. -/
def writeProgram (host : Host σ) (p : Program) (workspace : Path) (m : σ) :
    Except IoError Unit × σ :=
  match host.writeFile m (workspace.child Prelude.fileName) (Utf8.encode Prelude.text) with
  | (.error e, m) => (.error e, m)
  | (.ok _, m) =>
    host.writeFile m (workspace.child Workspace.programName) (Utf8.encode p.entryText)

/-- Prepares a workspace and runs the program in it. -/
def runIn (host : Host σ) (env : Environment) (job : Job) (workspace : Path) (s : Session σ) :
    Except Failure (Nat × List CopyWarning) × Session σ :=
  let (warnings, s) := s.act (Workspace.copyProject host workspace job.root job.dependencyDir)
  let s := { s with log := s.log ++ warnings.map fun w => Record.mk .warn (CopyWarning.message w) }
  match s.act (writeProgram host job.program workspace) with
  | (.error e, s) => (.error (.noWorkspace e), s)
  | (.ok _, s) =>
    match Workspace.searchPath workspace job.root job.dependencyDir env.inheritedSearchPath? with
    | .error e => (.error (.noWorkspace e), s)
    | .ok searchPath =>
      let s := if job.debug then listBefore job.program searchPath s else s
      match runChild host env job workspace searchPath s with
      | (.error f, s) => (.error f, s)
      | (.ok code, s) => (.ok (code, warnings), s)

/-- Removes a workspace; if that fails it is only reported. -/
def removeWorkspace (host : Host σ) (workspace : Path) (s : Session σ) : Session σ :=
  match s.act (host.removeTree · workspace) with
  | (.ok _, s) => s
  | (.error e, s) =>
    s.report .warn ("failed to remove workspace ".toList ++ workspace.text ++ ": ".toList ++
      e.message)

/-- Executes a job. Once a workspace was created it is removed, whatever happens in between. -/
def execute (host : Host σ) (env : Environment) (job : Job) (s : Session σ) :
    Except Failure Execution × Session σ :=
  match s.act (host.makeWorkspace · job.workspaceParent) with
  | (.error e, s) => (.error (.noWorkspace e), s)
  | (.ok workspace, s) =>
    let (result, s) := runIn host env job workspace s
    let s := removeWorkspace host workspace s
    match result with
    | .error f => (.error f, s)
    | .ok (code, warnings) => (.ok ⟨code, workspace, warnings⟩, s)

end Execution

end Sandscript
