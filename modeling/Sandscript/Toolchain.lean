import Sandscript.Execution
import Sandscript.Source

/-!
# The toolchain

From a path to a program, and from a program to its execution. Compiling only looks at the machine:
it reads the source, finds the project that the source belongs to, reads the project's settings, and
lowers the script. Running compiles, finds the runtime, and executes.
-/

namespace Sandscript

namespace Toolchain

variable {σ : Type}

-- ---------------------------------------------------------------------------
-- Compiling
-- ---------------------------------------------------------------------------

/-- Reads a source. A path that is not absolute is taken from the current directory. -/
def readSource (host : Host σ) (m : σ) (currentDir path : Path) : Except Failure Source :=
  let path := currentDir.join path
  if !host.isFile m path then .error (.sourceMissing path)
  else match host.readFile m path with
    | .error _ => .error (.sourceMissing path)
    | .ok bytes =>
      match Utf8.decode? bytes with
      | none => .error (.sourceMissing path)
      | some text => Source.make path text

/-- A directory that holds settings or the host's description is the root of a project. -/
def isRoot (host : Host σ) (m : σ) (dir : Path) : Bool :=
  host.isFile m (dir.child Settings.fileName) || host.isFile m (dir.child Settings.manifestName)

/-- The root of the project that a source directory belongs to: the nearest of the directory and its
parents that is one, and the directory itself if none is. -/
def findRoot (host : Host σ) (m : σ) (sourceDir : Path) : Path :=
  (sourceDir.ancestors.find? (isRoot host m)).getD sourceDir

/-- The settings of the project at a root; a project without settings has the defaults. -/
def loadSettings (host : Host σ) (m : σ) (root : Path) : Except Failure Settings :=
  let path := root.child Settings.fileName
  match host.readFile m path with
  | .error e => if e = .notFound then .ok {} else .error (.badSettings path e.message)
  | .ok bytes =>
    match Settings.ofContents bytes with
    | .error reason => .error (.badSettings path reason)
    | .ok s => .ok s

/-- A source that was compiled. -/
structure Compiled where
  source : Source
  root : Path
  settings : Settings
  program : Program
deriving Repr

/-- What has to be known to compile a source. -/
structure Inputs where
  source : Source
  root : Path
  settings : Settings

/-- Reads all that compiling needs. -/
def readInputs (host : Host σ) (m : σ) (env : Environment) (path : Path) :
    Except Failure Inputs :=
  match readSource host m env.currentDir path with
  | .error f => .error f
  | .ok source =>
    let root := findRoot host m source.dir
    match loadSettings host m root with
    | .error f => .error f
    | .ok settings => .ok ⟨source, root, settings⟩

/-- The context in which the statements of a source are lowered. -/
def Inputs.context (i : Inputs) : Context :=
  { sourceDir := i.source.dir, aliases := i.settings.aliases }

/-- The statements of a source. -/
def Inputs.statements (i : Inputs) : List Statement := Statement.scan i.source.text

/-- Lowers a source to a program. -/
def Inputs.compile (i : Inputs) : Except Failure Compiled :=
  match lowerAll i.context i.statements with
  | .error f => .error f
  | .ok lowered => .ok ⟨i.source, i.root, i.settings, Program.emit lowered⟩

/-- Compiles the source at a path, with the records of doing so. -/
def compile (host : Host σ) (m : σ) (env : Environment) (path : Path) :
    Except Failure Compiled × Log :=
  match readInputs host m env path with
  | .error f => (.error f, [])
  | .ok i => (i.compile, lowerAllLog i.context i.statements)

-- ---------------------------------------------------------------------------
-- Finding the runtime
-- ---------------------------------------------------------------------------

/-- A path, if it leads to a file. -/
def fileAt? (host : Host σ) (m : σ) (p : Path) : Option Path :=
  if host.isFile m p then some p else none

/-- Finds a program. A single name is looked for in the directories of the search path; anything
else is a path, taken from the current directory. -/
def findProgram? (host : Host σ) (m : σ) (search : Text) (currentDir program : Path) :
    Option Path :=
  if program.isAbsolute then fileAt? host m program
  else if program.startsHere then
    fileAt? host m (currentDir.join program)
  else match program.names with
    | [] => none
    | [name] =>
      (Text.split ':' search).findSome? fun dir => fileAt? host m (Path.join ⟨dir⟩ ⟨name⟩)
    | _ => fileAt? host m (currentDir.join program)

/-- The variable that holds the directories of programs. -/
def programsVar : Text := "PATH".toList

/-- Finds the runtime of the given name. -/
def findRuntime (host : Host σ) (m : σ) (env : Environment) (runtime : Text) :
    Except Failure Path :=
  match findProgram? host m ((env.get? programsVar).getD []) env.currentDir ⟨runtime⟩ with
  | some p => .ok p
  | none =>
    .error (.runFailed ("host runtime '".toList ++ runtime ++ "' was not found".toList) none)

-- ---------------------------------------------------------------------------
-- Running
-- ---------------------------------------------------------------------------

/-- What a caller may choose for a run. -/
structure Options where
  /-- A limit that comes before the project's own. -/
  limitMs : Option Nat := none
  /-- Where workspaces are created; the directory for temporary files if not given. -/
  workspaceParent : Option Path := none

/-- The directory for temporary files. -/
def temporaryDir (env : Environment) : Path := ⟨(env.get? "TMPDIR".toList).getD "/tmp".toList⟩

/-- The job of running a compiled program with a runtime. -/
def job (env : Environment) (options : Options) (c : Compiled) (runtime : Path) : Job :=
  { program := c.program
    root := c.root
    runtime
    limitMs := options.limitMs.or c.settings.timeoutMs
    dependencyDir := c.settings.dependencyDir
    debug := env.debug
    workspaceParent := options.workspaceParent.getD (temporaryDir env) }

/-- Runs a compiled program. -/
def execute (host : Host σ) (env : Environment) (options : Options) (c : Compiled)
    (s : Session σ) : Except Failure Execution × Session σ :=
  match findRuntime host s.machine env (env.runtimeOverride?.getD c.settings.runtime) with
  | .error f => (.error f, s)
  | .ok runtime => Execution.execute host env (job env options c runtime) s

/-- Compiles and runs the source at a path. -/
def run (host : Host σ) (env : Environment) (options : Options) (path : Path) (s : Session σ) :
    Except Failure Execution × Session σ :=
  let (compiled, log) := compile host s.machine env path
  let s := { s with log := s.log ++ log }
  match compiled with
  | .error f => (.error f, s)
  | .ok c => execute host env options c s

end Toolchain

end Sandscript
