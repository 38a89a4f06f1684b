import Sandscript.Command
import Sandscript.Host
import Sandscript.Shell.Eval
import Sandscript.Text.Quoted

/-!
# A machine in memory

A machine that is nothing but data: a disk, the directory that relative paths are taken from, and
how many workspaces it has made. `Machine.host` gives it the operations that the toolchain asks for.
The programs it can start are the tools of `Shell` and the scripts on its disk.
-/

namespace Sandscript

/-- A machine in memory. -/
structure Machine where
  disk : Disk := Shell.systemDisk
  /-- Where relative paths are taken from. -/
  directory : Location := []
  /-- How many workspaces have been made. -/
  issued : Nat := 0

namespace Machine

-- ---------------------------------------------------------------------------
-- Files
-- ---------------------------------------------------------------------------

/-- Goes on with the disk after an operation; one that fails leaves the disk as it was. -/
def change (m : Machine) (result : Except IoError Disk) : Except IoError Unit × Machine :=
  match result with
  | .ok disk => (.ok (), { m with disk })
  | .error e => (.error e, m)

/-- The name of a workspace: the tool's name, the time of a clock that counts workspaces, and six
characters. -/
def workspaceName (issued : Nat) : Text :=
  let digits := Text.ofNat issued
  let ending := List.replicate (6 - digits.length) 'x' ++ digits
  Command.toolName ++ ['-'] ++ digits ++ ['-'] ++ ending

/-- Makes a directory with a name of its own. -/
def makeWorkspace (m : Machine) (parent : Path) : Except IoError Path × Machine :=
  let parent := m.directory.toPath.join parent
  let path := parent.join ⟨workspaceName m.issued⟩
  match m.disk.makeDirectory m.directory path with
  | .error e => (.error (.located e (Text.quote path.text)), m)
  | .ok disk => (.ok path, { m with disk, issued := m.issued + 1 })

/-- Removes a tree; a failure names the place. -/
def removeTree (m : Machine) (p : Path) : Except IoError Unit × Machine :=
  match m.disk.removeTree m.directory p with
  | .error e => (.error (.located e (Text.quote p.text)), m)
  | .ok disk => (.ok (), { m with disk })

-- ---------------------------------------------------------------------------
-- Programs
-- ---------------------------------------------------------------------------

/-- How often a program's end is looked for, in milliseconds. -/
def pollMs : Nat := 20

/-- The time at which a limit takes effect: the first look at or after it. -/
def deadline (limitMs : Nat) : Nat := (limitMs + pollMs - 1) / pollMs * pollMs

/-- How deep the calls of a script may go. -/
def scriptFuel : Nat := 100000

/-- Why a program cannot be started, if it cannot. A script needs an interpreter that can be; the
interpreter may again be a script, up to a few times. -/
def obstacle (m : Machine) (base : Location) (p : Path) : Nat → Option IoError
  | 0 => some .tooManyLinks
  | fuel + 1 =>
    match m.disk.find true base p with
    | .error e => some e
    | .ok (_, .file bytes true) =>
      match Shell.programKind bytes with
      | .tool _ => none
      | .script interpreter _ => m.obstacle base (Shell.toPath interpreter) fuel
      | .unknown => some .notExecutableFormat
    | .ok _ => some .denied

/-- The first of the candidates for a plain name that can be started. Those that are missing or may
not be executed are passed over, and a file that no program is known for is run as a script; any
other obstacle ends the search. If nothing is found, a file that may not be executed is reported
before one that is missing. -/
def choose (m : Machine) (directory : Location) (cause : IoError) :
    List Path → Except IoError Path
  | [] => .error cause
  | p :: rest =>
    match m.obstacle directory p 5 with
    | none | some .notExecutableFormat => .ok p
    | some .denied => m.choose directory .denied rest
    | some .notFound => m.choose directory (if cause = .denied then cause else .notFound) rest
    | some .notDirectory =>
      m.choose directory (if cause = .denied then cause else .notDirectory) rest
    | some e => .error e

/-- The path at which a program is started. -/
def startPath (m : Machine) (directory : Location) (l : Launch) : Except IoError Path :=
  if l.isPlain then m.choose directory .notFound l.candidates
  else match m.obstacle directory l.program 5 with
    | some e => .error e
    | none => .ok l.program

/-- The state in which a program starts: nothing to read, and both outputs collected. -/
def startState (m : Machine) (directory : Location) (l : Launch) : Shell.State :=
  { world :=
      { disk := m.disk
        streams := [.null, .collected [], .collected []]
        deadline := l.limitMs.map deadline }
    directory
    workingPath := Shell.ofText l.directory.text
    name := Shell.ofText l.program.text
    vars := l.vars.map fun (name, value) =>
      (Shell.ofText name, (⟨Shell.ofText value, true⟩ : Shell.Value))
    channels := [(0, 0), (1, 1), (2, 2)] }

/-- Runs a program that can be started to its end or its limit. -/
def runProgram (m : Machine) (directory : Location) (l : Launch) : Child × Machine :=
  let program := Shell.ofText l.program.text
  let words := [program, Shell.ofText l.argument.text]
  let (ending, s) :=
    match (Shell.runProgram program words scriptFuel).run (m.startState directory l) with
    | .ok ending s => (ending, s)
    | .error (.exited n) s | .error (.returned n) s => (.exited n, s)
    | .error (.killed signal) s => (.killed signal, s)
    | .error _ s => (.timedOut, s)
  ({ out := s.world.collectedBy 1, err := s.world.collectedBy 2, ending },
    { m with disk := s.world.disk })

/-- Starts a program and waits for its end. A limit of zero is over before the program has done
anything. -/
def launch (m : Machine) (l : Launch) : Except IoError Child × Machine :=
  if l.hasZero then (.error .zeroInLaunch, m)
  else match m.disk.find true m.directory l.directory with
  | .ok (directory, .directory) =>
    match m.startPath directory l with
    | .error e => (.error e, m)
    | .ok program =>
      if l.limitMs = some 0 then (.ok { out := [], err := [], ending := .timedOut }, m)
      else
        let (child, m) := m.runProgram directory { l with program }
        (.ok child, m)
  | .ok _ => (.error .notDirectory, m)
  | .error e => (.error e, m)

-- ---------------------------------------------------------------------------
-- The operations
-- ---------------------------------------------------------------------------

/-- The operations of a machine in memory. -/
def host : Host Machine where
  isFile m p := m.disk.isFile m.directory p
  isDirectory m p := m.disk.isDirectory m.directory p
  isPresent m p := m.disk.isPresent m.directory p
  readFile m p := m.disk.readFile m.directory p
  tree m p := m.disk.tree m.directory p
  makeWorkspace m p := m.makeWorkspace p
  makeDirectories m p :=
    let (result, disk) := m.disk.makeAll m.directory p
    (result, { m with disk })
  copyLink m source target := m.change (m.disk.copyLink m.directory source target)
  copyFile m source target := m.change (m.disk.copyFile m.directory source target)
  writeFile m p bytes := m.change (m.disk.writeFile m.directory p bytes)
  removeTree m p := m.removeTree p
  launch m l := m.launch l

end Machine

end Sandscript
