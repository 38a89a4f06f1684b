import Sandscript.Console
import Sandscript.Machine

/-!
# Snapshots

The command works on a machine in memory. Before it starts, the files that it may look at are taken
over from the disk around it: the source, the descriptions in the directories above it, and the
runtime. This module says which files these are, and puts them on the machine.
-/

namespace Sandscript

namespace Snapshot

/-- The file that a command is asked to compile, if it is. -/
def sourceFile? (env : Environment) (args : List Text) : Option Path :=
  match Command.parse (Command.normalize args) with
  | .run request => some (env.currentDir.join request.file)
  | .exit _ _ => none

/-- The files that compiling a source looks at. -/
def sourceFiles (source : Path) : List Path :=
  let directories := (source.parent?.getD (.ofString ".")).ancestors
  source :: directories.flatMap fun dir =>
    [dir.child Settings.fileName, dir.child Settings.manifestName]

/-- The files that may be the runtime of a source on a machine. -/
def runtimeFiles (env : Environment) (m : Machine) (source : Path) : List Path :=
  match Toolchain.readInputs Machine.host m env source with
  | .error _ => []
  | .ok inputs =>
    let runtime : Path := ⟨env.runtimeOverride?.getD inputs.settings.runtime⟩
    let searched := Text.split ':' ((env.get? Toolchain.programsVar).getD [])
    env.currentDir.join runtime :: searched.map fun dir => Path.join ⟨dir⟩ runtime

/-- Puts a file on a machine, with the directories above it. -/
def install (m : Machine) (p : Path) (bytes : Bytes) : Machine :=
  let made := do
    let disk ← m.disk.makeDirectories m.directory (p.parent?.getD p)
    let disk ← disk.writeFile m.directory p bytes
    disk.setExecutable m.directory p true
  match made with
  | .ok disk => { m with disk }
  | .error _ => m

/-- Makes a directory on a machine. -/
def makeRoom (m : Machine) (p : Path) : Machine :=
  match m.disk.makeDirectories m.directory p with
  | .ok disk => { m with disk }
  | .error _ => m

/-- The variables that are written one after another, each ended by a zero byte. -/
def readVars (bytes : Bytes) : List (Text × Text) :=
  let entries := Text.split '\x00' (Utf8.decodeLossy bytes)
  (entries.filter (·.contains '=')).map fun entry =>
    let name := entry.takeWhile (· != '=')
    (name, entry.drop (name.length + 1))

end Snapshot

end Sandscript
