import Sandscript.Host
import Sandscript.Prelude
import Sandscript.Settings

/-!
# Workspaces

A program is run in a directory of its own, its workspace. Before that, the workspace gets a copy of
the project's dependencies and descriptions, the prelude, and the program. Copying goes on after a
failure: each entry that could not be copied is named by a warning.
-/

namespace Sandscript

/-- An entry that could not be copied. -/
structure CopyWarning where
  path : Path
  reason : Text
deriving DecidableEq, Repr

/-- The wording of a warning. -/
def CopyWarning.message (w : CopyWarning) : Text :=
  "could not mirror ".toList ++ w.path.text ++ ": ".toList ++ w.reason

namespace Workspace

variable {σ : Type}

/-- The file of the program. -/
def programName : String := "main.mjs"

/-- One entry to copy. -/
structure CopyStep where
  source : Path
  target : Path
  kind : Disk.Kind
deriving DecidableEq, Repr

/-- Copies one entry: a directory is made, a link is made again, a file is copied. Of an entry that
could not be read nothing can be copied. -/
def CopyStep.perform (host : Host σ) (step : CopyStep) (m : σ) : Except IoError Unit × σ :=
  match step.kind with
  | .directory => host.makeDirectories m step.target
  | .link => host.copyLink m step.source step.target
  | .file => host.copyFile m step.source step.target
  | .unread cause => (.error cause, m)

/-- Copies entries in order. A failure becomes a warning and stops nothing. -/
def copyAll (attempt : CopyStep → σ → Except IoError Unit × σ) :
    List CopyStep → σ → List CopyWarning × σ
  | [], m => ([], m)
  | step :: steps, m =>
    let (result, m) := attempt step m
    let (warnings, m) := copyAll attempt steps m
    match result with
    | .ok _ => (warnings, m)
    | .error e => (⟨step.source, e.message⟩ :: warnings, m)

/-- The steps that copy a tree. -/
def treeSteps (source target : Path) (items : List Disk.Item) : List CopyStep :=
  items.map fun item =>
    let below : Path := ⟨Text.join ['/'] item.names⟩
    { source := if item.names.isEmpty then source else source.join below
      target := target.join below
      kind := item.kind }

/-- The steps that copy the project's dependencies, if it has any. -/
def dependencySteps (host : Host σ) (m : σ) (workspace root : Path) (dependencyDir : Text) :
    List CopyStep :=
  let source := root.join ⟨dependencyDir⟩
  if host.isDirectory m source then
    treeSteps source (workspace.join ⟨dependencyDir⟩) (host.tree m source)
  else []

/-- The files that describe a project. -/
def descriptions : List String := [Settings.manifestName, Settings.fileName]

/-- The steps that copy the files which describe the project, as far as there are any. -/
def descriptionSteps (host : Host σ) (m : σ) (workspace root : Path) : List CopyStep :=
  (descriptions.filter fun name => host.isPresent m (root.child name)).map fun name =>
    ⟨root.child name, workspace.child name, .file⟩

/-- Copies the project's dependencies and descriptions into a workspace. -/
def copyProject (host : Host σ) (workspace root : Path) (dependencyDir : Text) (m : σ) :
    List CopyWarning × σ :=
  let attempt := CopyStep.perform host
  let (first, m) := copyAll attempt (dependencySteps host m workspace root dependencyDir) m
  let (second, m) := copyAll attempt (descriptionSteps host m workspace root) m
  (first ++ second, m)

/-- The entries of a search path, cut at colons. -/
def splitSearchPath (t : Text) : List Text := Text.split ':' t

/-- Entries joined to a search path; none of them may hold a colon. -/
def joinSearchPath (entries : List Text) : Except IoError Text :=
  if entries.any (·.contains ':') then .error .separatorInEntry
  else .ok (Text.join [':'] entries)

/-- Where the host looks for modules: the workspace's dependencies, the project's, and what was
handed down. -/
def searchPath (workspace root : Path) (dependencyDir : Text) (inherited : Option Text) :
    Except IoError Text :=
  joinSearchPath ([(workspace.join ⟨dependencyDir⟩).text, (root.join ⟨dependencyDir⟩).text] ++
    match inherited with
    | some t => splitSearchPath t
    | none => [])

end Workspace

end Sandscript
