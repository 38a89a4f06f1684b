import Sandscript.Snapshot

/-!
# The program

Takes over variables and files, runs the command on a machine in memory, and passes on what it
wrote.
-/

open Sandscript

/-- The bytes of a file, if it can be read. -/
def readBytes? (path : String) : IO (Option Bytes) := do
  try
    return some (← IO.FS.readBinFile path).toList
  catch _ => return none

/-- Takes files over to a machine; those that cannot be read are left out. -/
def takeOver (m : Machine) (paths : List Path) : IO Machine :=
  paths.foldlM (fun m p => do
    match ← readBytes? (String.ofList p.text) with
    | some bytes => return Snapshot.install m p bytes
    | none => return m) m

/-- The variables and the directory that the program was started with. -/
def readEnvironment : IO Environment := do
  let vars := Snapshot.readVars ((← readBytes? "/proc/self/environ").getD [])
  return { vars, currentDir := .ofString (← IO.currentDir).toString }

/-- Runs the command. -/
def main (args : List String) : IO UInt32 := do
  let env ← readEnvironment
  let args := args.map String.toList
  let room := Snapshot.makeRoom (Snapshot.makeRoom {} env.currentDir) (Toolchain.temporaryDir env)
  let machine ← match Snapshot.sourceFile? env args with
    | none => pure room
    | some source => do
      let m ← takeOver room (Snapshot.sourceFiles source)
      takeOver m (Snapshot.runtimeFiles env m source)
  let session : Session Machine := { machine, out := .unbounded, err := .unbounded }
  let (code, session) := Console.command Machine.host env args session
  (← IO.getStdout).write ⟨session.out.contents.toArray⟩
  (← IO.getStderr).write ⟨session.err.contents.toArray⟩
  return code.toNat.toUInt32
