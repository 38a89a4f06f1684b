import Sandscript.Disk
import Sandscript.Log
import Sandscript.Sink

/-!
# The machine below

The toolchain touches the world through a fixed set of operations, gathered in `Host`. The state of
the machine is left open: the toolchain is written once for every machine, and what it does to one
can be read off the operations it calls.

Operations that only look take the state; operations that change it answer with the state after
them, whether they succeed or not.
-/

namespace Sandscript

/-- How a program is to be started. -/
structure Launch where
  program : Path
  /-- The one argument that it gets. -/
  argument : Path
  vars : List (Text × Text)
  directory : Path
  /-- After so many milliseconds it is stopped. -/
  limitMs : Option Nat
deriving Repr

/-- Something that a program is to be started with holds a zero character, which no machine can hand
over. -/
def Launch.hasZero (l : Launch) : Bool :=
  let texts := l.program.text :: l.argument.text :: l.directory.text ::
    l.vars.flatMap fun (name, value) => [name, value]
  texts.any (·.contains '\x00')

/-- Where a plain name is looked for if the program gets no search path. -/
def Launch.standardPath : Text := "/bin:/usr/bin".toList

/-- A program that is given by a name, and not by a path. -/
def Launch.isPlain (l : Launch) : Bool := !l.program.text.contains '/'

/-- The paths at which a program is looked for when it is started. A path is taken as it is; a plain
name is looked for in the directories of the search path that the program itself gets. -/
def Launch.candidates (l : Launch) : List Path :=
  if l.isPlain then
    (Text.split ':' ((l.vars.lookup "PATH".toList).getD standardPath)).map fun dir =>
      if dir.isEmpty then l.program else ⟨dir ++ '/' :: l.program.text⟩
  else [l.program]

/-- How a program ended. -/
inductive Ending where
  | exited (code : Nat)
  | killed (signal : Nat)
  | timedOut
  /-- Waiting for the program failed, when its output was at its end already. -/
  | unknown (cause : IoError)
deriving DecidableEq, Repr

/-- What a program wrote, and how it ended. Both are taken as the machine gives them: what becomes
of the output on its way is not felt by the program. In particular, a program whose lines are
refused has written all of them nevertheless. -/
structure Child where
  out : Bytes
  err : Bytes
  ending : Ending
deriving Repr

/-- The operations of a machine with states `σ`. -/
structure Host (σ : Type) where
  isFile : σ → Path → Bool
  isDirectory : σ → Path → Bool
  isPresent : σ → Path → Bool
  readFile : σ → Path → Except IoError Bytes
  /-- The entries of a directory tree, parents before children, and among them what could not be
  read. The tree is listed in one look. A listing that is read bit by bit, while entries of it are
  being copied, says the same as long as nothing is copied into the tree. -/
  tree : σ → Path → List Disk.Item
  /-- Makes a directory with a name of its own in the given one. -/
  makeWorkspace : σ → Path → Except IoError Path × σ
  makeDirectories : σ → Path → Except IoError Unit × σ
  copyLink : σ → Path → Path → Except IoError Unit × σ
  copyFile : σ → Path → Path → Except IoError Unit × σ
  writeFile : σ → Path → Bytes → Except IoError Unit × σ
  removeTree : σ → Path → Except IoError Unit × σ
  /-- Starts a program and waits for its end. The answer is why it could not be started, or else
  what it wrote and how it ended, even if the latter could not be found out. -/
  launch : σ → Launch → Except IoError Child × σ

/-- What a run works on: the machine, the log, and where output goes. -/
structure Session (σ : Type) where
  machine : σ
  log : Log := []
  out : Sink
  err : Sink

namespace Session

variable {σ : Type}

/-- Adds a record to the log. -/
def report (s : Session σ) (level : Level) (text : Text) : Session σ :=
  { s with log := s.log ++ [⟨level, text⟩] }

/-- Runs an operation of the machine. -/
def act {α : Type} (s : Session σ) (f : σ → α × σ) : α × Session σ :=
  let (a, machine) := f s.machine
  (a, { s with machine })

/-- Prints pieces of text to the error stream until one is refused. -/
def printErr (s : Session σ) (pieces : List Text) : Session σ :=
  { s with err := s.err.print pieces }

end Session

end Sandscript
