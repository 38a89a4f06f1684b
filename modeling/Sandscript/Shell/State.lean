import Sandscript.Disk
import Sandscript.Shell.Script

/-!
# What a shell works on

A shell works on bytes. Its texts hold one character for each byte, the one with the byte's number;
`toText` and `ofText` change between these texts and the ones that names on the disk are made of.

The state has two halves. The `World` is what all processes share: the disk, the streams, the time.
The rest belongs to one process, and a process that is started from another gets a copy of it.
-/

namespace Sandscript

namespace Shell

-- ---------------------------------------------------------------------------
-- Bytes as texts
-- ---------------------------------------------------------------------------

/-- Bytes as the shell sees them. -/
def ofBytes (b : Bytes) : Text := b.map fun x => Char.ofNat x.toNat

/-- The bytes of a text of the shell. -/
def toBytes (t : Text) : Bytes := t.map fun c => c.toNat.toUInt8

/-- A text of the disk as the shell sees it. -/
def ofText (t : Text) : Text := ofBytes (Utf8.encode t)

/-- A text of the shell as the disk sees it. -/
def toText (t : Text) : Text := Utf8.decodeLossy (toBytes t)

/-- The path that a text of the shell writes. -/
def toPath (t : Text) : Path := ⟨toText t⟩

/-- Reading bytes gives them back. -/
theorem toBytes_ofBytes (b : Bytes) : toBytes (ofBytes b) = b := by
  have byte : ∀ x : UInt8, (Char.ofNat x.toNat).toNat.toUInt8 = x := by
    intro x
    have hx : x.toNat < 256 := x.toNat_lt
    have hv : x.toNat.isValidChar := Or.inl (by omega)
    have hchar : (Char.ofNat x.toNat).toNat = x.toNat := by
      rw [Char.ofNat, dif_pos hv]
      rfl
    rw [hchar]
    apply UInt8.toNat_inj.mp
    simp
  unfold toBytes ofBytes
  rw [List.map_map]
  exact (List.map_congr_left fun x _ => byte x).trans (List.map_id b)

-- ---------------------------------------------------------------------------
-- The world
-- ---------------------------------------------------------------------------

/-- Where written bytes go to, and read bytes come from. -/
inductive Stream where
  /-- Written chunks are kept, the newest first. -/
  | collected (chunks : List Bytes)
  /-- Writing goes to a file, at a position or always at its end. -/
  | file (place : Location) (position : Nat) (append : Bool)
  /-- Reading takes from these bytes. -/
  | source (rest : Bytes)
  | null

/-- What all processes share. -/
structure World where
  disk : Disk
  streams : List Stream
  /-- Milliseconds that have passed. -/
  clock : Nat := 0
  /-- The program is stopped if it is still running after so many milliseconds. -/
  deadline : Option Nat := none

namespace World

/-- A new stream and its number. -/
def openStream (w : World) (s : Stream) : Nat × World :=
  (w.streams.length, { w with streams := w.streams ++ [s] })

/-- The bytes that a stream has collected. -/
def collectedBy (w : World) (n : Nat) : Bytes :=
  match w.streams[n]? with
  | some (.collected chunks) => chunks.reverse.flatten
  | _ => []

/-- The bytes of a file after some were written at a position. -/
def overwrite (old : Bytes) (position : Nat) (new : Bytes) : Bytes :=
  old.take position ++ List.replicate (position - old.length) 0 ++ new ++
    old.drop (position + new.length)

/-- Writes bytes to a stream; a file that was removed meanwhile takes them without a trace. -/
def write (w : World) (n : Nat) (bytes : Bytes) : World :=
  match w.streams[n]? with
  | some (.collected chunks) =>
    { w with streams := w.streams.set n (.collected (bytes :: chunks)) }
  | some (.file place position append) =>
    match w.disk.get? place with
    | some (.file old executable) =>
      let start := if append then old.length else position
      let disk := w.disk.insert place (.file (overwrite old start bytes) executable)
      let stream := Stream.file place (start + bytes.length) append
      { w with disk, streams := w.streams.set n stream }
    | _ => w
  | _ => w

/-- What is left to read from a stream. -/
def unread (w : World) (n : Nat) : Bytes :=
  match w.streams[n]? with
  | some (.source rest) => rest
  | _ => []

/-- Leaves only the given bytes to be read. -/
def setUnread (w : World) (n : Nat) (rest : Bytes) : World :=
  match w.streams[n]? with
  | some (.source _) => { w with streams := w.streams.set n (.source rest) }
  | _ => w

/-- Still running at its deadline. -/
def isLate (w : World) : Bool :=
  match w.deadline with
  | some limit => w.clock > limit
  | none => false

end World

-- ---------------------------------------------------------------------------
-- A process
-- ---------------------------------------------------------------------------

/-- The value of a parameter. -/
structure Value where
  text : Text
  exported : Bool := false

/-- The state of a shell. -/
structure State where
  world : World
  directory : Location
  /-- The directory as the shell got there. -/
  workingPath : Text
  /-- What the shell is called in its messages. -/
  name : Text
  args : List Text := []
  vars : List (Text × Value) := []
  functions : List (Text × Command) := []
  /-- The stream behind each open channel. -/
  channels : List (Nat × Nat) := []
  /-- The status of the last command. -/
  status : Nat := 0
  /-- The line of the command that is being run. -/
  line : Nat := 1
  /-- Options that are on, by their letters. -/
  options : List Char := []
  /-- What is run on a signal, or at the end. -/
  traps : List (Text × Text) := []
  /-- The variables that the function being run has hidden, with what they held. -/
  hidden : List (Text × Option Value) := []
  /-- How many loops are being run. -/
  loops : Nat := 0

/-- Why a shell does not go on with the next command. -/
inductive Halt where
  | exited (status : Nat)
  | killed (signal : Nat)
  | timedOut
  | returned (status : Nat)
  | leaveLoops (count : Nat)
  | nextRound (count : Nat)
deriving DecidableEq, Repr

/-- The number that the shell gives for its own process. -/
def processNumber : Nat := 4711

namespace State

/-- The value of a variable. -/
def get? (s : State) (name : Text) : Option Text := (s.vars.lookup name).map (·.text)

/-- The value of a variable, empty if it has none. -/
def get (s : State) (name : String) : Text := (s.get? name.toList).getD []

/-- Gives a variable a value; one that is exported stays so. -/
def set (s : State) (name value : Text) : State :=
  let exported := match s.vars.lookup name with
    | some v => v.exported
    | none => s.options.contains 'a'
  { s with vars := (name, ⟨value, exported⟩) :: s.vars.filter (·.1 != name) }

/-- Gives a variable a value and exports it. -/
def setExported (s : State) (name value : Text) : State :=
  { s with vars := (name, ⟨value, true⟩) :: s.vars.filter (·.1 != name) }

/-- Hides a variable until the function that is being run ends. -/
def hide (s : State) (name : Text) : State :=
  { s with hidden := (name, s.vars.lookup name) :: s.hidden }

/-- Shows the hidden variables again. -/
def unhide (s : State) (hidden : List (Text × Option Value)) : State :=
  { s with vars := hidden.foldl (fun vars (name, value?) =>
      let others := vars.filter (·.1 != name)
      match value? with
      | some value => (name, value) :: others
      | none => others) s.vars }

/-- Takes a variable away. -/
def unset (s : State) (name : Text) : State :=
  { s with vars := s.vars.filter (·.1 != name) }

/-- The variables that programs are started with, in order of their names. -/
def exported (s : State) : List (Text × Text) :=
  ((s.vars.filter (·.2.exported)).map fun (name, v) => (name, v.text)).mergeSort fun a b =>
    Disk.nameLe a.1 b.1

/-- Writes to a channel; a closed one takes nothing. -/
def write (s : State) (channel : Nat) (bytes : Bytes) : State :=
  match s.channels.lookup channel with
  | some stream => { s with world := s.world.write stream bytes }
  | none => s

/-- Writes a text to a channel. -/
def print (s : State) (channel : Nat) (t : Text) : State := s.write channel (toBytes t)

/-- Writes a message of the shell to the error channel. -/
def complain (s : State) (message : Text) : State :=
  s.print 2 (s.name ++ ": ".toList ++ Text.ofNat s.line ++ ": ".toList ++ message ++ ['\n'])

/-- Connects a channel to a stream. -/
def connect (s : State) (channel stream : Nat) : State :=
  { s with channels := (channel, stream) :: s.channels.filter (·.1 != channel) }

/-- Closes a channel. -/
def close (s : State) (channel : Nat) : State :=
  { s with channels := s.channels.filter (·.1 != channel) }

/-- Opens a stream and connects a channel to it. -/
def openChannel (s : State) (channel : Nat) (stream : Stream) : State :=
  let (n, world) := s.world.openStream stream
  { s with world }.connect channel n

/-- What is left to read on the input channel. -/
def unread (s : State) : Bytes :=
  match s.channels.lookup 0 with
  | some n => s.world.unread n
  | none => []

/-- Leaves only the given bytes to be read on the input channel. -/
def setUnread (s : State) (rest : Bytes) : State :=
  match s.channels.lookup 0 with
  | some n => { s with world := s.world.setUnread n rest }
  | none => s

/-- Lets time pass. -/
def wait (s : State) (ms : Nat) : State :=
  { s with world := { s.world with clock := s.world.clock + ms } }

/-- The value of a parameter: a variable, a word that the shell was given, or one of its own. -/
def param? (s : State) (name : Text) : Option Text :=
  match name with
  | ['#'] => some (Text.ofNat s.args.length)
  | ['?'] => some (Text.ofNat s.status)
  | ['$'] => some (Text.ofNat processNumber)
  | ['-'] => some s.options
  | ['!'] => none
  | ['@'] | ['*'] => if s.args.isEmpty then none else some (Text.join [' '] s.args)
  | ['0'] => some s.name
  | _ =>
    if name.all Char.isDigit then
      s.args[name.foldl (fun n c => n * 10 + (c.toNat - '0'.toNat)) 0 - 1]?
    else s.get? name

end State

/-- Steps of a shell, which change its state and may halt it. -/
abbrev Run := EStateM Halt State

namespace Run

/-- Sets the status of the last command. -/
def finish (status : Nat) : Run Unit := modify fun s => { s with status }

/-- Writes a text to the output. -/
def print (t : Text) : Run Unit := modify (·.print 1 t)

/-- Writes a message of the shell, and sets a status. -/
def fail (status : Nat) (message : Text) : Run Unit := do
  modify (·.complain message)
  finish status

/-- Writes a message of the shell, and ends it. -/
def stop {α : Type} (status : Nat) (message : Text) : Run α := do
  modify (·.complain message)
  throw (.exited status)

/-- Stops a program that is still running at its deadline. -/
def checkTime : Run Unit := do
  if (← get).world.isLate then throw .timedOut

/-- Runs something, and tells how it was halted if it was. -/
def halting (act : Run Unit) : Run (Option Halt) := do
  try
    act
    return none
  catch halt => return some halt

end Run

end Shell

end Sandscript
