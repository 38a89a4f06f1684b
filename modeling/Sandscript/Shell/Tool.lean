import Sandscript.Shell.State

/-!
# Tools

A tool is a program of the system that a script can call. What it does is a function from a call,
that is its words, the disk and its input, to an effect: the disk after it, what it wrote to which
channel, and the status it ended with.
-/

namespace Sandscript

namespace Shell

/-- How a tool is called. -/
structure Call where
  name : Text
  words : List Text
  disk : Disk
  directory : Location
  vars : List (Text × Text)
  input : Bytes

/-- What a tool does. -/
structure Effect where
  disk : Disk
  /-- What was written to which channel, in order. -/
  writes : List (Nat × Bytes) := []
  status : Nat := 0
  /-- How long it took. -/
  waitMs : Nat := 0

/-- A tool. -/
abbrev Tool := Call → Effect

namespace Effect

/-- Writes bytes to the output. -/
def write (e : Effect) (bytes : Bytes) : Effect := { e with writes := e.writes ++ [(1, bytes)] }

/-- Writes a text to the output. -/
def print (e : Effect) (t : Text) : Effect := e.write (toBytes t)

/-- Writes a text and a newline to the output. -/
def printLine (e : Effect) (t : Text) : Effect := e.print (t ++ ['\n'])

/-- Writes a message to the error channel and fails with at least the given status. -/
def failWith (e : Effect) (status : Nat) (call : Call) (message : Text) : Effect :=
  let line := call.name ++ ": ".toList ++ message ++ ['\n']
  { e with writes := e.writes ++ [(2, toBytes line)], status := max e.status status }

/-- Writes a message to the error channel and fails. -/
def complain (e : Effect) (call : Call) (message : Text) : Effect := e.failWith 1 call message

end Effect

namespace Call

/-- The effect of a tool that has done nothing yet. -/
def start (c : Call) : Effect := { disk := c.disk }

/-- The words that are no options, and the letters of those that are. An option starts with a
hyphen; after `--` all words are operands. -/
def options (c : Call) : List Char × List Text := go c.words
where
  /-- Sorts words into letters and operands. -/
  go : List Text → List Char × List Text
    | [] => ([], [])
    | ['-', '-'] :: rest => ([], rest)
    | word :: rest =>
      let (letters, operands) := go rest
      match word with
      | '-' :: x :: letters' => (x :: letters' ++ letters, operands)
      | _ => (letters, word :: operands)

end Call

/-- A name between quotes, as messages show it. -/
def named (t : Text) : Text := '\'' :: t ++ ['\'']

/-- The bytes of the named files one after another; `-` and no name at all stand for the input. -/
def gather (c : Call) (e : Effect) (files : List Text) : List (Text × Bytes) × Effect :=
  if files.isEmpty then ([(['-'], c.input)], e)
  else files.foldl (fun (got, e) name =>
    if name = ['-'] then (got ++ [(name, c.input)], e)
    else match e.disk.readFile c.directory (toPath name) with
      | .ok bytes => (got ++ [(name, bytes)], e)
      | .error cause => (got, e.complain c (name ++ ": ".toList ++ cause.phrase))) ([], e)

/-- The lines of a text, without their newlines. -/
def linesOf (t : Text) : List Text :=
  let parts := Text.split '\n' t
  if (parts.getLast?.getD []).isEmpty then parts.dropLast else parts

/-- The lines of a text, each with the newline that ends it if one does. -/
def keptLines (t : Text) : List Text :=
  let ls := linesOf t
  if t.getLast? = some '\n' then ls.map (· ++ ['\n'])
  else ls.dropLast.map (· ++ ['\n']) ++ ls.getLast?.toList

/-- Lines, each with a newline. -/
def unlinesOf (ls : List Text) : Text := ls.flatMap (· ++ ['\n'])

/-- The number that decimal digits write. -/
def decimal? (t : Text) : Option Nat :=
  if t.isEmpty || !t.all Char.isDigit then none
  else some (t.foldl (fun n c => n * 10 + (c.toNat - '0'.toNat)) 0)

end Shell

end Sandscript
