import Sandscript.Command
import Sandscript.Toolchain

/-!
# The command line

What the command does with its arguments: it answers a request for help, prints a generated program,
or runs a script, and ends with a status. What it has to say itself must be taken by the stream that
it is said on; the command is stopped otherwise, with a status of its own.
-/

namespace Sandscript

namespace Console

variable {σ : Type}

/-- A failure as the command line tells it: its message, followed by the machine's own words if the
machine was the cause. -/
def describe : Failure → Text
  | .noWorkspace cause => (Failure.noWorkspace cause).message ++ ": ".toList ++ cause.message
  | f => f.message

/-- The status of a command that is stopped because its own words are refused. What it says of that
is left out here. -/
def stoppedCode : Int := 101

/-- Says something on a stream and ends with a status. The command is stopped at the first piece
that is refused. -/
def say (stream : Sink) (pieces : List Text) (code : Int) : Int × Sink :=
  match stream.writeAll (pieces.map Utf8.encode) with
  | (true, stream) => (code, stream)
  | (false, stream) => (stoppedCode, stream)

def sayOut (s : Session σ) (pieces : List Text) (code : Int) : Int × Session σ :=
  let (code, out) := say s.out pieces code
  (code, { s with out })

def sayErr (s : Session σ) (pieces : List Text) (code : Int) : Int × Session σ :=
  let (code, err) := say s.err pieces code
  (code, { s with err })

/-- The pieces of the message about a failure. -/
def message (context : Text) (f : Failure) : List Text :=
  [Command.toolName, ": ".toList, context, describe f, ['\n']]

/-- Tells of a failure, and ends with its status. -/
def fail (s : Session σ) (context : Text) (f : Failure) : Int × Session σ :=
  sayErr s (message context f) f.exitCode

/-- So many bytes of a line that has no newline yet are held back at most. -/
def holdLimit : Nat := 1024

/-- Prints a text and ends. The lines of the text that are complete are written at once. What
follows the last newline is held back, unless it is too long for that, and written when the command
has ended already; then nobody notices if it is refused. -/
def printLines (s : Session σ) (t : Text) : Int × Session σ :=
  let complete := (t.reverse.dropWhile (· ≠ '\n')).reverse
  let rest := Utf8.encode (t.reverse.takeWhile (· ≠ '\n')).reverse
  match s.out.write (Utf8.encode complete) with
  | (false, out) => (stoppedCode, { s with out })
  | (true, out) =>
    let (taken, out) := out.write rest
    (if taken || rest.length < holdLimit then 0 else stoppedCode, { s with out })

/-- Prints the program that a source is lowered to. -/
def emit (host : Host σ) (env : Environment) (file : Path) (s : Session σ) : Int × Session σ :=
  match Toolchain.compile host s.machine env file with
  | (.error f, log) => fail { s with log := s.log ++ log } [] f
  | (.ok c, log) => printLines { s with log := s.log ++ log } c.program.text

/-- The words before the failure of a run: the name of the file as it was given. -/
def context (file : Path) : Text := "running ".toList ++ file.text ++ ": ".toList

/-- Runs a source. A run that ended well leaves nothing to say. -/
def run (host : Host σ) (env : Environment) (request : Command.Run) (s : Session σ) :
    Int × Session σ :=
  match Toolchain.run host env { limitMs := request.timeoutMs } request.file s with
  | (.error f, s) => fail s (context request.file) f
  | (.ok execution, s) => (execution.exitCode, s)

/-- The whole command: from its arguments to the status it ends with. -/
def command (host : Host σ) (env : Environment) (args : List Text) (s : Session σ) :
    Int × Session σ :=
  match Command.parse (Command.normalize args) with
  | .exit output code =>
    if code = 0 then sayOut s [output, ['\n']] code else sayErr s [output, ['\n']] code
  | .run request => if request.emit then emit host env request.file s else run host env request s

end Console

end Sandscript
