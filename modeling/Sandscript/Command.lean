import Sandscript.Source

/-!
# The command line

The tool has one command, `run`. Arguments are read from left to right; `help` and `--help` are
remembered until the end, and `--` turns everything after it into plain arguments. `Command.parse`
says what the arguments ask for: to run a file, or only to print something and end.
-/

namespace Sandscript

namespace Command

/-- The name of the tool. -/
def toolName : Text := "fenrir".toList

/-- A run that was asked for. -/
structure Run where
  file : Path
  /-- A limit in milliseconds. -/
  timeoutMs : Option Nat
  /-- Print the program and do not run it. -/
  emit : Bool
deriving DecidableEq, Repr

/-- What arguments ask for. -/
inductive Invocation where
  | run (request : Run)
  /-- Print a text and end with a status. -/
  | exit (output : Text) (code : Int)
deriving DecidableEq, Repr

-- ---------------------------------------------------------------------------
-- Help
-- ---------------------------------------------------------------------------

/-- The help on the tool. -/
def usage : Text := (String.intercalate "\n" [
  "Usage: fenrir <command> [<args>]",
  "",
  "Transpile fenrir source files and run them with the host runtime.",
  "",
  "Options:",
  "  --help, help      display usage information",
  "",
  "Commands:",
  "  run               Transpile a source file and execute it in a fresh workspace.",
  ""]).toList

/-- The help on its command. -/
def runUsage : Text := (String.intercalate "\n" [
  "Usage: fenrir run [--timeout <timeout>] [--emit] [--] <file>",
  "",
  "Transpile a source file and execute it in a fresh workspace.",
  "",
  "Positional Arguments:",
  "  file              the .fnr file to run",
  "",
  "Options:",
  "  --timeout         kill the program after this many milliseconds",
  "  --emit            print the generated program instead of running it",
  "  --help, help      display usage information",
  ""]).toList

-- ---------------------------------------------------------------------------
-- Faults
-- ---------------------------------------------------------------------------

/-- Why a number cannot be read. -/
inductive NumberFault where
  | empty
  | digit
  | overflow
deriving DecidableEq, Repr

/-- The wording of a number's fault. -/
def NumberFault.message : NumberFault → Text
  | empty => "cannot parse integer from empty string".toList
  | digit => "invalid digit found in string".toList
  | overflow => "number too large to fit in target type".toList

/-- Why arguments cannot be read. -/
inductive Fault where
  | afterHelp
  | unrecognized (arg : Text)
  | noCommand
  | noFile
  | noTimeout
  | badTimeout (value reason : Text)
deriving DecidableEq, Repr

/-- The wording of a fault. -/
def Fault.message : Fault → Text
  | afterHelp => "Trailing arguments are not allowed after `help`.".toList
  | unrecognized arg => "Unrecognized argument: ".toList ++ arg ++ ['\n']
  | noCommand =>
    "One of the following subcommands must be present:\n    help\n    run\n".toList
  | noFile => "Required positional arguments not provided:\n    file\n".toList
  | noTimeout => "No value provided for option '--timeout'.\n".toList
  | badTimeout value reason =>
    "Error parsing option '--timeout' with value '".toList ++ value ++ "': ".toList ++ reason ++
      ['\n']

-- ---------------------------------------------------------------------------
-- Reading
-- ---------------------------------------------------------------------------

/-- The greatest number of milliseconds. -/
def timeMax : Nat := Nat.pow 2 64 - 1

/-- Reads digits after a number read so far. -/
def readDigits (n : Nat) : Text → Except NumberFault Nat
  | [] => .ok n
  | c :: t =>
    if !c.isDigit then .error .digit
    else
      let n := n * 10 + (c.toNat - '0'.toNat)
      if n > timeMax then .error .overflow else readDigits n t

/-- Reads a number of milliseconds; a plus sign may stand before it. -/
def readTime (t : Text) : Except NumberFault Nat :=
  match t with
  | [] => .error .empty
  | ['+'] => .error .digit
  | '+' :: digits => readDigits 0 digits
  | digits => readDigits 0 digits

/-- The arguments that ask for help. -/
def isHelp (arg : Text) : Bool := arg == "--help".toList || arg == "help".toList

/-- The names of the one command. -/
def isRunName (arg : Text) : Bool := arg == "run".toList || arg == ['\x00']

/-- What was read of the arguments of a run so far. -/
structure Draft where
  file : Option Text := none
  timeoutMs : Option Nat := none
  emit : Bool := false
  help : Bool := false
  /-- Options are no longer looked for. -/
  ended : Bool := false

/-- The run that complete arguments ask for. -/
def Draft.finish (p : Draft) : Except Fault Invocation :=
  if p.help then .ok (.exit runUsage 0)
  else match p.file with
    | none => .error .noFile
    | some file => .ok (.run ⟨⟨file⟩, p.timeoutMs, p.emit⟩)

/-- Takes in the value of the time limit. -/
def Draft.setTimeout (p : Draft) (value : Text) : Except Fault Draft :=
  if p.timeoutMs.isSome then .error (.badTimeout value "duplicate values provided".toList)
  else match readTime value with
    | .error fault => .error (.badTimeout value fault.message)
    | .ok n => .ok { p with timeoutMs := some n }

/-- Takes in a plain argument. -/
def Draft.setFile (p : Draft) (arg : Text) : Except Fault Draft :=
  if p.file.isSome then .error (.unrecognized arg) else .ok { p with file := some arg }

/-- Reads the arguments of a run. -/
def parseRun (p : Draft) : List Text → Except Fault Invocation
  | [] => p.finish
  | arg :: args =>
    if p.ended || (!isHelp arg && arg.head? != some '-') then
      match p.setFile arg with
      | .error fault => .error fault
      | .ok p => parseRun p args
    else if isHelp arg then parseRun { p with help := true } args
    else if arg = "--".toList then parseRun { p with ended := true } args
    else if p.help then .error .afterHelp
    else if arg = "--emit".toList then parseRun { p with emit := true } args
    else if arg = "--timeout".toList then
      match args with
      | [] => .error .noTimeout
      | value :: args =>
        match p.setTimeout value with
        | .error fault => .error fault
        | .ok p => parseRun p args
    else .error (.unrecognized arg)

/-- Reads the arguments of the tool, where help was asked for before, or options have ended. -/
def parseTool (help ended : Bool) : List Text → Except Fault Invocation
  | [] => if help then .ok (.exit usage 0) else .error .noCommand
  | arg :: args =>
    if !ended && isHelp arg then parseTool true ended args
    else if !ended && arg = "--".toList then parseTool help true args
    else if !ended && arg.head? = some '-' then
      .error (if help then .afterHelp else .unrecognized arg)
    else if isRunName arg then parseRun { help } args
    else .error (.unrecognized arg)

/-- Puts the command in front of arguments that start with a source file. -/
def normalize : List Text → List Text
  | [] => []
  | first :: args =>
    if first.head? != some '-' && Source.isNamedAsSource ⟨first⟩ then
      "run".toList :: first :: args
    else first :: args

/-- What normalized arguments ask for. A fault is shown together with the help on the tool. -/
def parse (args : List Text) : Invocation :=
  match parseTool false false args with
  | .ok invocation => invocation
  | .error fault => .exit (fault.message ++ '\n' :: usage) 1

end Command

end Sandscript
