import Sandscript.Shell.Condition
import Sandscript.Shell.Expansion
import Sandscript.Shell.Printf
import Sandscript.Shell.Signal

/-!
# The shell's own commands

Commands that a shell runs itself because they look at its state or change it. Those that run other
commands are part of the evaluation.
-/

namespace Sandscript

namespace Shell

/-- Ends with a message about a word that should be a number. -/
def illegalNumber {α : Type} (command : String) (word : Text) : Run α :=
  .stop 2 (command.toList ++ ": Illegal number: ".toList ++ word)

/-- The number that a command is given, or another one. -/
def numberArgument (command : String) (otherwise : Nat) : List Text → Run Nat
  | [] => return otherwise
  | word :: _ =>
    match decimal? word with
    | some n => if n < Nat.pow 2 31 then return n else illegalNumber command word
    | none => illegalNumber command word

/-- Prints words. -/
def runEcho (words : List Text) : Run Unit := do
  Run.print (echo words)
  Run.finish 0

/-- Prints a format. -/
def runPrintf (words : List Text) : Run Unit := do
  let words := match words with
    | ['-', '-'] :: rest => rest
    | words => words
  match words with
  | [] => Run.fail 2 "printf: usage: printf format [arg ...]".toList
  | format :: words =>
    let (text, wrong) := printf format words
    Run.print text
    Run.finish 0
    for word in wrong do
      Run.fail 1 ("printf: ".toList ++ word ++ ": expected numeric value".toList)

/-- Checks a condition. -/
def runTest (command : String) (words : List Text) : Run Unit := do
  let s ← get
  match condition s.world.disk s.directory words with
  | .ok answer => Run.finish (if answer then 0 else 1)
  | .error e => Run.fail 2 (command.toList ++ ": ".toList ++ e.message)

/-- Checks a condition between brackets. -/
def runBracket (words : List Text) : Run Unit :=
  if words.getLast? = some [']'] then runTest "[" words.dropLast
  else Run.fail 2 "[: missing ]".toList

/-- Goes to another directory. -/
def runCd (words : List Text) : Run Unit := do
  let s ← get
  let words := words.filter fun w => w != ['-', 'L'] && w != ['-', 'P'] && w != ['-', '-']
  let target := match words with
    | [] => s.get "HOME"
    | ['-'] :: _ => s.get "OLDPWD"
    | word :: _ => word
  let logical := ((toPath s.workingPath).join (toPath target)).resolve
  let found := match s.world.disk.find true [] logical with
    | .ok (l, .directory) => some (l, ofText logical.text)
    | _ =>
      match s.world.disk.find true s.directory (toPath target) with
      | .ok (l, .directory) => some (l, ofText l.toPath.text)
      | _ => none
  match found with
  | none => Run.fail 2 ("cd: can't cd to ".toList ++ target)
  | some (directory, path) =>
    set (({ s with directory, workingPath := path }.setExported "OLDPWD".toList
      s.workingPath).setExported "PWD".toList path)
    if words.head? = some ['-'] then Run.print (path ++ ['\n'])
    Run.finish 0

/-- Shows the working directory. -/
def runPwd (words : List Text) : Run Unit := do
  let s ← get
  let path := if words.contains ['-', 'P'] then ofText s.directory.toPath.text else s.workingPath
  Run.print (path ++ ['\n'])
  Run.finish 0

/-- A word that assigns a value, as a name and the value. -/
def assignment? (word : Text) : Option (Text × Text) :=
  let name := word.takeWhile isNameRest
  match word.drop name.length with
  | '=' :: value => if isName name then some (name, value) else none
  | _ => none

/-- Exports variables. -/
def runExport (words : List Text) : Run Unit := do
  for word in words do
    match assignment? word with
    | some (name, value) => modify (·.setExported name value)
    | none => modify fun s =>
      match s.get? word with
      | some value => s.setExported word value
      | none => s
  Run.finish 0

/-- Takes variables or functions away. -/
def runUnset (words : List Text) : Run Unit := do
  let functions := words.contains ['-', 'f']
  for word in words do
    if functions then
      modify fun s => { s with functions := s.functions.filter (·.1 != word) }
    else modify (·.unset word)
  Run.finish 0

/-- Sets options and the words of the shell. -/
def setOptions : List Text → Run Unit
  | [] => return
  | ['-', '-'] :: rest => modify fun s => { s with args := rest }
  | ['-', 'o'] :: _ :: rest | ['+', 'o'] :: _ :: rest => setOptions rest
  | ('-' :: letters) :: rest => do
    modify fun s => { s with options := s.options ++ letters.filter (!s.options.contains ·) }
    setOptions rest
  | ('+' :: letters) :: rest => do
    modify fun s => { s with options := s.options.filter (!letters.contains ·) }
    setOptions rest
  | words => modify fun s => { s with args := words }

/-- Sets options and the words of the shell, or shows the variables. -/
def runSet (words : List Text) : Run Unit := do
  if words.isEmpty then
    let vars := (← get).vars.mergeSort fun a b => Disk.nameLe a.1 b.1
    for (name, v) in vars do
      Run.print (name ++ "=".toList ++ named v.text ++ ['\n'])
  else setOptions words
  Run.finish 0

/-- Drops words of the shell from the front. -/
def runShift (words : List Text) : Run Unit := do
  let n ← numberArgument "shift" 1 words
  let s ← get
  if n > s.args.length then Run.stop 2 "shift: can't shift that many".toList
  else
    set { s with args := s.args.drop n }
    Run.finish 0

/-- Cuts a line into as many fields as there are names; the last one gets the rest. -/
def lineFields (ifs : Text) : Nat → Text → List Text
  | 0, _ => []
  | 1, line =>
    let body := line.dropWhile fun c => isWhite c && ifs.contains c
    [(body.reverse.dropWhile fun c => isWhite c && ifs.contains c).reverse]
  | n + 1, line =>
    let body := line.dropWhile fun c => isWhite c && ifs.contains c
    let field := body.takeWhile fun c => !ifs.contains c
    let rest := body.drop field.length
    let rest := rest.dropWhile fun c => isWhite c && ifs.contains c
    let rest := match rest with
      | c :: after => if ifs.contains c then after else rest
      | [] => []
    field :: lineFields ifs n rest

/-- Reads a line into variables. -/
def runRead (words : List Text) : Run Unit := do
  let s ← get
  let raw := words.contains ['-', 'r']
  let names := words.filter (·.head? != some '-')
  let input := ofBytes s.unread
  let line := input.takeWhile (· != '\n')
  let ended := line.length < input.length
  let s := s.setUnread (toBytes (input.drop (line.length + 1)))
  let line := if raw then line else line.filter (· != '\\')
  let values := lineFields (separators s) names.length line
  set ((names.zip values).foldl (fun s (name, value) => s.set name value) s)
  Run.finish (if ended then 0 else 1)

/-- Sends a signal to the shell itself; one that is trapped is left to the caller. -/
def sendSignal (signal : Nat) : Run Unit :=
  match reaction signal with
  | .nothing => Run.finish 0
  | .stops => throw .timedOut
  | .kills => throw (.killed signal)

/-- The signal that the words of a kill name, or the word that names none, and the processes. -/
def killWords : List Text → Except Text Nat × List Text
  | ['-', 's'] :: name :: rest => (named name, rest)
  | ['-', '-'] :: rest => (.ok 15, rest)
  | ('-' :: name) :: rest => (named name, rest)
  | words => (.ok 15, words)
where
  /-- The signal of a name. -/
  named (name : Text) : Except Text Nat :=
    match signal? name with
    | some n => .ok n
    | none => .error name

/-- Fails in the way of a command that is not there. -/
def notFound (name : Text) : Run Unit := Run.fail 127 (name ++ ": not found".toList)

/-- Leaves the body of as many loops as a word says, but not of more than there are. -/
def leaving (command : String) (halt : Nat → Halt) (words : List Text) : Run Unit := do
  let n ← numberArgument command 1 words
  let loops := (← get).loops
  if loops = 0 then Run.finish 0 else throw (halt (min n loops))

/-- Hides variables of a function, and gives them values. -/
def runLocal (words : List Text) : Run Unit := do
  for word in words do
    match assignment? word with
    | some (name, value) => modify fun s => (s.hide name).set name value
    | none => modify (·.hide word)
  Run.finish 0

/-- The commands that need nothing but the state. -/
def builtins : List (String × (List Text → Run Unit)) :=
  [(":", fun _ => Run.finish 0), ("true", fun _ => Run.finish 0), ("false", fun _ => Run.finish 1),
    ("echo", runEcho), ("printf", runPrintf), ("test", runTest "test"), ("[", runBracket),
    ("cd", runCd), ("chdir", runCd), ("pwd", runPwd), ("export", runExport), ("unset", runUnset),
    ("readonly", runExport), ("set", runSet), ("shift", runShift), ("read", runRead),
    ("umask", fun _ => Run.finish 0), ("ulimit", fun _ => Run.finish 0),
    ("wait", fun _ => Run.finish 0), ("jobs", fun _ => Run.finish 0),
    ("hash", fun _ => Run.finish 0), ("local", runLocal),
    ("exit", fun words => do
      let n ← numberArgument "exit" (← get).status words
      throw (.exited (n % 256))),
    ("return", fun words => do
      let n ← numberArgument "return" (← get).status words
      throw (.returned (n % 256))),
    ("break", leaving "break" .leaveLoops), ("continue", leaving "continue" .nextRound)]

/-- The commands whose assignments last, and whose failures end the shell. -/
def isSpecial (name : Text) : Bool :=
  [":", "exec", "eval", "exit", "export", "readonly", "return", "set", "shift", "trap", "unset",
    "break", "continue", "."].contains (String.ofList name)

end Shell

end Sandscript
