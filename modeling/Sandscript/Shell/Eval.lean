import Sandscript.Host
import Sandscript.Shell.Builtin
import Sandscript.Shell.Catalog

/-!
# Running shell scripts

Commands are run by recursion over their structure with fuel, which bounds how deep the calls go and
so how often a loop goes round. A script that uses it up counts as one that never ends.

A process that a shell starts is run at once and to its end. It sees a copy of the shell's own half
of the state, and what it does to the world stays.
-/

namespace Sandscript

namespace Shell

-- ---------------------------------------------------------------------------
-- Processes
-- ---------------------------------------------------------------------------

/-- The status that a shell sees of a process that ended. A process of its own is always waited
for. -/
def statusOf : Ending → Nat
  | .exited code => code
  | .killed signal => 128 + signal
  | .timedOut | .unknown _ => 0

/-- Runs a part of the script in a process of its own, which is a copy of the shell. Signals to the
shell still reach the shell. -/
def inSubshell (act : Run Unit) : Run Unit := do
  let outer ← get
  let halt ← Run.halting act
  let inner ← get
  let after := fun status => { outer with world := inner.world, status }
  match halt with
  | some (.exited n) | some (.returned n) => set (after n)
  | none | some (.leaveLoops _) | some (.nextRound _) => set (after inner.status)
  | some halt =>
    set (after inner.status)
    throw halt

/-- Runs something with other channels, and puts the old ones back. -/
def keepingChannels (act : Run Unit) : Run Unit := do
  let channels := (← get).channels
  let halt ← Run.halting act
  modify fun s => { s with channels }
  match halt with
  | some halt => throw halt
  | none => return

/-- Runs something with the output collected, and gives the output back. -/
def collecting (act : Run Unit) : Run Bytes := do
  let (n, world) := (← get).world.openStream (.collected [])
  inSubshell do
    modify fun s => { s with world }.connect 1 n
    act
  return (← get).world.collectedBy n

/-- Carries out what a tool does. -/
def runTool (tool : Tool) (name : Text) (words : List Text) : Run Unit := do
  let s ← get
  let effect := tool {
    name, words, disk := s.world.disk, directory := s.directory, vars := s.exported,
    input := s.unread }
  let s := { s with world := { s.world with disk := effect.disk }, status := effect.status }
  set ((effect.writes.foldl (fun s (channel, bytes) => s.write channel bytes) s).wait effect.waitMs)
  Run.checkTime

/-- The file that a command name stands for: the path itself if it has a slash, and otherwise the
first file of that name on the search path. -/
def commandFile? (s : State) (name : Text) : Option Text :=
  if name.contains '/' then some name
  else
    let searched := Text.split ':' ((s.get? "PATH".toList).getD defaultPath)
    let candidates := searched.map fun dir => if dir.isEmpty then name else within dir name
    candidates.find? fun path =>
      match s.world.disk.find true s.directory (toPath path) with
      | .ok (_, .file _ executable) => executable
      | _ => false

/-- The variables that every shell starts with. -/
def ownVars : List (Text × Value) :=
  [("OPTIND".toList, ⟨['1'], false⟩), ("PATH".toList, ⟨defaultPath, false⟩),
    ("PS1".toList, ⟨"# ".toList, false⟩), ("PS2".toList, ⟨"> ".toList, false⟩),
    ("PS4".toList, ⟨"+ ".toList, false⟩)]

/-- The shell of a new process: it keeps what was exported, and nothing else of the one before. The
characters that separate fields are not handed down. -/
def freshShell (s : State) (name : Text) (args : List Text) : State :=
  let handed := (s.exported.filter (·.1 != "IFS".toList)).map fun (name, text) =>
    (name, (⟨text, true⟩ : Value))
  let own := ownVars.filter fun (name, _) => (handed.lookup name).isNone
  let vars := handed ++ [("IFS".toList, ⟨[' ', '\t', '\n'], false⟩)] ++ own
  let physical := ofText s.directory.toPath.text
  let inherited := s.get "PWD"
  let leadsHere := inherited.head? = some '/' &&
    match s.world.disk.locate true [] (toPath inherited) with
    | .ok l => l == s.directory
    | .error _ => false
  let workingPath := if leadsHere then inherited else physical
  let fresh : State :=
    { world := s.world, directory := s.directory, workingPath, name, args, vars,
      channels := s.channels }
  fresh.setExported "PWD".toList workingPath

/-- How a process ends, seen from how it was halted. -/
def endingOf (s : State) : Option Halt → Run Ending
  | none | some (.leaveLoops _) | some (.nextRound _) => return .exited s.status
  | some (.exited n) | some (.returned n) => return .exited n
  | some (.killed signal) => return .killed signal
  | some .timedOut => throw .timedOut

-- ---------------------------------------------------------------------------
-- Redirections
-- ---------------------------------------------------------------------------

/-- Why a file cannot be made, in the words of the shell. -/
def createReason : IoError → Text
  | .notFound => "Directory nonexistent".toList
  | cause => cause.phrase

/-- Why a file cannot be opened, in the words of the shell. -/
def openReason : IoError → Text
  | .notFound => "No such file".toList
  | cause => cause.phrase

/-- The channel that a device stands for. -/
def deviceChannel? (t : Text) : Option Nat :=
  match String.ofList t with
  | "/dev/stdin" => some 0
  | "/dev/stdout" => some 1
  | "/dev/stderr" => some 2
  | _ => none

/-- Connects a channel to the stream behind another one. -/
def copyChannel (channel source : Nat) : Run Bool := do
  let s ← get
  match s.channels.lookup source with
  | some stream =>
    set (s.connect channel stream)
    return true
  | none =>
    Run.fail 2 (Text.ofNat source ++ ": Bad file descriptor".toList)
    return false

/-- Sends a channel to a file. -/
def sendToFile (channel : Nat) (append : Bool) (name : Text) : Run Bool := do
  let s ← get
  match deviceChannel? name with
  | some source => copyChannel channel source
  | none =>
    if name = "/dev/null".toList then
      set (s.openChannel channel .null)
      return true
    else match s.world.disk.openForWriting s.directory (toPath name) with
      | .error cause =>
        Run.fail 2 ("cannot create ".toList ++ name ++ ": ".toList ++ createReason cause)
        return false
      | .ok (l, executable) =>
        let old := match s.world.disk.get? l with
          | some (.file bytes _) => if append then bytes else []
          | _ => []
        let disk := s.world.disk.insert l (.file old executable)
        set ({ s with world := { s.world with disk } }.openChannel channel (.file l 0 append))
        return true

/-- Takes a channel from a file. -/
def takeFromFile (channel : Nat) (name : Text) : Run Bool := do
  let s ← get
  match s.world.disk.readFile s.directory (toPath name) with
  | .error cause =>
    Run.fail 2 ("cannot open ".toList ++ name ++ ": ".toList ++ openReason cause)
    return false
  | .ok bytes =>
    set (s.openChannel channel (.source bytes))
    return true

-- ---------------------------------------------------------------------------
-- Small steps
-- ---------------------------------------------------------------------------

/-- A word with the home directory in the place of a leading tilde. -/
def expandHome (s : State) : Word → Word
  | .plain ('~' :: rest) :: parts =>
    match s.get? "HOME".toList with
    | some home =>
      if rest.isEmpty || rest.head? = some '/' then .quoted home :: .plain rest :: parts
      else .plain ('~' :: rest) :: parts
    | none => .plain ('~' :: rest) :: parts
  | word => word

/-- Shows a command on the error channel before it is run, if that is asked for. -/
def trace (isPlain : Bool) (words : List Text) : Run Unit := do
  if isPlain && !words.isEmpty && (← get).options.contains 'x' then
    modify (·.print 2 ("+ ".toList ++ Text.join [' '] words ++ ['\n']))

/-- Ends a shell that is to end at the first failure that nothing looks at. -/
def checkFailure (tested : Bool) : Run Unit := do
  let s ← get
  if !tested && s.options.contains 'e' && s.status != 0 then throw (.exited s.status)

/-- Runs the body of a loop once; false if the loop is left. -/
def inLoop (body : Run Unit) : Run Bool := do
  modify fun s => { s with loops := s.loops + 1 }
  let halt ← Run.halting body
  modify fun s => { s with loops := s.loops - 1 }
  match halt with
  | none => return true
  | some (.leaveLoops n) => if n ≤ 1 then return false else throw (.leaveLoops (n - 1))
  | some (.nextRound n) => if n ≤ 1 then return true else throw (.nextRound (n - 1))
  | some halt => throw halt

/-- Sets what is run on signals; the end of the shell counts as signal zero. -/
def setTraps (args : List Text) : Run Unit := do
  match args with
  | [] => Run.finish 0
  | action :: signals =>
    for signal in signals.filterMap signal? do
      let key := Text.ofNat signal
      modify fun s =>
        let others := s.traps.filter (·.1 != key)
        { s with traps := if action = ['-'] then others else (key, action) :: others }
    Run.finish 0

/-- Tells what commands are. -/
def describe (names : List Text) : Run Unit := do
  Run.finish 0
  for name in names do
    let s ← get
    if (builtins.lookup (String.ofList name)).isSome then
      Run.print (name ++ " is a shell builtin\n".toList)
    else match commandFile? s name with
      | some path => Run.print (name ++ " is ".toList ++ path ++ ['\n'])
      | none =>
        Run.print (name ++ ": not found\n".toList)
        Run.finish 127

-- ---------------------------------------------------------------------------
-- Evaluation
-- ---------------------------------------------------------------------------

mutual

/-- Expands the parts of a word. -/
def expandParts (parts : List Part) : Nat → Run (List Atom)
  | 0 => throw .timedOut
  | fuel + 1 =>
    match parts with
    | [] => return []
    | part :: rest => do
      let atoms ← expandPart part fuel
      return atoms ++ (← expandParts rest fuel)

/-- Expands one part of a word. -/
def expandPart (part : Part) : Nat → Run (List Atom)
  | 0 => throw .timedOut
  | fuel + 1 =>
    match part with
    | .plain t => return t.map (.char · false)
    | .quoted t => return keepValue t
    | .param inQuotes name use => expandParam inQuotes name use fuel
    | .output inQuotes body => do
      let t := ofBytes (← collecting (evalCommand false body fuel))
      let cut := (t.reverse.dropWhile (· == '\n')).reverse
      return valueAtoms (← get) inQuotes (cut.filter (· != '\x00'))
    | .arithmetic inQuotes expr => do
      let t ← expandOne expr fuel
      let s ← get
      let lookup := fun name => ((s.param? name).bind readInteger?).getD 0
      match evaluate lookup t with
      | .ok n =>
        let digits := Text.ofNat n.natAbs
        return valueAtoms s inQuotes (if n < 0 then '-' :: digits else digits)
      | .error e =>
        Run.stop 2 ("arithmetic expression: ".toList ++ e.message ++ ": \"".toList ++ t ++ ['"'])

/-- Expands a parameter. -/
def expandParam (inQuotes : Bool) (name : Text) (use : Use) : Nat → Run (List Atom)
  | 0 => throw .timedOut
  | fuel + 1 => do
    let s ← get
    let value? := s.param? name
    let value := value?.getD []
    match use with
    | .value =>
      if name = ['@'] || (name = ['*'] && !inQuotes) then return eachAtoms s inQuotes s.args
      else if name = ['*'] then
        return keepValue (Text.join ((separators s).take 1) s.args)
      else if value?.isNone && s.options.contains 'u' then
        Run.stop 2 (name ++ ": parameter not set".toList)
      else return valueAtoms s inQuotes value
    | .length => return valueAtoms s inQuotes (Text.ofNat value.length)
    | .cut atEnd longest pattern =>
      let glob := toGlob (asOne (← expandParts pattern fuel))
      return valueAtoms s inQuotes (cutMatching atEnd longest glob value)
    | .fallback emptyToo what word =>
      let isMissing := value?.isNone || (emptyToo && value.isEmpty)
      let other := do return resplit (separators s) (← expandParts word fuel)
      match what with
      | .use => if isMissing then other else return valueAtoms s inQuotes value
      | .instead =>
        if isMissing then return (if inQuotes then [.here] else []) else other
      | .assign =>
        if isMissing then
          let t := unmark (asOne (← expandParts word fuel))
          modify (·.set name t)
          return valueAtoms s inQuotes t
        else return valueAtoms s inQuotes value
      | .stop =>
        if isMissing then
          let t := unmark (asOne (← expandParts word fuel))
          let standard := if emptyToo then "parameter not set or null" else "parameter not set"
          Run.stop 2 (name ++ ": ".toList ++ (if t.isEmpty then standard.toList else t))
        else return valueAtoms s inQuotes value

/-- Expands a word to one text. -/
def expandOne (word : Word) : Nat → Run Text
  | 0 => throw .timedOut
  | fuel + 1 => do return unmark (asOne (← expandParts (expandHome (← get) word) fuel))

/-- Expands words to fields. -/
def expandWords (words : List Word) : Nat → Run (List Text)
  | 0 => throw .timedOut
  | fuel + 1 =>
    match words with
    | [] => return []
    | word :: rest => do
      let atoms ← expandParts (expandHome (← get) word) fuel
      let s ← get
      let here := (fields atoms).flatMap (expandNames s)
      return here ++ (← expandWords rest fuel)

/-- Connects channels as a command's redirections say; false if one fails. -/
def redirect (redirections : List Redirection) : Nat → Run Bool
  | 0 => throw .timedOut
  | fuel + 1 =>
    match redirections with
    | [] => return true
    | first :: rest => do
      let done ← match first with
        | .toFile channel append target => do sendToFile channel append (← expandOne target fuel)
        | .fromFile channel source => do takeFromFile channel (← expandOne source fuel)
        | .fromText channel text => do
          let t := unmark (asOne (← expandParts text fuel))
          modify (·.openChannel channel (.source (toBytes t)))
          pure true
        | .copy channel source => do
          let t ← expandOne source fuel
          if t = ['-'] then
            modify (·.close channel)
            pure true
          else match decimal? t with
            | some n => copyChannel channel n
            | none => Run.stop 2 "Syntax error: Bad fd number".toList
      if done then redirect rest fuel else return false

/-- Runs a command; `tested` says that a failure is looked at by what surrounds it. -/
def evalCommand (tested : Bool) (command : Command) : Nat → Run Unit
  | 0 => throw .timedOut
  | fuel + 1 =>
    match command with
    | .simple line assigned words redirections => do
      modify fun s => { s with line }
      evalSimple assigned words redirections fuel
      checkFailure tested
    | .pipeline negated commands => do
      match commands with
      | [command] => evalCommand (tested || negated) command fuel
      | commands =>
        let start := (← get).world.clock
        evalPipe commands none start fuel
      if negated then
        modify fun s => { s with status := if s.status = 0 then 1 else 0 }
      else checkFailure tested
    | .joined joint first second => do
      evalCommand true first fuel
      let succeeded := (← get).status == 0
      let goesOn := match joint with
        | .andThen => succeeded
        | .orElse => !succeeded
      if goesOn then evalCommand tested second fuel
    | .sequence commands => evalAll tested commands fuel
    | .choice condition body otherwise => do
      evalCommand true condition fuel
      if (← get).status = 0 then evalCommand tested body fuel
      else match otherwise with
        | some command => evalCommand tested command fuel
        | none => Run.finish 0
    | .loop untilTrue condition body => evalLoop tested untilTrue condition body 0 fuel
    | .forEach name words body => do
      let items ← match words with
        | some words => expandWords words fuel
        | none => do pure (← get).args
      Run.finish 0
      evalFor tested name body items fuel
    | .select word arms => do
      let t ← expandOne word fuel
      Run.finish 0
      evalArms tested t arms fuel
    | .group body redirections =>
      keepingChannels do
        if ← redirect redirections fuel then evalCommand tested body fuel
    | .subshell body redirections => do
      inSubshell do
        if ← redirect redirections fuel then evalCommand tested body fuel
      checkFailure tested
    | .define name body => do
      modify fun s => { s with functions := (name, body) :: s.functions.filter (·.1 != name) }
      Run.finish 0

/-- Runs commands in order. -/
def evalAll (tested : Bool) (commands : List Command) : Nat → Run Unit
  | 0 => throw .timedOut
  | fuel + 1 =>
    match commands with
    | [] => return
    | first :: rest => do
      evalCommand tested first fuel
      evalAll tested rest fuel

/-- Runs the commands of a pipeline, each on the output of the one before. All start at one time. -/
def evalPipe (commands : List Command) (input : Option Bytes) (start : Nat) : Nat → Run Unit
  | 0 => throw .timedOut
  | fuel + 1 =>
    match commands with
    | [] => return
    | command :: rest => do
      let clock := (← get).world.clock
      let stage : Run Unit := do
        modify fun s => { s with world := { s.world with clock := start } }
        match input with
        | some bytes => modify (·.openChannel 0 (.source bytes))
        | none => pure ()
        evalCommand true command fuel
      let latest : Run Unit := modify fun s =>
        { s with world := { s.world with clock := max clock s.world.clock } }
      if rest.isEmpty then
        inSubshell stage
        latest
      else
        let output ← collecting stage
        latest
        evalPipe rest (some output) start fuel

/-- Goes round a loop; `last` is the status of the body's last run. -/
def evalLoop (tested untilTrue : Bool) (condition body : Command) (last : Nat) : Nat → Run Unit
  | 0 => throw .timedOut
  | fuel + 1 => do
    evalCommand true condition fuel
    if ((← get).status == 0) == untilTrue then Run.finish last
    else if ← inLoop (evalCommand tested body fuel) then
      evalLoop tested untilTrue condition body (← get).status fuel

/-- Runs a body once for each item. -/
def evalFor (tested : Bool) (name : Text) (body : Command) (items : List Text) : Nat → Run Unit
  | 0 => throw .timedOut
  | fuel + 1 =>
    match items with
    | [] => return
    | item :: rest => do
      modify (·.set name item)
      if ← inLoop (evalCommand tested body fuel) then evalFor tested name body rest fuel

/-- Runs the first arm with a pattern that the text matches. -/
def evalArms (tested : Bool) (t : Text) (arms : List (List Word × Command)) : Nat → Run Unit
  | 0 => throw .timedOut
  | fuel + 1 =>
    match arms with
    | [] => return
    | (patterns, body) :: rest => do
      if ← matchesAny t patterns fuel then evalCommand tested body fuel
      else evalArms tested t rest fuel

/-- One of the patterns stands for the text. -/
def matchesAny (t : Text) (patterns : List Word) : Nat → Run Bool
  | 0 => throw .timedOut
  | fuel + 1 =>
    match patterns with
    | [] => return false
    | pattern :: rest => do
      let glob := toGlob (asOne (← expandParts pattern fuel))
      if globMatches glob t then return true else matchesAny t rest fuel

/-- Runs a command made of words. -/
def evalSimple (assigned : List (Text × Word)) (words : List Word)
    (redirections : List Redirection) : Nat → Run Unit
  | 0 => throw .timedOut
  | fuel + 1 => do
    if words.isEmpty then Run.finish 0
    let parts ← expandWords words fuel
    trace assigned.isEmpty parts
    match parts with
    | [] =>
      keepingChannels do
        if ← redirect redirections fuel then assignAll false assigned fuel
    | name :: args =>
      if name = "exec".toList then
        if ← redirect redirections fuel then
          assignAll true assigned fuel
          evalExec args fuel
        else throw (.exited 2)
      else
        let vars := (← get).vars
        keepingChannels do
          if ← redirect redirections fuel then
            assignAll true assigned fuel
            runCommand name args fuel
          else if isSpecial name then throw (.exited 2)
        if !assigned.isEmpty && !isSpecial name then modify fun s => { s with vars }

/-- Carries out assignments. -/
def assignAll (exports : Bool) (assigned : List (Text × Word)) : Nat → Run Unit
  | 0 => throw .timedOut
  | fuel + 1 =>
    match assigned with
    | [] => return
    | (name, word) :: rest => do
      let t ← expandOne word fuel
      modify fun s => if exports then s.setExported name t else s.set name t
      assignAll exports rest fuel

/-- Replaces the shell by a program. -/
def evalExec (args : List Text) : Nat → Run Unit
  | 0 => throw .timedOut
  | fuel + 1 =>
    match args with
    | [] => Run.finish 0
    | name :: _ => do
      match commandFile? (← get) name with
      | none => Run.stop 127 ("exec: ".toList ++ name ++ ": not found".toList)
      | some path =>
        match ← runProgram path args fuel with
        | .killed signal => throw (.killed signal)
        | ending => throw (.exited (statusOf ending))

/-- Runs a function, a command of the shell, or a program. -/
def runCommand (name : Text) (args : List Text) : Nat → Run Unit
  | 0 => throw .timedOut
  | fuel + 1 => do
    let s ← get
    match s.functions.lookup name with
    | some body =>
      set { s with args, hidden := [], loops := 0 }
      let halt ← Run.halting (evalCommand false body fuel)
      modify fun after => { after.unhide after.hidden with
        args := s.args, hidden := s.hidden, loops := s.loops }
      match halt with
      | none => return
      | some (.returned n) => Run.finish n
      | some halt => throw halt
    | none =>
      match builtins.lookup (String.ofList name) with
      | some run => run args
      | none =>
        match String.ofList name with
        | "eval" => runText (Text.join [' '] args) fuel
        | "." => runFile args fuel
        | "command" => runPlain args fuel
        | "kill" => runKill args fuel
        | "trap" => setTraps args
        | "type" => describe args
        | _ => runExternal name args fuel

/-- Runs a program in a process of its own. -/
def runExternal (name : Text) (args : List Text) : Nat → Run Unit
  | 0 => throw .timedOut
  | fuel + 1 => do
    match commandFile? (← get) name with
    | none => notFound name
    | some path =>
      let ending ← runProgram path (name :: args) fuel
      match ending with
      | .killed signal =>
        if !(obituary signal).isEmpty then modify (·.print 2 (obituary signal ++ ['\n']))
      | _ => pure ()
      Run.finish (statusOf ending)

/-- Runs a command that is no function, or tells what it is. -/
def runPlain (args : List Text) : Nat → Run Unit
  | 0 => throw .timedOut
  | fuel + 1 =>
    match args with
    | [] => Run.finish 0
    | ['-', 'v'] :: names => do
      let s ← get
      match names with
      | name :: _ =>
        if (builtins.lookup (String.ofList name)).isSome || isSpecial name then
          Run.print (name ++ ['\n'])
          Run.finish 0
        else match commandFile? s name with
          | some path =>
            if s.world.disk.isFile s.directory (toPath path) then
              Run.print (path ++ ['\n'])
              Run.finish 0
            else Run.finish 127
          | none => Run.finish 127
      | [] => Run.finish 0
    | name :: args => do
      match builtins.lookup (String.ofList name) with
      | some run => run args
      | none => runExternal name args fuel

/-- Sends a signal to the shell, or to a process that is not there. -/
def runKill (args : List Text) : Nat → Run Unit
  | 0 => throw .timedOut
  | fuel + 1 => do
    let (signal, targets) := killWords args
    match signal with
    | .error name => Run.fail 2 ("kill: Illegal option -".toList ++ name.take 1)
    | .ok signal =>
      if targets = [Text.ofNat processNumber] then
        match (← get).traps.lookup (Text.ofNat signal) with
        | some action =>
          if signal = 9 || signal = 19 then sendSignal signal
          else
            runText action fuel
            Run.finish 0
        | none => sendSignal signal
      else Run.fail 1 "kill: No such process\n".toList

/-- Runs the commands in a text. -/
def runText (t : Text) : Nat → Run Unit
  | 0 => throw .timedOut
  | fuel + 1 => do
    Run.finish 0
    runInput ⟨t, (← get).line, 0⟩ fuel

/-- Runs the commands of a file in the shell itself. -/
def runFile (args : List Text) : Nat → Run Unit
  | 0 => throw .timedOut
  | fuel + 1 => do
    let s ← get
    match args with
    | [] => Run.stop 2 ".: filename argument required".toList
    | name :: _ =>
      match s.world.disk.readFile s.directory (toPath name) with
      | .error cause =>
        Run.stop 2 (".: cannot open ".toList ++ name ++ ": ".toList ++ openReason cause)
      | .ok bytes =>
        let halt ← Run.halting (runInput ⟨ofBytes bytes, 1, 0⟩ fuel)
        match halt with
        | none => return
        | some (.returned n) => Run.finish n
        | some halt => throw halt

/-- Reads and runs commands until the text ends. -/
def runInput (input : Input) : Nat → Run Unit
  | 0 => throw .timedOut
  | fuel + 1 => do
    match readNext input with
    | .error fault =>
      modify fun s => { s with line := fault.line }
      Run.stop 2 fault.message
    | .ok (none, _) => return
    | .ok (some command, rest) =>
      evalCommand false command fuel
      runInput rest fuel

/-- Runs a script in a shell of its own. -/
def runScript (name : Text) (args : List Text) (t : Text) : Nat → Run Ending
  | 0 => throw .timedOut
  | fuel + 1 => do
    let outer ← get
    set (freshShell outer name args)
    let halt ← Run.halting (runInput ⟨t, 1, 0⟩ fuel)
    let atEnd := (← get).traps.lookup ['0']
    let halt ← match halt, atEnd with
      | some (.killed signal), _ => pure (some (.killed signal))
      | some .timedOut, _ => pure (some .timedOut)
      | halt, none => pure halt
      | halt, some action => do
        let inner ← get
        let ending ← endingOf inner halt
        modify fun s => { s with status := statusOf ending, traps := [] }
        match ← Run.halting (runText action fuel) with
        | none => pure (some (.exited (statusOf ending)))
        | some halt => pure (some halt)
    let inner ← get
    set { outer with world := inner.world }
    endingOf inner halt

/-- Runs the program in a file with the given words, the first of which is its name. -/
def runProgram (path : Text) (words : List Text) : Nat → Run Ending
  | 0 => throw .timedOut
  | fuel + 1 => do
    let s ← get
    let name := words.headD path
    let refused := fun (status : Nat) (reason : String) => do
      modify (·.complain (name ++ ": ".toList ++ reason.toList))
      return Ending.exited status
    match s.world.disk.find true s.directory (toPath path) with
    | .error _ => refused 127 "not found"
    | .ok (_, .file bytes true) =>
      match programKind bytes with
      | .tool tool => runNamed tool name (words.drop 1) fuel
      | .script interpreter argument =>
        let given := argument.toList ++ [path] ++ words.drop 1
        match s.world.disk.find true s.directory (toPath interpreter) with
        | .ok _ => runProgram interpreter (interpreter :: given) fuel
        | .error _ => refused 127 "not found"
      | .unknown => runScript path (words.drop 1) (ofBytes bytes) fuel
    | .ok _ => refused 126 "Permission denied"

/-- Runs a tool of the system, or a shell, or a program with other variables. -/
def runNamed (tool name : Text) (args : List Text) : Nat → Run Ending
  | 0 => throw .timedOut
  | fuel + 1 => do
    let s ← get
    if shellNames.contains (String.ofList tool) then
      match args with
      | ['-', 'c'] :: script :: rest => runScript (rest.headD name) (rest.drop 1) script fuel
      | file :: rest =>
        match s.world.disk.readFile s.directory (toPath file) with
        | .ok bytes => runScript file rest (ofBytes bytes) fuel
        | .error cause =>
          let message := name ++ ": 0: cannot open ".toList ++ file ++ ": ".toList ++
            openReason cause ++ ['\n']
          modify (·.print 2 message)
          return .exited 2
      | [] =>
        let t := ofBytes s.unread
        modify (·.setUnread [])
        runScript name [] t fuel
    else if tool = "env".toList then
      let assignments := (args.takeWhile fun w => (assignment? w).isSome).filterMap assignment?
      let rest := args.drop assignments.length
      let inner := assignments.foldl (fun s (n, v) => s.setExported n v) s
      match rest with
      | [] =>
        modify (·.print 1 (unlinesOf (inner.exported.map fun (n, v) => n ++ '=' :: v)))
        return .exited 0
      | command :: _ =>
        match commandFile? inner command with
        | none =>
          let message := "env: ".toList ++ named command ++ ": No such file or directory\n".toList
          modify (·.print 2 message)
          return .exited 127
        | some path =>
          set inner
          let ending ← runProgram path rest fuel
          modify fun after => { s with world := after.world }
          return ending
    else match tools.lookup (String.ofList tool) with
      | some run =>
        let status := s.status
        runTool run name args
        let ending := Ending.exited (← get).status
        Run.finish status
        return ending
      | none => return .exited 126

end

end Shell

end Sandscript
