import Sandscript.Shell.Script

/-!
# Reading shell scripts

A script is read one complete command at a time, so that what stands before a fault is still run.
All functions take fuel, which bounds how deep they call each other; `readNext` provides more of it
than the characters left could use.
-/

namespace Sandscript

namespace Shell

/-- What is left of a script, and the line it is on. -/
structure Input where
  rest : Text
  line : Nat
  /-- Lines that were taken out of what is left, just after the line that is being read. -/
  skipped : Nat := 0

/-- Why a script cannot be read, and where. -/
structure Fault where
  line : Nat
  message : Text

/-- An unexpected piece of script. -/
def unexpected {α : Type} (i : Input) (what : Text) : Except Fault α :=
  .error ⟨i.line, "Syntax error: ".toList ++ what ++ " unexpected".toList⟩

/-- A script that ends too early. -/
def endedEarly {α : Type} (i : Input) : Except Fault α := unexpected i "end of file".toList

/-- A piece of script in the place of one that is needed. -/
def expecting {α : Type} (i : Input) (found wanted : Text) : Except Fault α :=
  .error ⟨i.line, "Syntax error: ".toList ++ found ++ " unexpected (expecting \"".toList ++
    wanted ++ "\")".toList⟩

-- ---------------------------------------------------------------------------
-- Characters
-- ---------------------------------------------------------------------------

/-- The input after its next `n` characters. -/
def Input.advance (i : Input) (n : Nat) : Input :=
  let passed := (i.rest.take n).count '\n'
  if passed = 0 then { i with rest := i.rest.drop n }
  else ⟨i.rest.drop n, i.line + passed + i.skipped, 0⟩

/-- Blanks between words. -/
def isSpace (c : Char) : Bool := c == ' ' || c == '\t'

/-- The characters that end a word. -/
def endsWord (c : Char) : Bool := isSpace c || "\n;&|<>()".toList.contains c

/-- The characters that names of parameters start with. -/
def isNameStart (c : Char) : Bool := c.isAlpha || c == '_'

/-- The characters that names of parameters go on with. -/
def isNameRest (c : Char) : Bool := c.isAlphanum || c == '_'

/-- A name that a parameter can have. -/
def isName : Text → Bool
  | [] => false
  | c :: t => isNameStart c && t.all isNameRest

/-- The parameters whose names are single marks. -/
def isMark (c : Char) : Bool := "@*#?$!-".toList.contains c

/-- Skips blanks, comments and continued lines. -/
def skipSpaces (i : Input) : Nat → Input
  | 0 => i
  | fuel + 1 =>
    match i.rest with
    | '\\' :: '\n' :: _ => skipSpaces (i.advance 2) fuel
    | '#' :: _ => i.advance (i.rest.takeWhile (· != '\n')).length
    | c :: _ => if isSpace c then skipSpaces (i.advance 1) fuel else i
    | [] => i

/-- Skips blanks, comments and continued lines. -/
def Input.skip (i : Input) : Input := skipSpaces i (i.rest.length + 1)

/-- Skips newlines as well. -/
def skipLinesFrom (i : Input) : Nat → Input
  | 0 => i
  | fuel + 1 =>
    let i := i.skip
    match i.rest with
    | '\n' :: _ => skipLinesFrom (i.advance 1) fuel
    | _ => i

/-- Skips blanks, comments and newlines. -/
def Input.skipLines (i : Input) : Input := skipLinesFrom i (i.rest.length + 1)

/-- The next word if it is written without any quoting or expansion. -/
def Input.peekPlain (i : Input) : Text := i.rest.takeWhile fun c => !endsWord c

/-- The words that have a meaning of their own where a command may start. -/
def reserved : List Text :=
  ["if", "then", "elif", "else", "fi", "while", "until", "for", "do", "done", "case", "esac", "in",
    "\x7b", "\x7d", "!"].map String.toList

/-- The words that cannot start a command. -/
def closers : List Text :=
  ["then", "elif", "else", "fi", "do", "done", "esac", "\x7d"].map String.toList

/-- Takes a word with a meaning of its own. -/
def expectWord (i : Input) (word : String) : Except Fault Input :=
  let i := i.skipLines
  let found := i.peekPlain
  if found = word.toList then .ok (i.advance word.length)
  else match i.rest with
    | [] => expecting i "end of file".toList word.toList
    | c :: _ =>
      if found.isEmpty then expecting i ['"', c, '"'] word.toList
      else if reserved.contains found then expecting i ('"' :: found ++ ['"']) word.toList
      else expecting i "word".toList word.toList

/-- Takes a closing parenthesis. -/
def expectParenthesis (i : Input) : Except Fault Input :=
  let i := i.skipLines
  match i.rest with
  | [] => expecting i "end of file".toList [')']
  | ')' :: _ => .ok (i.advance 1)
  | _ => unexpected i ('"' :: i.peekPlain ++ ['"'])

/-- Text up to a single quote, and the input after it. -/
def takeQuoted (i : Input) : Except Fault (Text × Input) :=
  let t := i.rest.takeWhile (· != '\'')
  let i := i.advance t.length
  if i.rest.isEmpty then .error ⟨i.line, "Syntax error: Unterminated quoted string".toList⟩
  else .ok (t, i.advance 1)

/-- The script between backquotes, with its escapes taken out. -/
def takeBackquoted (taken : Text) (i : Input) : Nat → Except Fault (Text × Input)
  | 0 => endedEarly i
  | fuel + 1 =>
    match i.rest with
    | [] => .error ⟨i.line, "Syntax error: EOF in backquote substitution".toList⟩
    | '`' :: _ => .ok (taken, i.advance 1)
    | '\\' :: c :: _ =>
      if c = '`' || c = '\\' || c = '$' then takeBackquoted (taken ++ [c]) (i.advance 2) fuel
      else takeBackquoted (taken ++ ['\\', c]) (i.advance 2) fuel
    | c :: _ => takeBackquoted (taken ++ [c]) (i.advance 1) fuel

-- ---------------------------------------------------------------------------
-- Words
-- ---------------------------------------------------------------------------

/-- Where the parts that are being read stand. -/
inductive Place where
  /-- In a word of a command. -/
  | word
  /-- Between double quotes. -/
  | quotes
  /-- Between the braces of a parameter, itself in quotes or not. -/
  | braces (inQuotes : Bool)
  /-- Between the parentheses of an arithmetic expression. -/
  | arithmetic
  /-- In lines that are given to a command as its input. -/
  | document
deriving DecidableEq, Repr

/-- Whether expansions at a place are protected from being cut into fields. -/
def Place.protects : Place → Bool
  | word => false
  | quotes | arithmetic | document => true
  | braces inQuotes => inQuotes

/-- Characters at a place, protected or not. -/
def Place.text (p : Place) (t : Text) : Part := if p.protects then .quoted t else .plain t

/-- The end of what is read at a place; it is not taken. -/
def Place.ends (p : Place) (t : Text) : Bool :=
  match p, t with
  | _, [] => true
  | .word, c :: _ => endsWord c
  | .quotes, c :: _ => c == '"'
  | .braces _, c :: _ => c == '\x7d'
  | .arithmetic, ')' :: ')' :: _ => true
  | .arithmetic, _ => false
  | .document, _ => false

/-- Whether a backslash before a character is special between double quotes. -/
def isEscapable (c : Char) : Bool := "$`\"\\".toList.contains c

/-- Puts a part in front of others; neighbouring characters of one kind become one part. -/
def consPart (p : Part) (ps : List Part) : List Part :=
  match p, ps with
  | .plain s, .plain t :: rest => .plain (s ++ t) :: rest
  | .quoted s, .quoted t :: rest => .quoted (s ++ t) :: rest
  | _, _ => p :: ps

/-- The operator after a parameter's name. -/
def readOperator (i : Input) : Option ((List Part → Use) × Nat) :=
  match i.rest with
  | ':' :: '-' :: _ => some (.fallback true .use, 2)
  | ':' :: '=' :: _ => some (.fallback true .assign, 2)
  | ':' :: '?' :: _ => some (.fallback true .stop, 2)
  | ':' :: '+' :: _ => some (.fallback true .instead, 2)
  | '-' :: _ => some (.fallback false .use, 1)
  | '=' :: _ => some (.fallback false .assign, 1)
  | '?' :: _ => some (.fallback false .stop, 1)
  | '+' :: _ => some (.fallback false .instead, 1)
  | '%' :: '%' :: _ => some (.cut true true, 2)
  | '%' :: _ => some (.cut true false, 1)
  | '#' :: '#' :: _ => some (.cut false true, 2)
  | '#' :: _ => some (.cut false false, 1)
  | _ => none

/-- The name of a parameter at the front of a text. -/
def paramName (t : Text) : Text :=
  match t with
  | [] => []
  | c :: _ =>
    if isNameStart c then t.takeWhile isNameRest
    else if c.isDigit then t.takeWhile Char.isDigit
    else if isMark c then [c]
    else []

/-- The line that ends a document, and whether the document is taken as it stands. -/
def documentEnd (word : List Part) : Text × Bool :=
  (word.flatMap fun
    | .plain t | .quoted t => t
    | _ => [],
  word.any fun
    | .quoted _ => true
    | _ => false)

/-- The document at the front of some lines, up to the line that ends it, and how many lines it
takes with that one. -/
def takeDocument (unindents : Bool) (ending : Text) : List Text → Text × Nat
  | [] => ([], 0)
  | line :: lines =>
    let line := if unindents then line.dropWhile (· == '\t') else line
    if line = ending then ([], 1)
    else
      let (body, count) := takeDocument unindents ending lines
      (line ++ '\n' :: body, count + 1)

/-- The stream that a redirection without a number is about. -/
def defaultStream (c : Char) : Nat := if c = '<' then 0 else 1

mutual

/-- Reads the parts at a place up to its end. -/
def readParts (p : Place) (i : Input) : Nat → Except Fault (List Part × Input)
  | 0 => endedEarly i
  | fuel + 1 =>
    if p.ends i.rest then .ok ([], i)
    else do
      let (first, i) ← readPart p i fuel
      let (rest, i) ← readParts p i fuel
      return (first.foldr consPart rest, i)

/-- Reads what the next character starts: mostly one part, none for a continued line, and all parts
between a pair of double quotes. -/
def readPart (p : Place) (i : Input) : Nat → Except Fault (List Part × Input)
  | 0 => endedEarly i
  | fuel + 1 =>
    match i.rest with
    | [] => endedEarly i
    | '\\' :: '\n' :: _ => .ok ([], i.advance 2)
    | '\\' :: c :: _ =>
      if p = .word || p = .braces false || (isEscapable c && (p != .document || c != '"')) then
        .ok ([.quoted [c]], i.advance 2)
      else .ok ([.quoted ['\\', c]], i.advance 2)
    | '\'' :: _ =>
      if p = .word || p = .braces false then do
        let (t, i) ← takeQuoted (i.advance 1)
        return ([.quoted t], i)
      else .ok ([p.text ['\'']], i.advance 1)
    | '"' :: _ =>
      if p = .arithmetic then .ok ([], i.advance 1)
      else if p = .document then .ok ([.quoted ['"']], i.advance 1)
      else do
        let (parts, i) ← readParts .quotes (i.advance 1) fuel
        if i.rest.isEmpty then
          .error ⟨i.line, "Syntax error: Unterminated quoted string".toList⟩
        else return (if parts.isEmpty then [.quoted []] else parts, i.advance 1)
    | '`' :: _ => do
      let (t, after) ← takeBackquoted [] (i.advance 1) (i.rest.length + 1)
      let (body, rest) ← readList [] ⟨t, i.line, 0⟩ fuel
      if rest.rest.isEmpty then return ([.output p.protects body], after)
      else unexpected rest ('"' :: rest.peekPlain ++ ['"'])
    | '$' :: _ => do
      let (part, i) ← readDollar p (i.advance 1) fuel
      return ([part], i)
    | c :: _ => .ok ([p.text [c]], i.advance 1)

/-- Reads an expansion after its dollar. -/
def readDollar (p : Place) (i : Input) : Nat → Except Fault (Part × Input)
  | 0 => endedEarly i
  | fuel + 1 =>
    match i.rest with
    | '(' :: '(' :: _ => do
      let (expr, i) ← readParts .arithmetic (i.advance 2) fuel
      if i.rest.isEmpty then endedEarly i
      else return (.arithmetic p.protects expr, i.advance 2)
    | '(' :: _ => do
      let (body, i) ← readList [")".toList] (i.advance 1) fuel
      return (.output p.protects body, ← expectParenthesis i)
    | '\x7b' :: _ => readBraced p (i.advance 1) fuel
    | rest =>
      let name := match rest with
        | c :: _ => if c.isDigit then [c] else paramName rest
        | [] => []
      if name.isEmpty then .ok (p.text ['$'], i)
      else .ok (.param p.protects name .value, i.advance name.length)

/-- Reads a parameter after its opening brace. -/
def readBraced (p : Place) (i : Input) : Nat → Except Fault (Part × Input)
  | 0 => endedEarly i
  | fuel + 1 =>
    let refused : Except Fault (Part × Input) := .error ⟨i.line, "Bad substitution".toList⟩
    match i.rest with
    | '#' :: '\x7d' :: _ => .ok (.param p.protects ['#'] .value, i.advance 2)
    | '#' :: after =>
      let name := paramName after
      let i := i.advance (1 + name.length)
      if !name.isEmpty && i.rest.head? = some '\x7d' then
        .ok (.param p.protects name .length, i.advance 1)
      else refused
    | _ =>
      let name := paramName i.rest
      let i := i.advance name.length
      if name.isEmpty then refused
      else if i.rest.head? = some '\x7d' then .ok (.param p.protects name .value, i.advance 1)
      else match readOperator i with
        | none => refused
        | some (use, length) => do
          -- a pattern is one between quotes, too
          let isCut := i.rest.head? = some '%' || i.rest.head? = some '#'
          let place := Place.braces (p.protects && !isCut)
          let (parts, i) ← readParts place (i.advance length) fuel
          if i.rest.isEmpty then .error ⟨i.line, "Syntax error: Missing '\x7d'".toList⟩
          else return (.param p.protects name (use parts), i.advance 1)

-- ---------------------------------------------------------------------------
-- Commands
-- ---------------------------------------------------------------------------

/-- Reads a redirection, if one is next. -/
def readRedirection (i : Input) : Nat → Except Fault (Option Redirection × Input)
  | 0 => endedEarly i
  | fuel + 1 =>
    let digits := i.rest.takeWhile Char.isDigit
    match i.rest.drop digits.length with
    | c :: after =>
      if c = '<' || c = '>' then do
        let stream :=
          if digits.isEmpty then defaultStream c
          else digits.foldl (fun n d => n * 10 + (d.toNat - '0'.toNat)) 0
        if c = '<' && after.head? = some '<' then
          let (r, i) ← readDocument stream (i.advance (digits.length + 2)) fuel
          return (some r, i)
        let append := c = '>' && after.head? = some '>'
        let copies := after.head? = some '&'
        let forced := c = '>' && after.head? = some '|'
        let length := digits.length + (if append || copies || forced then 2 else 1)
        let i := (i.advance length).skip
        let (word, i) ← readParts .word i fuel
        if word.isEmpty then unexpected i "redirection".toList
        else if copies then return (some (.copy stream word), i)
        else if c = '<' then return (some (.fromFile stream word), i)
        else return (some (.toFile stream append word), i)
      else .ok (none, i)
    | [] => .ok (none, i)

/-- Reads the word that ends a document, and takes the document out of the lines below. -/
def readDocument (stream : Nat) (i : Input) : Nat → Except Fault (Redirection × Input)
  | 0 => endedEarly i
  | fuel + 1 => do
    let unindents := i.rest.head? = some '-'
    let i := (if unindents then i.advance 1 else i).skip
    let (word, i) ← readParts .word i fuel
    let (ending, isQuoted) := documentEnd word
    if ending.isEmpty then unexpected i "redirection".toList
    else
      let thisLine := i.rest.takeWhile (· != '\n')
      let below := i.rest.drop (thisLine.length + 1)
      let (body, count) := takeDocument unindents ending (Text.split '\n' below)
      let after := (Text.split '\n' below).drop count
      let rest := if after.isEmpty then thisLine
        else thisLine ++ '\n' :: Text.join ['\n'] after
      let i := { i with rest, skipped := i.skipped + count }
      if isQuoted then return (.fromText stream [.quoted body], i)
      else
        let (parts, _) ← readParts .document ⟨body, i.line + 1, 0⟩ fuel
        return (.fromText stream parts, i)

/-- Reads redirections. -/
def readRedirections (i : Input) : Nat → Except Fault (List Redirection × Input)
  | 0 => endedEarly i
  | fuel + 1 => do
    match ← readRedirection i.skip fuel with
    | (none, i) => return ([], i)
    | (some r, i) =>
      let (rs, i) ← readRedirections i fuel
      return (r :: rs, i)

/-- Reads the words and redirections of a simple command; `assigning` as long as assignments may
come. -/
def readSimple (assigning : Bool) (line : Nat) (i : Input) : Nat → Except Fault (Command × Input)
  | 0 => endedEarly i
  | fuel + 1 => do
    match ← readRedirection i.skip fuel with
    | (some r, i) =>
      let (c, i) ← readSimple assigning line i fuel
      match c with
      | .simple _ assigned words rs => return (.simple line assigned words (r :: rs), i)
      | c => return (c, i)
    | (none, i) =>
      if Place.word.ends i.rest then return (.simple line [] [] [], i)
      else
        let name := i.rest.takeWhile isNameRest
        let assigns := assigning && isName name && (i.rest.drop name.length).head? = some '='
        let start := if assigns then i.advance (name.length + 1) else i
        let (word, i) ← readParts .word start fuel
        let (c, i) ← readSimple assigns line i fuel
        match c with
        | .simple _ assigned words rs =>
          if assigns then return (.simple line ((name, word) :: assigned) words rs, i)
          else return (.simple line assigned (word :: words) rs, i)
        | c => return (c, i)

/-- Reads a condition, what follows it, and the alternatives, after `if` or `elif`. -/
def readChoice (i : Input) : Nat → Except Fault (Command × Input)
  | 0 => endedEarly i
  | fuel + 1 => do
    let (condition, i) ← readList ["then".toList] i fuel
    let i ← expectWord i "then"
    let (body, i) ← readList ["elif".toList, "else".toList, "fi".toList] i fuel
    let i := i.skipLines
    if i.peekPlain = "elif".toList then
      let (other, i) ← readChoice (i.advance 4) fuel
      return (.choice condition body (some other), i)
    else if i.peekPlain = "else".toList then
      let (other, i) ← readList ["fi".toList] (i.advance 4) fuel
      return (.choice condition body (some other), ← expectWord i "fi")
    else return (.choice condition body none, ← expectWord i "fi")

/-- Reads the body of a loop. -/
def readBody (i : Input) : Nat → Except Fault (Command × Input)
  | 0 => endedEarly i
  | fuel + 1 => do
    let i ← expectWord i "do"
    let (body, i) ← readList ["done".toList] i fuel
    return (body, ← expectWord i "done")

/-- Reads words up to the end of a line. -/
def readWords (i : Input) : Nat → Except Fault (List (List Part) × Input)
  | 0 => endedEarly i
  | fuel + 1 =>
    let i := i.skip
    if Place.word.ends i.rest then .ok ([], i)
    else do
      let (word, i) ← readParts .word i fuel
      let (words, i) ← readWords i fuel
      return (word :: words, i)

/-- Reads the patterns of an arm. -/
def readPatterns (i : Input) : Nat → Except Fault (List (List Part) × Input)
  | 0 => endedEarly i
  | fuel + 1 => do
    let (word, i) ← readParts .word i.skip fuel
    let i := i.skip
    match i.rest with
    | '|' :: _ =>
      let (words, i) ← readPatterns (i.advance 1) fuel
      return (word :: words, i)
    | ')' :: _ => return ([word], i.advance 1)
    | _ => unexpected i "word".toList

/-- Reads the arms of a selection. -/
def readArms (i : Input) : Nat → Except Fault (List (List (List Part) × Command) × Input)
  | 0 => endedEarly i
  | fuel + 1 => do
    let i := i.skipLines
    if i.peekPlain = "esac".toList then return ([], i.advance 4)
    else
      let i := if i.rest.head? = some '(' then i.advance 1 else i
      let (patterns, i) ← readPatterns i fuel
      let (body, i) ← readList [";;".toList, "esac".toList] i fuel
      let i := i.skipLines
      let i := if Text.opens ";;".toList i.rest then i.advance 2 else i
      let (arms, i) ← readArms i fuel
      return ((patterns, body) :: arms, i)

/-- Reads one command. -/
def readCommand (i : Input) : Nat → Except Fault (Command × Input)
  | 0 => endedEarly i
  | fuel + 1 => do
    let i := i.skip
    let word := i.peekPlain
    if word = "if".toList then
      let (c, i) ← readChoice (i.advance 2) fuel
      grouped c i fuel
    else if word = "while".toList || word = "until".toList then
      let (condition, i) ← readList ["do".toList] (i.advance 5) fuel
      let (body, i) ← readBody i fuel
      grouped (.loop (word = "until".toList) condition body) i fuel
    else if word = "for".toList then
      let i := (i.advance 3).skip
      let name := i.peekPlain
      if !isName name then .error ⟨i.line, "Syntax error: Bad for loop variable".toList⟩
      let i := (i.advance name.length).skipLines
      let (words, i) ←
        if i.peekPlain = "in".toList then do
          let (words, i) ← readWords (i.advance 2) fuel
          pure (some words, i)
        else pure (none, i)
      let i := if i.rest.head? = some ';' then i.advance 1 else i
      let (body, i) ← readBody i fuel
      grouped (.forEach name words body) i fuel
    else if word = "case".toList then
      let (word, i) ← readParts .word (i.advance 4).skip fuel
      let i ← expectWord i "in"
      let (arms, i) ← readArms i fuel
      grouped (.select word arms) i fuel
    else if word = "\x7b".toList then
      let (body, i) ← readList ["\x7d".toList] (i.advance 1) fuel
      let i ← expectWord i "\x7d"
      grouped body i fuel
    else if closers.contains word then unexpected i ('"' :: word ++ ['"'])
    else match i.rest with
      | '(' :: _ =>
        let (body, i) ← readList [")".toList] (i.advance 1) fuel
        let (rs, i) ← readRedirections (← expectParenthesis i) fuel
        return (.subshell body rs, i)
      | [] => endedEarly i
      | c :: _ =>
        if endsWord c && c != '<' && c != '>' then unexpected i ('"' :: c :: ['"'])
        else if isName word && Text.opens "()".toList (i.advance word.length).skip.rest then
          let (body, i) ← readCommand ((i.advance word.length).skip.advance 2).skipLines fuel
          return (.define word body, i)
        else readSimple true i.line i fuel

/-- A command with the redirections after it. -/
def grouped (c : Command) (i : Input) : Nat → Except Fault (Command × Input)
  | 0 => endedEarly i
  | fuel + 1 => do
    match ← readRedirections i fuel with
    | ([], i) => return (c, i)
    | (rs, i) => return (.group c rs, i)

/-- Reads the further commands of a pipeline. -/
def readPiped (i : Input) : Nat → Except Fault (List Command × Input)
  | 0 => endedEarly i
  | fuel + 1 => do
    let i := i.skip
    match i.rest with
    | '|' :: '|' :: _ => return ([], i)
    | '|' :: _ =>
      let (c, i) ← readCommand (i.advance 1).skipLines fuel
      let (cs, i) ← readPiped i fuel
      return (c :: cs, i)
    | _ => return ([], i)

/-- Reads a pipeline. -/
def readPipeline (i : Input) : Nat → Except Fault (Command × Input)
  | 0 => endedEarly i
  | fuel + 1 => do
    let i := i.skip
    let negated := i.peekPlain = ['!']
    let (c, i) ← readCommand (if negated then i.advance 1 else i) fuel
    let (cs, i) ← readPiped i fuel
    if cs.isEmpty && !negated then return (c, i)
    else return (.pipeline negated (c :: cs), i)

/-- Reads the pipelines that are joined to one read before. -/
def readJoined (first : Command) (i : Input) : Nat → Except Fault (Command × Input)
  | 0 => endedEarly i
  | fuel + 1 => do
    let i := i.skip
    match i.rest with
    | '&' :: '&' :: _ =>
      let (second, i) ← readPipeline (i.advance 2).skipLines fuel
      readJoined (.joined .andThen first second) i fuel
    | '|' :: '|' :: _ =>
      let (second, i) ← readPipeline (i.advance 2).skipLines fuel
      readJoined (.joined .orElse first second) i fuel
    | _ => return (first, i)

/-- Reads commands up to one of the given closing words, which is not taken. -/
def readList (stops : List Text) (i : Input) : Nat → Except Fault (Command × Input)
  | 0 => endedEarly i
  | fuel + 1 => do
    let i := i.skipLines
    let closed := stops.any (Text.opens · i.rest) && i.peekPlain.isEmpty
    if i.rest.isEmpty || closers.contains i.peekPlain || closed then return (.sequence [], i)
    else
      let (first, i) ← readPipeline i fuel
      let (c, i) ← readJoined first i fuel
      let i := i.skip
      let i := match i.rest with
        | ';' :: ';' :: _ => i
        | ';' :: _ => i.advance 1
        | '&' :: _ => i.advance 1
        | _ => i
      let (rest, i) ← readList stops i fuel
      match rest with
      | .sequence cs => return (.sequence (c :: cs), i)
      | rest => return (.sequence [c, rest], i)

end

-- ---------------------------------------------------------------------------
-- Complete commands
-- ---------------------------------------------------------------------------

/-- Reads the commands on one line, or on as many lines as they need. -/
def readLine (i : Input) (fuel : Nat) : Nat → Except Fault (List Command × Input)
  | 0 => .ok ([], i)
  | more + 1 => do
    let i := i.skip
    match i.rest with
    | [] => return ([], i)
    | '\n' :: _ => return ([], i.advance 1)
    | _ =>
      let (first, i) ← readPipeline i fuel
      let (c, i) ← readJoined first i fuel
      let i := i.skip
      match i.rest with
      | [] => return ([c], i)
      | '\n' :: _ => return ([c], i.advance 1)
      | x :: after =>
        if (x = ';' || x = '&') && after.head? != some ';' then
          let (cs, i) ← readLine (i.advance 1) fuel more
          return (c :: cs, i)
        else unexpected i ('"' :: x :: ['"'])

/-- Reads the next complete command of a script, or nothing at its end. -/
def readNext (i : Input) : Except Fault (Option Command × Input) :=
  let i := i.skipLines
  if i.rest.isEmpty then .ok (none, i)
  else match readLine i (16 * i.rest.length + 64) (i.rest.length + 1) with
    | .error fault => .error fault
    | .ok (cs, i) => .ok (some (.sequence cs), i)

end Shell

end Sandscript
