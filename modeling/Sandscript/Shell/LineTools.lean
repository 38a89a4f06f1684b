import Sandscript.Shell.Regex
import Sandscript.Shell.Tool

/-!
# Tools for lines

The tools that read lines and write some of them, changed or in another order.
-/

namespace Sandscript

namespace Shell

/-- The lines of all named files, and the effect with the complaints about those that are missing.
-/
def gatherLines (c : Call) (files : List Text) : List Text × Effect :=
  let (got, e) := gather c c.start files
  (got.flatMap fun (_, bytes) => linesOf (ofBytes bytes), e)

/-- Splits words into the value of a count option and the other words: `-n 5`, `-n5` and `-5`. -/
def countOption (letter : Char) : List Text → Option Text × List Text
  | [] => (none, [])
  | ['-', x] :: value :: rest =>
    if x = letter then (some value, rest)
    else
      let (found, others) := countOption letter (value :: rest)
      (found, ['-', x] :: others)
  | word :: rest =>
    let (found, others) := countOption letter rest
    match word with
    | '-' :: x :: value =>
      if x = letter then (some value, others)
      else if x.isDigit && letter = 'n' then (some (x :: value), others)
      else (found, word :: others)
    | _ => (found, word :: others)

/-- Shows the first lines or bytes. -/
def head : Tool := fun c =>
  let (bytes?, words) := countOption 'c' c.words
  let (lines?, files) := countOption 'n' words
  let (got, e) := gather c c.start files
  got.foldl (fun e (name, bytes) =>
    let e := if got.length > 1 then e.print ("==> ".toList ++ name ++ " <==\n".toList) else e
    match bytes?.bind decimal? with
    | some n => e.write (bytes.take n)
    | none =>
      let ls := keptLines (ofBytes bytes)
      e.print (ls.take ((lines?.bind decimal?).getD 10)).flatten) e

/-- Shows the last lines or bytes. -/
def tail : Tool := fun c =>
  let (bytes?, words) := countOption 'c' c.words
  let (lines?, files) := countOption 'n' words
  let (got, e) := gather c c.start files
  got.foldl (fun e (_, bytes) =>
    match bytes?.bind decimal? with
    | some n => e.write (bytes.drop (bytes.length - n))
    | none =>
      let ls := keptLines (ofBytes bytes)
      match lines? with
      | some ('+' :: n) => e.print (ls.drop ((decimal? n).getD 1 - 1)).flatten
      | _ => e.print (ls.drop (ls.length - (lines?.bind decimal?).getD 10)).flatten) e

/-- The number that a line starts with. -/
def leadingNumber (t : Text) : Int :=
  let t := t.dropWhile fun c => c == ' ' || c == '\t'
  match t with
  | '-' :: ds => -((decimal? (ds.takeWhile Char.isDigit)).getD 0 : Nat)
  | ds => (decimal? (ds.takeWhile Char.isDigit)).getD 0

/-- Lines without those that equal the one before. -/
def dropRepeated : List Text → List Text
  | a :: b :: rest => if a = b then dropRepeated (b :: rest) else a :: dropRepeated (b :: rest)
  | ls => ls

/-- Sorts lines by their bytes, or by the numbers they start with. -/
def sort : Tool := fun c =>
  let (letters, files) := c.options
  let (ls, e) := gatherLines c files
  let le := fun (a b : Text) =>
    if letters.contains 'n' then
      let x := leadingNumber a
      let y := leadingNumber b
      x < y || (x == y && Disk.nameLe a b)
    else Disk.nameLe a b
  let sorted := ls.mergeSort le
  let sorted := if letters.contains 'r' then sorted.reverse else sorted
  e.print (unlinesOf (if letters.contains 'u' then dropRepeated sorted else sorted))

/-- Lines with the number of times that each follows itself. -/
def countRepeated : List Text → List (Nat × Text)
  | [] => []
  | a :: rest =>
    match countRepeated rest with
    | (n, b) :: more => if a = b then (n + 1, b) :: more else (1, a) :: (n, b) :: more
    | [] => [(1, a)]

/-- Drops repeated lines. -/
def uniq : Tool := fun c =>
  let (letters, files) := c.options
  let (ls, e) := gatherLines c files
  if letters.contains 'c' then
    e.print (unlinesOf ((countRepeated ls).map fun (n, l) =>
      let count := Text.ofNat n
      List.replicate (7 - count.length) ' ' ++ count ++ [' '] ++ l))
  else e.print (unlinesOf (dropRepeated ls))

/-- The number of words in a text. -/
def countWords (t : Text) : Nat :=
  ((Text.split ' ' (t.map fun c => if inClass "space".toList c then ' ' else c)).filter
    (!·.isEmpty)).length

/-- Counts lines, words and bytes. -/
def wc : Tool := fun c =>
  let (letters, files) := c.options
  let letters := if letters.isEmpty then ['l', 'w', 'c'] else letters
  let (got, e) := gather c c.start files
  let counts := fun (bytes : Bytes) =>
    let t := ofBytes bytes
    (if letters.contains 'l' then [t.count '\n'] else []) ++
      (if letters.contains 'w' then [countWords t] else []) ++
      (if letters.contains 'c' || letters.contains 'm' then [bytes.length] else [])
  let width := if letters.length ≤ 1 then 1 else if files.isEmpty then 7
    else (got.map fun (_, bytes) => (Text.ofNat bytes.length).length).foldl max 1
  let row := fun (ns : List Nat) (name : Text) =>
    let cells := ns.map fun n =>
      let t := Text.ofNat n
      List.replicate (width - t.length) ' ' ++ t
    Text.join [' '] cells ++ (if files.isEmpty then [] else ' ' :: name)
  let e := got.foldl (fun e (name, bytes) => e.printLine (row (counts bytes) name)) e
  if got.length > 1 then
    let all := got.flatMap fun (_, bytes) => bytes
    e.printLine (row (counts all) "total".toList)
  else e

/-- Shows the lines that a pattern matches. -/
def grep : Tool := fun c =>
  let (letters, operands) := c.options
  match operands with
  | [] => c.start.failWith 2 c "usage: grep [OPTION]... PATTERNS [FILE]...".toList
  | pattern :: files =>
    let fold := fun (t : Text) => if letters.contains 'i' then t.map Char.toLower else t
    let wanted := fold pattern
    let regex := toRegex wanted
    let holds := fun (line : Text) =>
      let line := fold line
      let found := if letters.contains 'F' then Text.occursIn wanted line
        else if letters.contains 'x' then
          match matchHere regex true line with
          | some m => m.rest.isEmpty
          | none => false
        else matchesIn regex line
      found != letters.contains 'v'
    let (got, e) := gather c c.start files
    let failed := e.status
    let e := { e with status := if failed = 0 then 1 else 2 }
    got.foldl (fun e (name, bytes) =>
      let numbered := (linesOf (ofBytes bytes)).zipIdx 1
      let hits := numbered.filter fun (line, _) => holds line
      let label := if files.length > 1 && !letters.contains 'h' then name ++ [':'] else []
      let e := if hits.isEmpty || failed != 0 then e else { e with status := 0 }
      if letters.contains 'q' then e
      else if letters.contains 'l' then if hits.isEmpty then e else e.printLine name
      else if letters.contains 'c' then e.printLine (label ++ Text.ofNat hits.length)
      else e.print (unlinesOf (hits.map fun (line, n) =>
        label ++ (if letters.contains 'n' then Text.ofNat n ++ [':'] else []) ++ line))) e

-- ---------------------------------------------------------------------------
-- Editing
-- ---------------------------------------------------------------------------

/-- Which line an editing command is about. -/
inductive Address where
  | number (n : Nat)
  | last
  | matching (regex : List Regex)

/-- What an editing command does with a line. -/
inductive Edit where
  | display
  | delete
  | quit
  | number
  | substitute (regex : List Regex) (replacement : Text) (all shows : Bool)

/-- An editing command with its addresses: none for every line, two for a range. -/
structure Editing where
  addresses : List Address
  negated : Bool
  edit : Edit

/-- Text up to a delimiter that no backslash stands before and no brackets hold, and what follows;
a backslash before the delimiter is dropped. -/
def takeDelimited (delimiter : Char) (inBrackets : Bool) : Text → Option (Text × Text)
  | [] => none
  | '\\' :: c :: rest =>
    (takeDelimited delimiter inBrackets rest).map fun (t, after) =>
      (if c = delimiter then c :: t else '\\' :: c :: t, after)
  | c :: rest =>
    if c = delimiter && !inBrackets then some ([], rest)
    else
      let inside := if c = '[' then true else if c = ']' then false else inBrackets
      (takeDelimited delimiter inside rest).map fun (t, after) => (c :: t, after)

/-- Reads an address. -/
def readAddress (t : Text) : Option (Address × Text) :=
  match t with
  | '$' :: rest => some (.last, rest)
  | '/' :: rest => (takeDelimited '/' false rest).map fun (p, rest) => (.matching (toRegex p), rest)
  | _ =>
    let digits := t.takeWhile Char.isDigit
    (decimal? digits).map fun n => (.number n, t.drop digits.length)

/-- Reads addresses. -/
def readAddresses (t : Text) : List Address × Text :=
  match readAddress t with
  | none => ([], t)
  | some (a, ',' :: rest) =>
    match readAddress rest with
    | some (b, rest) => ([a, b], rest)
    | none => ([a], rest)
  | some (a, rest) => ([a], rest)

/-- Reads a substitution after its letter. -/
def readSubstitution (t : Text) : Option (Edit × Text) :=
  match t with
  | [] => none
  | delimiter :: rest => do
    let (pattern, rest) ← takeDelimited delimiter false rest
    let (replacement, rest) ← takeDelimited delimiter false rest
    let flags := rest.takeWhile fun c => c == 'g' || c == 'p'
    return (.substitute (toRegex pattern) replacement (flags.contains 'g') (flags.contains 'p'),
      rest.drop flags.length)

/-- Reads editing commands. -/
def readEditing (t : Text) : Nat → Option (List Editing)
  | 0 => none
  | fuel + 1 =>
    let t := t.dropWhile fun c => c == ';' || c == ' ' || c == '\n'
    if t.isEmpty then some []
    else
      let (addresses, t) := readAddresses t
      let t := t.dropWhile (· == ' ')
      let (negated, t) := match t with
        | '!' :: rest => (true, rest)
        | t => (false, t)
      let simple := fun (edit : Edit) (rest : Text) => some (edit, rest)
      let found := match t with
        | 'p' :: rest => simple .display rest
        | 'd' :: rest => simple .delete rest
        | 'q' :: rest => simple .quit rest
        | '=' :: rest => simple .number rest
        | 's' :: rest => readSubstitution rest
        | _ => none
      match found with
      | none => none
      | some (edit, rest) => (readEditing rest fuel).map (⟨addresses, negated, edit⟩ :: ·)

/-- A line under edit. -/
structure Edited where
  line : Text
  shown : Text := []
  deleted : Bool := false
  quits : Bool := false

/-- An address is about a line. -/
def Address.covers (line : Text) (n count : Nat) : Address → Bool
  | number m => m == n
  | last => n == count
  | matching regex => matchesIn regex line

/-- Whether a command is about a line, and whether its range is open after it. -/
def Editing.applies (x : Editing) (isOpen : Bool) (line : Text) (n count : Nat) : Bool × Bool :=
  let covers := fun (a : Address) => a.covers line n count
  let (hit, isOpen) := match x.addresses with
    | [] => (true, false)
    | [a] => (covers a, false)
    | a :: b :: _ =>
      if isOpen then (true, !covers b)
      else if covers a then
        let closed := match b with
          | .number m => decide (m ≤ n)
          | .last => n == count
          | .matching _ => false
        (true, !closed)
      else (false, false)
  (hit != x.negated, isOpen)

/-- Applies one edit to a line. -/
def Edit.apply (n : Nat) (e : Edited) : Edit → Edited
  | display => { e with shown := e.shown ++ e.line ++ ['\n'] }
  | delete => { e with deleted := true }
  | quit => { e with quits := true }
  | number => { e with shown := e.shown ++ Text.ofNat n ++ ['\n'] }
  | substitute regex replacement all shows =>
    match replace regex replacement all true e.line (e.line.length + 2) with
    | none => e
    | some line =>
      let shown := if shows then e.shown ++ line ++ ['\n'] else e.shown
      { e with line, shown }

/-- Runs all commands on a line; the open ranges go along. -/
def editLine (n count : Nat) (e : Edited) : List (Editing × Bool) → Edited × List (Editing × Bool)
  | [] => (e, [])
  | (x, isOpen) :: rest =>
    if e.deleted || e.quits then (e, (x, isOpen) :: rest)
    else
      let (hit, stillOpen) := x.applies isOpen e.line n count
      let e := if hit then x.edit.apply n e else e
      let (e, rest) := editLine n count e rest
      (e, (x, stillOpen) :: rest)

/-- Edits lines in order; `quiet` shows only what commands show. -/
def editLines (quiet : Bool) (count : Nat) (script : List (Editing × Bool)) (n : Nat) :
    List Text → Text
  | [] => []
  | line :: rest =>
    let (e, script) := editLine n count { line } script
    let kept := if quiet || e.deleted then [] else e.line ++ ['\n']
    e.shown ++ kept ++ (if e.quits then [] else editLines quiet count script (n + 1) rest)

/-- Takes the scripts out of the words of an editing call: whether it is quiet, the scripts, and the
files. -/
def editWords : List Text → Bool × List Text × List Text
  | [] => (false, [], [])
  | ['-', 'n'] :: rest =>
    let (_, scripts, files) := editWords rest
    (true, scripts, files)
  | ['-', 'e'] :: script :: rest =>
    let (quiet, scripts, files) := editWords rest
    (quiet, script :: scripts, files)
  | ['-', 'n', 'e'] :: script :: rest =>
    let (_, scripts, files) := editWords rest
    (true, script :: scripts, files)
  | word :: rest =>
    let (quiet, scripts, files) := editWords rest
    (quiet, scripts, word :: files)

/-- Edits lines. -/
def sed : Tool := fun c =>
  let (quiet, scripts, files) := editWords c.words
  let (script, files) := if scripts.isEmpty then (files.headD [], files.drop 1)
    else (Text.join ['\n'] scripts, files)
  match readEditing script (script.length + 1) with
  | none => c.start.complain c ("-e expression #1, char 1: unknown command: ".toList ++
      named (script.take 1))
  | some commands =>
    let (got, e) := files.foldl (fun (got, e) name =>
        match e.disk.readFile c.directory (toPath name) with
        | .ok bytes => (got ++ [(name, bytes)], e)
        | .error .isDirectory =>
          (got, e.failWith 4 c ("couldn't edit ".toList ++ name ++ ": not a regular file".toList))
        | .error cause =>
          (got, e.failWith 2 c ("can't read ".toList ++ name ++ ": ".toList ++ cause.phrase)))
      ([], c.start)
    let got := if files.isEmpty then [(['-'], c.input)] else got
    let ls := got.flatMap fun (_, bytes) => linesOf (ofBytes bytes)
    let text := editLines quiet ls.length (commands.map (·, false)) 1 ls
    -- a last line without a newline is written without one
    let unended := match got.getLast? with
      | some (_, bytes) => !bytes.isEmpty && bytes.getLast? != some 10
      | none => false
    let lastAlone := fun (lines : List Text) => editLines quiet 1 (commands.map (·, false)) 1 lines
    if unended && !(lastAlone (ls.drop (ls.length - 1))).isEmpty then e.print text.dropLast
    else e.print text

-- ---------------------------------------------------------------------------
-- Characters and fields
-- ---------------------------------------------------------------------------

/-- The characters that a set of `tr` stands for. -/
def charactersOf : Text → Text
  | '\\' :: 'n' :: rest => '\n' :: charactersOf rest
  | '\\' :: 't' :: rest => '\t' :: charactersOf rest
  | '\\' :: c :: rest => c :: charactersOf rest
  | a :: '-' :: b :: rest =>
    ((List.range (b.toNat + 1 - a.toNat)).map fun k => Char.ofNat (a.toNat + k)) ++
      charactersOf rest
  | c :: rest => c :: charactersOf rest
  | [] => []

/-- Replaces or drops characters. -/
def tr : Tool := fun c =>
  let (letters, sets) := c.options
  let input := ofBytes c.input
  match sets with
  | [drop] =>
    if letters.contains 'd' then
      let dropped := charactersOf drop
      c.start.print (input.filter fun x => !dropped.contains x)
    else c.start.complain c "missing operand".toList
  | [source, target] =>
    let old := charactersOf source
    let new := charactersOf target
    c.start.print (input.map fun x =>
      match old.idxOf? x with
      | some i => new.getD i (new.getLast?.getD x)
      | none => x)
  | _ => c.start.complain c "missing operand".toList

/-- Shows one field of each line. -/
def cut : Tool := fun c =>
  let (delimiter?, words) := countOption 'd' c.words
  let (field?, files) := countOption 'f' words
  let delimiter := ((delimiter?.getD ['\t']).headD '\t')
  let (ls, e) := gatherLines c files
  match field?.bind decimal? with
  | some n => e.print (unlinesOf (ls.map fun line =>
    let fields := Text.split delimiter line
    if fields.length ≤ 1 then line else fields.getD (n - 1) []))
  | none => e.complain c "you must specify a list of bytes, characters, or fields".toList

end Shell

end Sandscript
