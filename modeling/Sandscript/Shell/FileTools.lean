import Sandscript.Shell.Pattern
import Sandscript.Shell.Tool

/-!
# Tools for files

The tools that list, make, move and remove files. They take what they can from the operations of
`Disk` and add the wording of their complaints.
-/

namespace Sandscript

namespace Shell

/-- That something could not be done with a named file. -/
def couldNot (what name : Text) (cause : IoError) : Text :=
  what ++ [' '] ++ named name ++ ": ".toList ++ cause.phrase

/-- Complains that something could not be done with a named file. -/
def complainOf (c : Call) (e : Effect) (what name : Text) (cause : IoError) : Effect :=
  e.complain c (couldNot what name cause)

/-- Goes on with the disk after an operation, or complains. -/
def attempt (c : Call) (what name : Text) (e : Effect) (result : Except IoError Disk) : Effect :=
  match result with
  | .ok disk => { e with disk }
  | .error cause => complainOf c e what name cause

/-- The last part of a path without the slashes at its end. -/
def baseName (t : Text) : Text :=
  let body := (t.reverse.dropWhile (· == '/')).reverse
  if body.isEmpty then (if t.isEmpty then [] else ['/'])
  else (Text.split '/' body).getLast?.getD []

/-- A path without its last part. -/
def dirName (t : Text) : Text :=
  let strip := fun (t : Text) => (t.reverse.dropWhile (· == '/')).reverse
  let body := strip t
  if body.isEmpty then (if t.isEmpty then ['.'] else ['/'])
  else if !body.contains '/' then ['.']
  else
    let front := strip (Text.join ['/'] (Text.split '/' body).dropLast)
    if front.isEmpty then ['/'] else front

/-- A name in a directory. -/
def within (dir name : Text) : Text :=
  if dir.getLast? = some '/' then dir ++ name else dir ++ '/' :: name

/-- The place where a file goes: into the target if that is a directory. -/
def destination (c : Call) (disk : Disk) (source target : Text) : Text :=
  if disk.isDirectory c.directory (toPath target) then within target (baseName source) else target

/-- Does something for each operand in turn. -/
def forEachOperand (c : Call) (step : Effect → Text → Effect) : Effect :=
  c.options.2.foldl step c.start

-- ---------------------------------------------------------------------------
-- Making and removing
-- ---------------------------------------------------------------------------

/-- Makes directories. -/
def mkdir : Tool := fun c =>
  let parents := c.options.1.contains 'p'
  forEachOperand c fun e name =>
    let p := toPath name
    let made := if parents then e.disk.makeDirectories c.directory p
      else e.disk.makeDirectory c.directory p
    attempt c "cannot create directory".toList name e made

/-- Removes empty directories. -/
def rmdir : Tool := fun c => forEachOperand c fun e name =>
  let failed := complainOf c e "failed to remove".toList name
  match e.disk.find false c.directory (toPath name) with
  | .error cause => failed cause
  | .ok (l, .directory) =>
    if (e.disk.names l).isEmpty then { e with disk := e.disk.prune l }
    else failed .directoryNotEmpty
  | .ok _ => failed .notDirectory

/-- Removes files, and directories with all they hold if that is asked for. -/
def rm : Tool := fun c =>
  let letters := c.options.1
  let recursive := letters.contains 'r' || letters.contains 'R'
  let force := letters.contains 'f'
  forEachOperand c fun e name =>
    let failed := complainOf c e "cannot remove".toList name
    let last := baseName name
    if recursive && (last = ['.'] || last = ['.', '.']) then
      e.complain c ("refusing to remove '.' or '..' directory: skipping ".toList ++ named name)
    else match e.disk.find false c.directory (toPath name) with
      | .error cause =>
        if force && (cause = .notFound || cause = .notDirectory) then e else failed cause
      | .ok (l, .directory) =>
        if recursive then { e with disk := e.disk.prune l } else failed .isDirectory
      | .ok (l, _) => { e with disk := e.disk.prune l }

/-- Makes files that are missing. -/
def touch : Tool := fun c => forEachOperand c fun e name =>
  if e.disk.isPresent c.directory (toPath name) then e
  else attempt c "cannot touch".toList name e (e.disk.writeFile c.directory (toPath name) [])

/-- Makes links to a target; without `-s` the file gets a second copy. -/
def ln : Tool := fun c =>
  let (letters, operands) := c.options
  let symbolic := letters.contains 's'
  let what := if symbolic then "failed to create symbolic link".toList
    else "failed to create hard link".toList
  let one := fun (e : Effect) (target name : Text) =>
    let p := toPath name
    let disk := if letters.contains 'f' then
        match e.disk.find false c.directory p with
        | .ok (l, .file _ _) | .ok (l, .link _) => e.disk.prune l
        | _ => e.disk
      else e.disk
    let made := if symbolic then disk.makeLink c.directory (toPath target) p
      else if disk.isPresent c.directory p then .error .alreadyExists
      else disk.copyFile c.directory (toPath target) p
    attempt c what name e made
  match operands with
  | [target] => one c.start target (baseName target)
  | [target, name] =>
    let name := if letters.contains 'n' || letters.contains 'T' then name
      else destination c c.disk target name
    one c.start target name
  | _ => c.start.complain c "missing file operand".toList

/-- Whether a mode allows execution, if it says anything about it. -/
def modeExecutes? (mode : Text) : Option Bool :=
  if !mode.isEmpty && mode.all Char.isDigit then
    some (mode.any fun d => (d.toNat - '0'.toNat) % 2 == 1)
  else if mode.contains 'x' then some (!mode.contains '-')
  else none

/-- Changes whether files can be executed. -/
def chmod : Tool := fun c =>
  let words := c.words.filter fun w => w != ['-', 'R']
  match words with
  | mode :: files => files.foldl (fun e name =>
    match modeExecutes? mode with
    | some executable =>
      attempt c "cannot access".toList name e
        (e.disk.setExecutable c.directory (toPath name) executable)
    | none => e) c.start
  | [] => c.start.complain c "missing operand".toList

-- ---------------------------------------------------------------------------
-- Copying and moving
-- ---------------------------------------------------------------------------

/-- The disk with all that is at or below one location copied to another. -/
def copyTree (disk : Disk) (source target : Location) : Disk :=
  let copies := disk.entries.filterMap fun (l, e) =>
    (source.isPrefixOf? l).map fun below => (target ++ below, e)
  copies.foldl (fun d (l, e) => d.insert l e) disk

/-- Copies files, and directories with all they hold if that is asked for. -/
def cp : Tool := fun c =>
  let (letters, operands) := c.options
  let recursive := letters.any fun x => "rRa".toList.contains x
  match operands.getLast?, operands.dropLast with
  | some target, s :: sources => (s :: sources).foldl (fun e source =>
    let place := destination c e.disk source target
    match e.disk.find (!recursive) c.directory (toPath source) with
    | .error cause => complainOf c e "cannot stat".toList source cause
    | .ok (_, .file _ _) =>
      attempt c "cannot create regular file".toList place e
        (e.disk.copyFile c.directory (toPath source) (toPath place))
    | .ok (_, .link goal) =>
      attempt c "cannot create symbolic link".toList place e
        (e.disk.makeLink c.directory goal (toPath place))
    | .ok (l, .directory) =>
      if recursive then
        match e.disk.locate true c.directory (Disk.splitSlash (toPath place)).1 with
        | .ok l' => { e with disk := copyTree e.disk l l' }
        | .error cause => complainOf c e "cannot create directory".toList place cause
      else e.complain c ("-r not specified; omitting directory ".toList ++ named source)) c.start
  | _, _ => c.start.complain c "missing file operand".toList

/-- Moves files and directories. -/
def mv : Tool := fun c =>
  let operands := c.options.2
  match operands.getLast?, operands.dropLast with
  | some target, s :: sources => (s :: sources).foldl (fun e source =>
    let place := destination c e.disk source target
    match e.disk.find false c.directory (toPath source),
        e.disk.locate false c.directory (Disk.splitSlash (toPath place)).1 with
    | .error cause, _ => complainOf c e "cannot stat".toList source cause
    | .ok _, .error cause =>
      let message := "cannot move ".toList ++ named source ++ " to ".toList ++ named place
      e.complain c (message ++ ": ".toList ++ cause.phrase)
    | .ok (l, entry), .ok l' =>
      if l = l' then e.complain c (named source ++ " and ".toList ++ named place ++
        " are the same file".toList)
      else
        let moved := (copyTree (e.disk.prune l') l l').insert l' entry
        { e with disk := moved.prune l }) c.start
  | _, _ => c.start.complain c "missing file operand".toList

-- ---------------------------------------------------------------------------
-- Looking
-- ---------------------------------------------------------------------------

/-- Writes files one after another. -/
def cat : Tool := fun c =>
  let operands := c.options.2
  let files := if operands.isEmpty then [['-']] else operands
  files.foldl (fun e name =>
    let (got, e) := gather c e [name]
    got.foldl (fun e (_, bytes) => e.write bytes) e) c.start

/-- The names in a directory that a listing shows. -/
def shownNames (letters : List Char) (disk : Disk) (l : Location) : List Text :=
  let names := (disk.names l).map ofText
  let dots := if letters.contains 'a' then [['.'], ['.', '.']] else []
  let shown := if letters.contains 'a' || letters.contains 'A' then names
    else names.filter (·.head? != some '.')
  dots ++ shown.mergeSort Disk.nameLe

/-- Lists files by name, and the names in directories. -/
def ls : Tool := fun c =>
  let (letters, operands) := c.options
  let operands := (if operands.isEmpty then [['.']] else operands).mergeSort Disk.nameLe
  let found := operands.map fun name =>
    (name, c.disk.find true c.directory (toPath name))
  let missing := found.foldl (fun e (name, r) =>
    match r, c.disk.find false c.directory (toPath name) with
    | .error cause, .error _ => e.failWith 2 c (couldNot "cannot access".toList name cause)
    | _, _ => e) c.start
  let isDirectory := fun (r : Except IoError (Location × Entry)) =>
    match r with
    | .ok (l, .directory) => if letters.contains 'd' then none else some l
    | _ => none
  let files := found.filterMap fun (name, r) =>
    if (isDirectory r).isNone && (c.disk.find false c.directory (toPath name)).isOk then some name
    else none
  let directories := found.filterMap fun (name, r) => (isDirectory r).map (name, ·)
  let e := missing.print (unlinesOf files)
  let blocks := directories.map fun (name, l) =>
    (if operands.length > 1 then name ++ ":\n".toList else []) ++
      unlinesOf (shownNames letters c.disk l)
  let gap := if files.isEmpty || blocks.isEmpty then [] else ['\n']
  e.print (gap ++ Text.join ['\n'] blocks)

/-- What a search asks of the entries it shows. -/
structure Search where
  least : Nat := 0
  most : Option Nat := none
  tests : List (Text → Disk.Kind → Bool) := []
  negate : Bool := false

/-- Adds a test to a search. -/
def Search.add (s : Search) (test : Text → Disk.Kind → Bool) : Search :=
  let negated := s.negate
  { s with tests := s.tests ++ [fun t k => test t k != negated], negate := false }

/-- Reads what a search asks for; a word it does not know is given back. -/
def readSearch (s : Search) : List Text → Except Text Search
  | [] => .ok s
  | word :: rest =>
    match String.ofList word, rest with
    | "-print", rest => readSearch s rest
    | "!", rest | "-not", rest => readSearch { s with negate := !s.negate } rest
    | "-maxdepth", n :: rest => readSearch { s with most := decimal? n } rest
    | "-mindepth", n :: rest => readSearch { s with least := (decimal? n).getD 0 } rest
    | "-name", pattern :: rest =>
      let glob := toGlob (mark false pattern)
      readSearch (s.add fun t _ => globMatches glob (baseName t)) rest
    | "-path", pattern :: rest =>
      let glob := toGlob (mark false pattern)
      readSearch (s.add fun t _ => globMatches glob t) rest
    | "-type", kind :: rest =>
      readSearch (s.add fun _ k => match k with
        | .file => kind == ['f']
        | .directory => kind == ['d']
        | .link => kind == ['l']
        | .unread _ => false) rest
    | _, _ => .error word

/-- Lists the trees at some paths. -/
def find : Tool := fun c =>
  let startsTest := fun (w : Text) => w.head? = some '-' || w = ['!'] || w = ['(']
  let starts := c.words.takeWhile fun w => !startsTest w
  let starts := if starts.isEmpty then [['.']] else starts
  match readSearch {} (c.words.dropWhile fun w => !startsTest w) with
  | .error word => c.start.complain c ("unknown predicate ".toList ++ '`' :: word ++ ['\''])
  | .ok search => starts.foldl (fun e top =>
    match e.disk.find false c.directory (toPath top) with
    | .error cause => e.complain c (named top ++ ": ".toList ++ cause.phrase)
    | .ok (l, entry) =>
      let below := match entry with
        | .directory => e.disk.itemsBelow l [] (e.disk.depth + 1)
        | _ => []
      let items := (⟨[], Disk.kind entry⟩ : Disk.Item) :: below
      let shown := items.filterMap fun item =>
        let depth := item.names.length
        let path := item.names.foldl (fun p name => within p (ofText name)) top
        let deep := depth ≥ search.least && search.most.all fun most => depth ≤ most
        if deep && search.tests.all fun test => test path item.kind then some path else none
      e.print (unlinesOf shown)) c.start

/-- Shows where links lead. -/
def readlink : Tool := fun c =>
  let (letters, operands) := c.options
  let resolves := letters.contains 'f' || letters.contains 'e'
  operands.foldl (fun e name =>
    if resolves then
      match e.disk.locate true c.directory (toPath name) with
      | .ok l => e.printLine (ofText l.toPath.text)
      | .error _ => { e with status := 1 }
    else match e.disk.readLink c.directory (toPath name) with
      | .ok target => e.printLine (ofText target.text)
      | .error _ => { e with status := 1 }) c.start

/-- Shows the last part of a path, without an ending. -/
def basename : Tool := fun c =>
  match c.words with
  | [name] => c.start.printLine (baseName name)
  | [name, ending] =>
    let base := baseName name
    let cut := if Text.closes ending base && base != ending then
        base.take (base.length - ending.length)
      else base
    c.start.printLine cut
  | _ => c.start.complain c "missing operand".toList

/-- Shows a path without its last part. -/
def dirname : Tool := fun c => c.words.foldl (fun e name => e.printLine (dirName name)) c.start

end Shell

end Sandscript
