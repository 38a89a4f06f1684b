import Sandscript.Failure
import Sandscript.Text.Utf8

/-!
# Disks

A disk is a finite map from locations to entries. A location is the list of names from the root
down; an entry is a file, a directory or a symbolic link. The map is flat, so what an operation
leaves alone can be said location by location.

A path is turned into a location by `Disk.walk`, which follows links, takes `..` for the directory
above, and insists that whatever it passes through is a directory. The operations then answer what
an operating system answers, with the same errors.
-/

namespace Sandscript

/-- A place on a disk: the names from the root down. -/
abbrev Location := List Text

/-- What can be at a location. -/
inductive Entry where
  | file (bytes : Bytes) (executable : Bool)
  | directory
  | link (target : Path)
deriving DecidableEq, Repr

/-- The entries of a disk, other than its root. -/
structure Disk where
  entries : List (Location × Entry)
deriving Repr

/-- The path of a location. -/
def Location.toPath (l : Location) : Path := ⟨'/' :: Text.join ['/'] l⟩

namespace Disk

-- ---------------------------------------------------------------------------
-- The map
-- ---------------------------------------------------------------------------

/-- A disk with nothing but its root. -/
def empty : Disk := ⟨[]⟩

/-- The entry at a location. The root is a directory. -/
def get? (d : Disk) : Location → Option Entry
  | [] => some .directory
  | l => d.entries.lookup l

/-- Puts an entry at a location, in place of the one there. -/
def insert (d : Disk) (l : Location) (e : Entry) : Disk :=
  ⟨(l, e) :: d.entries.filter (·.1 != l)⟩

/-- Removes a location and everything below it. -/
def prune (d : Disk) (l : Location) : Disk := ⟨d.entries.filter (!l.isPrefixOf ·.1)⟩

/-- The order in which names are listed. -/
def nameLe : Text → Text → Bool
  | [], _ => true
  | _ :: _, [] => false
  | c :: a, d :: b => if c = d then nameLe a b else c.toNat < d.toNat

/-- The names directly below a location, in order. -/
def names (d : Disk) (l : Location) : List Text :=
  let below := d.entries.filterMap fun (place, _) =>
    match l.isPrefixOf? place with
    | some [name] => some name
    | _ => none
  below.mergeSort nameLe

-- ---------------------------------------------------------------------------
-- From paths to locations
-- ---------------------------------------------------------------------------

/-- The steps that a path asks for. A `/` at the end asks for a directory, as a final `.` does. -/
def steps (p : Path) : List Text :=
  let parts := Text.split '/' p.text
  let named := parts.filter (!·.isEmpty)
  if !named.isEmpty && (parts.getLast?.getD []).isEmpty then named ++ [['.']] else named

/-- How many bytes a name may have. -/
def nameLimit : Nat := 255

/-- How many links are followed on one walk. -/
def linkLimit : Nat := 40

/-- Walks from a location along steps. Links are followed, the last one only if `followLast` says
so. The place where the walk ends need not exist, but all before it does. -/
def walk (d : Disk) (followLast : Bool) (links : Nat) (at_ : Location) :
    List Text → Except IoError Location
  | [] => .ok at_
  | step :: rest =>
    match d.get? at_ with
    | none => .error .notFound
    | some (.file _ _) | some (.link _) => .error .notDirectory
    | some .directory =>
      if step = ['.'] then walk d followLast links at_ rest
      else if step = ['.', '.'] then walk d followLast links at_.dropLast rest
      else if (Utf8.encode step).length > nameLimit then .error .nameTooLong
      else match d.get? (at_ ++ [step]) with
        | none => if rest.isEmpty then .ok (at_ ++ [step]) else .error .notFound
        | some (.link target) =>
          if rest.isEmpty && !followLast then .ok (at_ ++ [step])
          else match links with
            | 0 => .error .tooManyLinks
            | left + 1 =>
              walk d followLast left (if target.isAbsolute then [] else at_) (steps target ++ rest)
        | some _ => walk d followLast links (at_ ++ [step]) rest
termination_by steps => (links, steps.length)

/-- The location of a path that is taken from a base. -/
def locate (d : Disk) (followLast : Bool) (base : Location) (p : Path) : Except IoError Location :=
  if p.text.isEmpty then .error .notFound
  else if p.text.contains '\x00' then .error .zeroInName
  else d.walk followLast linkLimit (if p.isAbsolute then [] else base) (steps p)

/-- The location and the entry of a path. -/
def find (d : Disk) (followLast : Bool) (base : Location) (p : Path) :
    Except IoError (Location × Entry) :=
  match d.locate followLast base p with
  | .error e => .error e
  | .ok l =>
    match d.get? l with
    | none => .error .notFound
    | some e => .ok (l, e)

-- ---------------------------------------------------------------------------
-- Looking
-- ---------------------------------------------------------------------------

/-- A path leads to a file. -/
def isFile (d : Disk) (base : Location) (p : Path) : Bool :=
  match d.find true base p with
  | .ok (_, .file _ _) => true
  | _ => false

/-- A path leads to a directory. -/
def isDirectory (d : Disk) (base : Location) (p : Path) : Bool :=
  match d.find true base p with
  | .ok (_, .directory) => true
  | _ => false

/-- A path leads to something. -/
def isPresent (d : Disk) (base : Location) (p : Path) : Bool := (d.find true base p).isOk

/-- The contents of the file that a path leads to. -/
def readFile (d : Disk) (base : Location) (p : Path) : Except IoError Bytes :=
  match d.find true base p with
  | .error e => .error e
  | .ok (_, .file bytes _) => .ok bytes
  | .ok (_, .directory) => .error .isDirectory
  | .ok (_, .link _) => .error .tooManyLinks

/-- The target of the link at a path. -/
def readLink (d : Disk) (base : Location) (p : Path) : Except IoError Path :=
  match d.find false base p with
  | .error e => .error e
  | .ok (_, .link target) => .ok target
  | .ok _ => .error .invalidArgument

-- ---------------------------------------------------------------------------
-- Changing
-- ---------------------------------------------------------------------------

/-- A path without the `/` at its end, and whether it had one. -/
def splitSlash (p : Path) : Path × Bool :=
  let body := (p.text.reverse.dropWhile (· == '/')).reverse
  if body.isEmpty then (p, false) else (⟨body⟩, body.length < p.text.length)

/-- Makes a directory at a path that leads nowhere yet. -/
def makeDirectory (d : Disk) (base : Location) (p : Path) : Except IoError Disk :=
  match d.locate false base (splitSlash p).1 with
  | .error e => .error e
  | .ok l => if (d.get? l).isSome then .error .alreadyExists else .ok (d.insert l .directory)

/-- Makes the first of the given directories; the others are the ones above it, from the nearest
on, and are made only if one is missing. Those that have been made stay, even if the first one
cannot be. -/
def makeFrom (d : Disk) (base : Location) : List Path → Except IoError Unit × Disk
  | [] => (.error .notFound, d)
  | p :: above =>
    if p.text.isEmpty then (.ok (), d)
    else match d.makeDirectory base p with
      | .ok d => (.ok (), d)
      | .error e =>
        if e = .notFound then
          match d.makeFrom base above with
          | (.error e, d) => (.error e, d)
          | (.ok _, d) =>
            match d.makeDirectory base p with
            | .ok d => (.ok (), d)
            | .error e => (if d.isDirectory base p then .ok () else .error e, d)
        else (if d.isDirectory base p then .ok () else .error e, d)

/-- Makes a directory and whatever is missing above it, and answers with the disk after that. -/
def makeAll (d : Disk) (base : Location) (p : Path) : Except IoError Unit × Disk :=
  d.makeFrom base p.ancestors

/-- The disk once a directory and whatever was missing above it is made. -/
def makeDirectories (d : Disk) (base : Location) (p : Path) : Except IoError Disk :=
  let (result, disk) := d.makeAll base p
  result.map fun _ => disk

/-- Makes a link at a path that leads nowhere yet. -/
def makeLink (d : Disk) (base : Location) (target p : Path) : Except IoError Disk :=
  let (p, slash) := splitSlash p
  match d.locate false base p with
  | .error e => .error e
  | .ok l =>
    if target.text.contains '\x00' then .error .zeroInName
    else if target.text.isEmpty then .error .notFound
    else if (d.get? l).isSome then .error .alreadyExists
    else if slash then .error .notFound
    else .ok (d.insert l (.link target))

/-- Opens a file for writing: the location, and whether the file may be executed. A file that is
missing is made; links are followed. -/
def openForWriting (d : Disk) (base : Location) (p : Path) : Except IoError (Location × Bool) :=
  let (body, slash) := splitSlash p
  match d.locate true base body with
  | .error e => .error e
  | .ok l =>
    match d.get? l with
    | some .directory => .error .isDirectory
    | some (.link _) => .error .tooManyLinks
    | some (.file _ executable) => if slash then .error .notDirectory else .ok (l, executable)
    | none => if slash then .error .isDirectory else .ok (l, false)

/-- Writes a file. -/
def writeFile (d : Disk) (base : Location) (p : Path) (bytes : Bytes) : Except IoError Disk :=
  match d.openForWriting base p with
  | .error e => .error e
  | .ok (l, executable) => .ok (d.insert l (.file bytes executable))

/-- Says whether the file at a path may be executed. -/
def setExecutable (d : Disk) (base : Location) (p : Path) (executable : Bool) :
    Except IoError Disk :=
  match d.find true base p with
  | .error e => .error e
  | .ok (l, .file bytes _) => .ok (d.insert l (.file bytes executable))
  | .ok _ => .ok d

/-- Copies a file with its mode. The destination is emptied before anything is copied, so a file
that is copied onto itself ends empty. -/
def copyFile (d : Disk) (base : Location) (source target : Path) : Except IoError Disk :=
  match d.find true base source with
  | .error e => .error e
  | .ok (l, .file _ executable) =>
    match d.openForWriting base target with
    | .error e => .error e
    | .ok (l', _) =>
      let emptied := d.insert l' (.file [] executable)
      match emptied.get? l with
      | some (.file bytes _) => .ok (d.insert l' (.file bytes executable))
      | _ => .ok emptied
  | .ok _ => .error .notRegularFile

/-- Makes a link with the same target as another one. -/
def copyLink (d : Disk) (base : Location) (source target : Path) : Except IoError Disk :=
  match d.readLink base source with
  | .error e => .error e
  | .ok pointee => d.makeLink base pointee target

/-- Removes what is at a path; a link is removed and not followed. -/
def removeTree (d : Disk) (base : Location) (p : Path) : Except IoError Disk :=
  match d.find false base p with
  | .error e => .error e
  | .ok (l, _) => .ok (d.prune l)

-- ---------------------------------------------------------------------------
-- Trees
-- ---------------------------------------------------------------------------

/-- The kinds of entries, as a listing tells them. -/
inductive Kind where
  | file
  | directory
  | link
  /-- The entry, or what a directory holds, could not be read. -/
  | unread (cause : IoError)
deriving DecidableEq, Repr

/-- The kind of an entry. -/
def kind : Entry → Kind
  | .file _ _ => .file
  | .directory => .directory
  | .link _ => .link

/-- An entry of a tree: the names that lead to it from the top, and its kind. -/
structure Item where
  names : List Text
  kind : Kind
deriving DecidableEq, Repr

/-- The entries below a location, each directory before what it holds. The depth bounds how far
down the tree is followed. -/
def itemsBelow (d : Disk) (l : Location) (top : List Text) : Nat → List Item
  | 0 => []
  | depth + 1 =>
    (d.names l).flatMap fun name =>
      match d.get? (l ++ [name]) with
      | none => []
      | some e =>
        let here : Item := ⟨top ++ [name], kind e⟩
        match e with
        | .directory => here :: d.itemsBelow (l ++ [name]) (top ++ [name]) depth
        | _ => [here]

/-- No location of the disk lies deeper than this. -/
def depth (d : Disk) : Nat := (d.entries.map (·.1.length)).foldl max 0

/-- The tree at a path, its top first. Links in it are not followed; a top that is a link counts as
one, but what it leads to is listed. -/
def tree (d : Disk) (base : Location) (p : Path) : List Item :=
  match d.find false base p with
  | .error _ => []
  | .ok (l, .directory) => ⟨[], .directory⟩ :: d.itemsBelow l [] (d.depth + 1)
  | .ok (_, .file _ _) => [⟨[], .file⟩]
  | .ok (_, .link _) =>
    ⟨[], .link⟩ :: match d.find true base p with
      | .ok (l, .directory) => d.itemsBelow l [] (d.depth + 1)
      | _ => []

end Disk

end Sandscript
