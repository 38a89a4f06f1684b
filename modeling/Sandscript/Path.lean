import Sandscript.Text.Basic

/-!
# Paths

A path is a text; nothing here looks at a file system. Parts are separated by `/`, and empty parts
and `.` say nothing, except that a path may be anchored: at the root, or at a leading `.`.

* `join` puts one path after another, an absolute one replaces what stands before it;
* `parent?`, `fileName?` and `extension?` take a path apart at its last part;
* `resolve` folds `..` into the name before it. Where there is no name to fold it into, the `..`
  stays, and a further `..` takes it away again.
-/

namespace Sandscript

/-- A path as it is written. -/
structure Path where
  text : Text
deriving DecidableEq, Repr

namespace Path

/-- The path written by a string. -/
def ofString (s : String) : Path := ⟨s.toList⟩

-- ---------------------------------------------------------------------------
-- Parts
-- ---------------------------------------------------------------------------

/-- What holds a path at its front. -/
inductive Anchor where
  /-- Nothing: the path is relative and starts with a name or `..`. -/
  | none
  /-- A leading `.`. -/
  | here
  /-- A leading `/`. -/
  | root
deriving DecidableEq, Repr

/-- The written form of an anchor. -/
def Anchor.text : Anchor → Text
  | .none => []
  | .here => ['.']
  | .root => ['/']

/-- A path's anchor and the text after it. -/
def anchored (p : Path) : Anchor × Text :=
  match p.text with
  | '/' :: body => (.root, body)
  | ['.'] => (.here, [])
  | '.' :: '/' :: body => (.here, '/' :: body)
  | body => (.none, body)

/-- A part that names nothing. -/
def isEmptyPart (part : Text) : Bool := part.isEmpty || part == ['.']

/-- The names and `..` of a path, in order. -/
def names (p : Path) : List Text :=
  (Text.split '/' p.anchored.2).filter (!isEmptyPart ·)

/-- An absolute path starts at the root. -/
def isAbsolute (p : Path) : Bool := p.anchored.1 == .root

-- ---------------------------------------------------------------------------
-- Putting together
-- ---------------------------------------------------------------------------

/-- One path after another. An absolute second path stands alone; otherwise a `/` divides them
unless the first is empty or ends with one. -/
def join (p q : Path) : Path :=
  if q.isAbsolute then q
  else if p.text.isEmpty || p.text.getLast? = some '/' then ⟨p.text ++ q.text⟩
  else ⟨p.text ++ '/' :: q.text⟩

/-- A name in the directory `p`. -/
def child (p : Path) (name : String) : Path := p.join (.ofString name)

-- ---------------------------------------------------------------------------
-- Taking apart
-- ---------------------------------------------------------------------------

/-- Parts without the empty ones at their end. -/
def dropEmptyEnd (parts : List Text) : List Text := (parts.reverse.dropWhile isEmptyPart).reverse

/-- The path without its last part; the root and the empty path have none. -/
def parent? (p : Path) : Option Path :=
  let (anchor, body) := p.anchored
  match (dropEmptyEnd (Text.split '/' body)).reverse with
  | [] => if anchor = .here then some ⟨[]⟩ else none
  | _ :: before => some ⟨anchor.text ++ Text.join ['/'] (dropEmptyEnd before.reverse)⟩

/-- The last part, if it is a name. -/
def fileName? (p : Path) : Option Text :=
  match p.names.getLast? with
  | some name => if name = ['.', '.'] then none else some name
  | none => none

/-- What follows the last dot of the last name, if something stands before that dot. -/
def extension? (p : Path) : Option Text :=
  match p.fileName? with
  | none => none
  | some name =>
    match (Text.split '.' name).reverse with
    | last :: stem =>
      if stem.isEmpty || stem = [[]] then none else some last
    | [] => none

/-- Whether the path starts with the part `.`. -/
def startsHere (p : Path) : Bool := p.anchored.1 == .here

/-- The parents of a path from the nearest on, at most `fuel` of them. -/
def parents (p : Path) : Nat → List Path
  | 0 => []
  | fuel + 1 => match p.parent? with
    | none => []
    | some q => q :: q.parents fuel

/-- The path itself and all its parents, nearest first. Each parent has fewer characters than the
path, so their number is bounded by the path's length. -/
def ancestors (p : Path) : List Path := p :: p.parents (p.text.length + 1)

-- ---------------------------------------------------------------------------
-- Resolving
-- ---------------------------------------------------------------------------

/-- Adds one part to resolved parts: `..` takes the last part away, and stays if there is none. -/
def resolvePart (done : List Text) (part : Text) : List Text :=
  if part = ['.', '.'] then
    if done.isEmpty then [part] else done.dropLast
  else done ++ [part]

/-- The resolved parts of a path. -/
def resolvedNames (p : Path) : List Text := p.names.foldl resolvePart []

/-- The path with every `.` dropped and every `..` folded into the part before it. -/
def resolve (p : Path) : Path :=
  let body := Text.join ['/'] p.resolvedNames
  if p.isAbsolute then ⟨'/' :: body⟩ else ⟨body⟩

end Path

end Sandscript
