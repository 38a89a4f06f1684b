import Sandscript.Shell.Pattern
import Sandscript.Shell.State

/-!
# From words to fields

The expansion of a word gives atoms: characters, and marks that say where one field ends and the
next starts. `fields` gathers them into fields; a field that is a pattern of file names is then
replaced by the names it stands for.
-/

namespace Sandscript

namespace Shell

/-- What the expansion of a word is made of. -/
inductive Atom where
  | char (c : Char) (quoted : Bool)
  /-- There is a field here, even if no character follows. -/
  | here
  /-- A field that has started ends. -/
  | gap
  /-- A field ends, even if it has not started. -/
  | stop
deriving DecidableEq, Repr

/-- The blanks among the characters that separate fields. -/
def isWhite (c : Char) : Bool := c == ' ' || c == '\t' || c == '\n'

/-- The characters that separate fields. -/
def separators (s : State) : Text := (s.get? "IFS".toList).getD [' ', '\t', '\n']

/-- A value that is cut into fields where separators stand. -/
def splitValue (ifs value : Text) : List Atom := value.map fun c =>
  if !ifs.contains c then .char c false else if isWhite c then .gap else .stop

/-- A value as it stands. -/
def keepValue (value : Text) : List Atom := .here :: value.map (.char · true)

/-- A value, cut into fields or not. -/
def valueAtoms (s : State) (inQuotes : Bool) (value : Text) : List Atom :=
  if inQuotes then keepValue value else splitValue (separators s) value

/-- Several values, each at least one field of its own. -/
def eachAtoms (s : State) (inQuotes : Bool) (values : List Text) : List Atom :=
  (values.map (valueAtoms s inQuotes)).intersperse [.gap] |>.flatten

/-- Atoms whose unquoted separators end fields. -/
def resplit (ifs : Text) (atoms : List Atom) : List Atom := atoms.map fun
  | .char c false =>
    if !ifs.contains c then .char c false else if isWhite c then .gap else .stop
  | atom => atom

/-- Gathers fields: `current` is the field that has started, and `closed` says that a gap ended the
one before, so that a stop right after belongs to it. -/
def gatherFields (current : Option Marked) (closed : Bool) : List Atom → List Marked
  | [] => current.toList
  | .char c quoted :: rest => gatherFields (some (current.getD [] ++ [(c, quoted)])) false rest
  | .here :: rest => gatherFields (some (current.getD [])) false rest
  | .gap :: rest =>
    match current with
    | some field => field :: gatherFields none true rest
    | none => gatherFields none closed rest
  | .stop :: rest =>
    match current with
    | some field => field :: gatherFields none false rest
    | none => if closed then gatherFields none false rest else [] :: gatherFields none false rest

/-- The fields that atoms make. -/
def fields (atoms : List Atom) : List Marked := gatherFields none false atoms

/-- All atoms as one field. -/
def asOne (atoms : List Atom) : Marked := atoms.filterMap fun
  | .char c quoted => some (c, quoted)
  | .gap | .stop => some (' ', true)
  | .here => none

-- ---------------------------------------------------------------------------
-- File names
-- ---------------------------------------------------------------------------

/-- The parts of a marked text between slashes. -/
def markedParts : Marked → List Marked
  | [] => [[]]
  | (c, quoted) :: rest =>
    match c == '/', markedParts rest with
    | true, parts => [] :: parts
    | false, part :: parts => ((c, quoted) :: part) :: parts
    | false, [] => [[(c, quoted)]]

/-- The paths that match the parts of a pattern, with what is already known in front. -/
def globFrom (disk : Disk) (base : Location) (done : Text) : List Marked → List Text
  | [] => [done]
  | part :: rest =>
    let next := fun (name : Text) =>
      let path := done ++ name
      if rest.isEmpty then
        if (disk.find false base (toPath path)).isOk then [path] else []
      else globFrom disk base (path ++ ['/']) rest
    if isPattern part then
      let dir := if done.isEmpty then ['.'] else done
      match disk.find true base (toPath dir) with
      | .ok (l, .directory) =>
        let glob := toGlob part
        let dotted := (part.head?.map (·.1)) = some '.'
        let names := ((disk.names l).map ofText).filter fun name =>
          (dotted || name.head? != some '.') && globMatches glob name
        names.flatMap next
      | _ => []
    else next (unmark part)

/-- The file names that a field stands for, or the field itself. -/
def expandNames (s : State) (field : Marked) : List Text :=
  if s.options.contains 'f' || !isPattern field then [unmark field]
  else
    let found := globFrom s.world.disk s.directory [] (markedParts field)
    if found.isEmpty then [unmark field] else found.mergeSort Disk.nameLe

end Shell

end Sandscript
