import Sandscript.Failure
import Sandscript.Json.Scalar
import Sandscript.Json.Skip

/-!
# Project settings

A project may keep settings in a file of its root directory: names for modules, the runtime to use,
a time limit, and the directory of its dependencies. `Settings.ofContents` reads such a file. The
settings are a JSON object with known fields, or a list of their values in the order of the fields;
fields that are not known are passed over.
-/

namespace Sandscript

/-- What a project may choose. -/
structure Settings where
  /-- Other names for modules. No name occurs twice. -/
  aliases : List (Text × Text) := []
  /-- The program that runs programs. -/
  runtime : Text := "node".toList
  /-- How many milliseconds a program may take. -/
  timeoutMs : Option Nat := none
  /-- The directory, inside the project, of what the project depends on. -/
  dependencyDir : Text := "node_modules".toList
deriving DecidableEq, Repr

namespace Settings

/-- The file of the settings. -/
def fileName : String := "fenrir.json"

/-- The host's own description of a project. -/
def manifestName : String := "package.json"

/-- The fields of the settings, in their order. -/
inductive Field where
  | aliases
  | runtime
  | timeoutMs
  | dependencyDir
deriving DecidableEq, Repr

/-- The name of a field in the file. -/
def Field.name : Field → Text
  | aliases => "imports".toList
  | runtime => "runtime".toList
  | timeoutMs => "timeoutMs".toList
  | dependencyDir => "dependencyDir".toList

/-- All fields, in the order in which a list gives their values. -/
def Field.all : List Field := [.aliases, .runtime, .timeoutMs, .dependencyDir]

/-- The field of a name. -/
def Field.named? (name : Text) : Option Field := Field.all.find? (·.name == name)

open Json (Cursor Located)

-- ---------------------------------------------------------------------------
-- Values of fields
-- ---------------------------------------------------------------------------

/-- Reads a string. -/
def readText (c : Cursor) : Except Located (Text × Cursor) :=
  let c := c.skipSpace
  match c.peek? with
  | none => c.failNext .endInValue
  | some '"' => Json.readString (c.advance 1)
  | some _ => Json.wrongType c "a string".toList

/-- Reads a time, or `null` for none. -/
def readTime (c : Cursor) : Except Located (Option Nat × Cursor) :=
  let c := c.skipSpace
  let wanted := "u64".toList
  match c.peek? with
  | none => c.failNext .endInValue
  | some 'n' => (Json.expect (c.advance 1) "ull".toList).map (none, ·)
  | some x =>
    if x = '-' || x.isDigit then
      let number := if x = '-' then Json.readNumber true (c.advance 1) else Json.readNumber false c
      match number with
      | .error fault => .error fault
      | .ok (.unsigned n, c) => .ok (some n, c)
      | .ok (s@(.negative _), c) => c.fail (.wrongValue s.describe wanted)
      | .ok (s, c) => c.fail (.wrongType s.describe wanted)
    else Json.wrongType c wanted

/-- Looks for the next key of an object; `first` says that none was read yet. The answer is the
cursor after the key's opening quote, or nothing at the end of the object, which is not passed. -/
def nextKey (first : Bool) (c : Cursor) : Except Located (Option Cursor × Cursor) :=
  let c := c.skipSpace
  match c.peek? with
  | none => c.failNext .endInObject
  | some '\x7d' => .ok (none, c)
  | some x =>
    if first then
      if x = '"' then .ok (some (c.advance 1), c) else c.failNext .keyNotString
    else if x = ',' then
      let c := (c.advance 1).skipSpace
      match c.peek? with
      | some '"' => .ok (some (c.advance 1), c)
      | some '\x7d' => c.failNext .trailingComma
      | some _ => c.failNext .keyNotString
      | none => c.failNext .endInValue
    else c.failNext .commaOrBrace

/-- Passes the colon after a key. -/
def passColon (c : Cursor) : Except Located Cursor :=
  let c := c.skipSpace
  match c.peek? with
  | some ':' => .ok (c.advance 1)
  | some _ => c.failNext .colon
  | none => c.failNext .endInObject

/-- Gives a name a target; an earlier one is replaced. -/
def addAlias (aliases : List (Text × Text)) (name target : Text) : List (Text × Text) :=
  aliases.filter (·.1 != name) ++ [(name, target)]

/-- Reads the entries of the aliases after the opening brace, and passes the closing one. Each round
takes at least one byte. -/
def readAliasEntries (aliases : List (Text × Text)) (first : Bool) (c : Cursor) :
    Nat → Except Located (List (Text × Text) × Cursor)
  | 0 => c.failNext .endInObject
  | fuel + 1 => do
    match ← nextKey first c with
    | (none, c) => return (aliases, c.advance 1)
    | (some c, _) =>
      let (name, c) ← Json.readString c
      let c ← passColon c
      let (target, c) ← readText c
      readAliasEntries (addAlias aliases name target) false c fuel

/-- Reads the aliases. -/
def readAliases (c : Cursor) : Except Located (List (Text × Text) × Cursor) :=
  let c := c.skipSpace
  match c.peek? with
  | none => c.failNext .endInValue
  | some '\x7b' => readAliasEntries [] true (c.advance 1) (c.rest.length + 1)
  | some _ => Json.wrongType c "a map".toList

/-- Reads the value of a field into settings. -/
def readField (s : Settings) (c : Cursor) : Field → Except Located (Settings × Cursor)
  | .aliases => (readAliases c).map fun (aliases, c) => ({ s with aliases }, c)
  | .runtime => (readText c).map fun (runtime, c) => ({ s with runtime }, c)
  | .timeoutMs => (readTime c).map fun (timeoutMs, c) => ({ s with timeoutMs }, c)
  | .dependencyDir => (readText c).map fun (dependencyDir, c) => ({ s with dependencyDir }, c)

-- ---------------------------------------------------------------------------
-- Settings as an object
-- ---------------------------------------------------------------------------

/-- The complaint about a second value of a field. The blanks after the key, and the end of the
object if it follows, are passed before. -/
def duplicateField {α : Type} (c : Cursor) (f : Field) : Except Located α :=
  let c := c.skipSpace
  let c := if c.peek? = some '\x7d' then c.advance 1 else c
  c.fail (.duplicateField f.name)

/-- Reads fields after the opening brace, where `seen` were read before. -/
def readFields (s : Settings) (seen : List Field) (first : Bool) (c : Cursor) :
    Nat → Except Located (Settings × Cursor)
  | 0 => c.failNext .endInObject
  | fuel + 1 => do
    match ← nextKey first c with
    | (none, c) => return (s, c.advance 1)
    | (some c, _) =>
      let (name, c) ← Json.readString c
      match Field.named? name with
      | some f =>
        if seen.contains f then duplicateField c f
        else
          let (s, c) ← readField s (← passColon c) f
          readFields s (f :: seen) false c fuel
      | none =>
        let c ← Json.skipValue (← passColon c)
        readFields s seen false c fuel

-- ---------------------------------------------------------------------------
-- Settings as a list
-- ---------------------------------------------------------------------------

/-- Passes the end of a list of values after its last one. -/
def endList (c : Cursor) : Except Located Cursor :=
  let c := c.skipSpace
  match c.peek? with
  | none => c.failNext .endInList
  | some ']' => .ok (c.advance 1)
  | some ',' =>
    let c := (c.advance 1).skipSpace
    if c.peek? = some ']' then c.failNext .trailingComma else c.failNext .trailingCharacters
  | some _ => c.failNext .trailingCharacters

/-- Goes to the next value of a list, or stops before its end. -/
def nextValue (first : Bool) (c : Cursor) : Except Located (Option Cursor × Cursor) :=
  let c := c.skipSpace
  match c.peek? with
  | none => c.failNext .endInList
  | some ']' => .ok (none, c)
  | some x =>
    if first then .ok (some c, c)
    else if x = ',' then
      let c := (c.advance 1).skipSpace
      match c.peek? with
      | some ']' => c.failNext .trailingComma
      | some _ => .ok (some c, c)
      | none => c.failNext .endInValue
    else c.failNext .commaOrBracket

/-- Reads values of the given fields after the opening bracket. Fields without a value keep theirs.
-/
def readValues (s : Settings) (first : Bool) (c : Cursor) :
    List Field → Except Located (Settings × Cursor)
  | [] => (endList c).map (s, ·)
  | f :: fs => do
    match ← nextValue first c with
    | (none, c) => return (s, ← endList c)
    | (some c, _) =>
      let (s, c) ← readField s c f
      readValues s false c fs

-- ---------------------------------------------------------------------------
-- Settings as a file
-- ---------------------------------------------------------------------------

/-- Reads settings. -/
def read (c : Cursor) : Except Located (Settings × Cursor) :=
  let c := c.skipSpace
  match c.peek? with
  | none => c.failNext .endInValue
  | some '\x7b' => readFields {} [] true (c.advance 1) (c.rest.length + 1)
  | some '[' => readValues {} true (c.advance 1) Field.all
  | some _ => Json.wrongType c "struct ProjectConfig".toList

/-- Reads a whole text as settings. -/
def readAll (bytes : Bytes) : Except Located Settings := do
  let (s, c) ← read (Cursor.start bytes)
  let c := c.skipSpace
  if c.rest.isEmpty then return s else c.failNext .trailingCharacters

/-- The settings in a file of the given contents, or the reason why there are none. A file of blanks
leaves everything to the defaults. -/
def ofContents (bytes : Bytes) : Except Text Settings :=
  match Utf8.decode? bytes with
  | none => .error IoError.notUtf8.message
  | some t =>
    if (Text.trim t).isEmpty then .ok {}
    else match readAll bytes with
      | .error fault => .error (fault.message bytes)
      | .ok s => .ok s

end Settings

end Sandscript
