import Sandscript.Path

/-!
# Imports

An import binds names to a module. A module is either external, and then it is handed to the host
under the name it was given, or a file, and then the host gets the file's place as a URL, so that
the program may be run from anywhere.

`isExternal` is the classification, `Import.render` the host's import line.
-/

namespace Sandscript

/-- How an import binds its names. -/
inductive BindingKind where
  /-- One name for the module's default. -/
  | single
  /-- A list of names that the module offers, each possibly renamed. -/
  | named
  /-- One name for the module as a whole. -/
  | whole
deriving DecidableEq, Repr

/-- An import as the host will see it. -/
structure Import where
  kind : BindingKind
  /-- The bindings in source order. -/
  names : List Text
  /-- The module's name or path, aliases resolved. -/
  module : Text
  /-- Whether the host looks the module up by name. -/
  external : Bool
deriving DecidableEq, Repr

/-- The extensions that mark a module as a file. -/
def fileExtensions : List Text :=
  ["js", "mjs", "cjs", "ts", "json", "fnr"].map String.toList

/-- A module is a file if its name starts like a path or has the extension of a file; otherwise it
is external. -/
def isExternal (module : Text) : Bool :=
  if Text.opens "./".toList module || Text.opens "../".toList module ||
      Text.opens "/".toList module then false
  else match Path.extension? ⟨module⟩ with
    | some ext => !fileExtensions.contains ext
    | none => true

namespace Import

/-- The import of a module, classified by the module's name. -/
def make (kind : BindingKind) (names : List Text) (module : Text) : Import :=
  { kind, names, module, external := isExternal module }

/-- The bindings in the host's spelling. -/
def bindings (i : Import) : Text :=
  let listed := Text.join ", ".toList i.names
  match i.kind with
  | .named => "\x7b ".toList ++ listed ++ " \x7d".toList
  | .single | .whole => listed

/-- What the host is told to load: an external module's name, or the URL of a file that is given
relative to the directory of the source. -/
def specifier (i : Import) (sourceDir : Path) : Text :=
  if i.external then i.module
  else "file://".toList ++ (sourceDir.join ⟨i.module⟩).resolve.text

/-- The host's import line. -/
def render (i : Import) (sourceDir : Path) : Text :=
  "import ".toList ++ i.bindings ++ " from \"".toList ++ i.specifier sourceDir ++ "\";".toList

end Import

end Sandscript
