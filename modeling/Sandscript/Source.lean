import Sandscript.Failure

/-!
# Sources

A source is the text of a script with the path it was read from.
-/

namespace Sandscript

/-- A script with its place. -/
structure Source where
  path : Path
  text : Text
deriving DecidableEq, Repr

namespace Source

/-- The extension of source files. -/
def extension : Text := "fnr".toList

/-- A source of the given text, which must not be blank. -/
def make (path : Path) (text : Text) : Except Failure Source :=
  if (Text.trim text).isEmpty then .error (.sourceEmpty path) else .ok ⟨path, text⟩

/-- The directory of a source: the path's parent, if it has one. -/
def dir (s : Source) : Path := s.path.parent?.getD (.ofString ".")

/-- Whether a name is that of a source file. -/
def isNamedAsSource (name : Path) : Bool := name.extension? == some extension

end Source

end Sandscript
