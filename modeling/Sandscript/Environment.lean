import Sandscript.Path

/-!
# Environments

The toolchain works against a snapshot of the variables it was started with and the directory that
relative paths are taken against. Nothing else of the surrounding process is looked at.
-/

namespace Sandscript

/-- A snapshot of variables and the current directory. -/
structure Environment where
  /-- The variables; no name occurs twice. -/
  vars : List (Text × Text)
  currentDir : Path
deriving Repr

namespace Environment

/-- Turns on the listing of generated programs. -/
def debugVar : Text := "FENRIR_DEBUG".toList

/-- Names the runtime to use in place of the configured one. -/
def runtimeVar : Text := "FENRIR_RUNTIME".toList

/-- The search path for modules that the host understands. -/
def searchPathVar : Text := "NODE_PATH".toList

/-- The value of a variable. -/
def get? (env : Environment) (key : Text) : Option Text := env.vars.lookup key

/-- Gives a variable a value. -/
def set (env : Environment) (key value : Text) : Environment :=
  { env with vars := env.vars.filter (·.1 != key) ++ [(key, value)] }

/-- Removes a variable. -/
def unset (env : Environment) (key : Text) : Environment :=
  { env with vars := env.vars.filter (·.1 != key) }

/-- Listings are wanted unless the variable is absent, blank, `0` or `false`. -/
def debug (env : Environment) : Bool :=
  match env.get? debugVar with
  | none => false
  | some value =>
    let value := Text.trim value
    !(value.isEmpty || value == ['0'] || value == "false".toList)

/-- The value of a variable that counts as absent when it is empty. -/
def getNonempty? (env : Environment) (key : Text) : Option Text :=
  (env.get? key).filter (!·.isEmpty)

/-- The runtime to use in place of the configured one. -/
def runtimeOverride? (env : Environment) : Option Text := env.getNonempty? runtimeVar

/-- The search path that was handed down. -/
def inheritedSearchPath? (env : Environment) : Option Text := env.getNonempty? searchPathVar

end Environment

end Sandscript
