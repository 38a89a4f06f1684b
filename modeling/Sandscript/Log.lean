import Sandscript.Text.Basic

/-!
# Log records

The toolchain reports what a user may want to know beside results and failures: a level and a text.
-/

namespace Sandscript

/-- How much a record matters. -/
inductive Level where
  | info
  | warn
  | error
deriving DecidableEq, Repr

/-- One line of the log. -/
structure Record where
  level : Level
  text : Text
deriving DecidableEq, Repr

/-- The records of one activity, oldest first. -/
abbrev Log := List Record

end Sandscript
