import Sandscript.Import

/-!
# Declare statements

`declare names from "module"` is how a script asks for a module. The statement is read in two
steps. `Declare.read?` finds its outline: the keyword, the bindings, and the quoted module. The
bindings end at the first `from` that is followed by a quoted module and the end of the statement,
so a binding may itself be called `from`. `readBindings` then takes the bindings apart.
-/

namespace Sandscript

open Text (isBlank trim trimStart)

/-- The outline of a declare statement. -/
structure Declare where
  /-- What stands before the bindings: the keyword and blanks. -/
  lead : Text
  /-- The bindings as written. -/
  bindings : Text
  /-- The module between its quotes. -/
  module : Text
deriving DecidableEq, Repr

namespace Declare

/-- The word that opens a declare statement. -/
def keyword : Text := "declare".toList

-- ---------------------------------------------------------------------------
-- The outline
-- ---------------------------------------------------------------------------

/-- A module between quotes of either kind, with nothing but the end of the statement after it. -/
def readQuoted? : Text → Option Text
  | [] => none
  | q :: rest =>
    if q = '"' || q = '\'' then
      match rest.dropWhile (· != q) with
      | [] => none
      | _ :: after =>
        let module := rest.takeWhile (· != q)
        if module.isEmpty || !Text.isStatementEnd after then none else some module
    else none

/-- Blanks, at least one of them, and what follows. -/
def skipBlanks? : Text → Option Text
  | [] => none
  | c :: rest => if isBlank c then some (trimStart rest) else none

/-- What follows the bindings: blanks, `from`, blanks and the quoted module. -/
def readModule? (t : Text) : Option Text := do
  let t ← skipBlanks? t
  let t ← "from".toList.isPrefixOf? t
  let t ← skipBlanks? t
  readQuoted? t

/-- The shortest bindings, on one line and not empty, after which the module follows. -/
def readOutline? (taken : Text) : Text → Option (Text × Text)
  | [] => none
  | c :: rest =>
    if c = '\n' then none
    else match readModule? rest with
      | some module => some (taken ++ [c], module)
      | none => readOutline? (taken ++ [c]) rest

/-- The outline of a declare statement that has no blanks at its ends. The blanks after the keyword
belong to it as far as possible; only if no outline follows are some of them left to the
bindings. -/
def read? (t : Text) : Option Declare := do
  let rest ← keyword.isPrefixOf? t
  let blanks := rest.takeWhile isBlank
  (List.range blanks.length).reverse.findSome? fun n => do
    let (bindings, module) ← readOutline? [] (rest.drop (n + 1))
    return { lead := keyword ++ rest.take (n + 1), bindings, module }

/-- A statement that opens with the keyword and a blank means to be a declare statement. -/
def isMeant (t : Text) : Bool :=
  match keyword.isPrefixOf? t with
  | some (c :: _) => isBlank c
  | _ => false

-- ---------------------------------------------------------------------------
-- The bindings
-- ---------------------------------------------------------------------------

/-- Why a declare statement cannot be read. -/
inductive Fault where
  | outline
  | noNames
  | wholeBinding (bindings : Text)
  | bindingList (bindings : Text)
deriving DecidableEq, Repr

/-- The wording of a fault. -/
def Fault.message : Fault → Text
  | outline => "malformed declare, expected: declare <names> from \"<module>\"".toList
  | noNames => "declare needs at least one name".toList
  | wholeBinding bindings => "invalid namespace binding '".toList ++ bindings ++ ['\'']
  | bindingList bindings => "invalid binding list '".toList ++ bindings ++ ['\'']

/-- The characters an identifier may start with. -/
def isIdentifierStart (c : Char) : Bool := c.isAlpha || c == '_' || c == '$'

/-- The characters an identifier may go on with. -/
def isIdentifierRest (c : Char) : Bool := c.isAlphanum || c == '_' || c == '$'

/-- An ASCII identifier. -/
def isIdentifier : Text → Bool
  | [] => false
  | c :: rest => isIdentifierStart c && rest.all isIdentifierRest

/-- The text between braces, if the text is one. -/
def braced? (t : Text) : Option Text :=
  match t with
  | '\x7b' :: rest => if rest.getLast? = some '\x7d' then some rest.dropLast else none
  | _ => none

/-- The entries of a list of names. -/
def entries (inner : Text) : List Text :=
  ((Text.split ',' inner).map trim).filter (!·.isEmpty)

/-- Takes bindings apart. -/
def readBindings (bindings : Text) : Except Fault (BindingKind × List Text) :=
  match braced? bindings with
  | some inner =>
    let names := entries inner
    if names.isEmpty then .error .noNames else .ok (.named, names)
  | none =>
    match bindings with
    | '*' :: rest =>
      let name := match "as".toList.isPrefixOf? (trimStart rest) with
        | some name => trim name
        | none => []
      if isIdentifier name then .ok (.whole, ["* as ".toList ++ name])
      else .error (.wholeBinding bindings)
    | _ =>
      if isIdentifier bindings then .ok (.single, [bindings]) else .error (.bindingList bindings)

/-- The first target of an alias; a name that is no alias stands for itself. -/
def resolveAlias (aliases : List (Text × Text)) (module : Text) : Text :=
  (aliases.lookup module).getD module

/-- The import that a declare statement asks for. -/
def toImport (aliases : List (Text × Text)) (t : Text) : Except Fault Import :=
  match read? t with
  | none => .error .outline
  | some d =>
    match readBindings (trim d.bindings) with
    | .error fault => .error fault
    | .ok (kind, names) => .ok (Import.make kind names (resolveAlias aliases d.module))

end Declare

end Sandscript
