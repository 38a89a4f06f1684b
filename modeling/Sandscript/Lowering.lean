import Sandscript.Declare
import Sandscript.Failure
import Sandscript.Log
import Sandscript.Statement
import Sandscript.Text.Word

/-!
# Lowering statements to the host

Each statement is lowered on its own, by looking at how it starts: `fn` becomes the host's function
keyword, a declare statement becomes an import, and anything else is kept. In all but imports the
logging alias is then written out. Indentation is kept and blanks at the end are dropped.

The host's own import keyword is refused beforehand, so imports enter a program through declare
statements only. Within a declare statement the quoted module may hold any word, and the bindings
alone are looked at.
-/

namespace Sandscript

open Text (trim trimStart)

-- ---------------------------------------------------------------------------
-- The logging alias
-- ---------------------------------------------------------------------------

/-- The start of a call of the logging alias. -/
def logCall : Text := "log(".toList

/-- A call is free, and then means the alias, unless the character before it makes it part of a
longer name or a member of something. -/
def isFreeAfter : Option Char → Bool
  | none => true
  | some c => !Text.isWord c && c != '.' && c != '$'

/-- Writes out the logging alias, where the character before the text is given. -/
def expandLogAfter (before : Option Char) : Text → Text
  | [] => []
  | c :: t =>
    if isFreeAfter before && logCall.isPrefixOf (c :: t) then
      "console.".toList ++ c :: expandLogAfter (some c) t
    else c :: expandLogAfter (some c) t

/-- Writes `console.` before every free call of the logging alias. -/
def expandLog (t : Text) : Text := expandLogAfter none t

-- ---------------------------------------------------------------------------
-- The forbidden keyword
-- ---------------------------------------------------------------------------

/-- The host's import keyword. -/
def importWord : Text := "import".toList

/-- The text of a statement in two parts: what is not looked at for the forbidden keyword, and
what is. What follows these two is not looked at either. -/
def checkedRegion (t : Text) : Text × Text :=
  match Declare.read? (trim t) with
  | some d => (Text.indent t ++ d.lead, d.bindings)
  | none => ([], t)

/-- The line of the first use of the forbidden keyword in a statement. -/
def forbiddenLine? (s : Statement) : Option Nat :=
  let (skipped, checked) := checkedRegion s.text
  (Text.beforeWord? importWord none checked).map fun before =>
    s.line + (skipped ++ before).count '\n'

-- ---------------------------------------------------------------------------
-- Statements
-- ---------------------------------------------------------------------------

/-- A lowered statement. -/
inductive Lowered where
  /-- Host text. -/
  | raw (text : Text)
  /-- An import, with its line as written. -/
  | imported (record : Import) (text : Text)
deriving DecidableEq, Repr

namespace Lowered

/-- The host text of a lowered statement. -/
def text : Lowered → Text
  | raw text => text
  | imported _ text => text

/-- The import, if the statement became one. -/
def import? : Lowered → Option Import
  | raw _ => none
  | imported record _ => some record

end Lowered

/-- What lowering needs to know beside the statement. -/
structure Context where
  /-- The directory of the source file. -/
  sourceDir : Path
  /-- Modules that go by another name in this project. -/
  aliases : List (Text × Text) := []

/-- What follows the function keyword and the blanks after it. -/
def functionRest? (t : Text) : Option Text :=
  match "fn".toList.isPrefixOf? t with
  | some (c :: rest) => if Text.isBlank c then some (trimStart rest) else none
  | _ => none

/-- Lowers a statement's text, which has no blanks at its ends, after its indentation. -/
def lowerText (ctx : Context) (indent t : Text) : Except Declare.Fault Lowered :=
  match functionRest? t with
  | some rest => .ok (.raw (indent ++ expandLog ("function ".toList ++ rest)))
  | none =>
    if Declare.isMeant t then
      match Declare.toImport ctx.aliases t with
      | .error fault => .error fault
      | .ok record => .ok (.imported record (indent ++ record.render ctx.sourceDir))
    else .ok (.raw (indent ++ expandLog t))

/-- Lowers one statement. -/
def lower (ctx : Context) (s : Statement) : Except Failure Lowered :=
  match forbiddenLine? s with
  | some line => .error (.forbiddenImport line)
  | none =>
    if s.isBlank then .ok (.raw s.text)
    else match lowerText ctx (Text.indent s.text) (trim s.text) with
      | .error fault => .error (.badStatement s.line fault.message)
      | .ok lowered => .ok lowered

/-- Lowers statements in order, up to the first that fails. -/
def lowerAll (ctx : Context) : List Statement → Except Failure (List Lowered)
  | [] => .ok []
  | s :: ss =>
    match lower ctx s with
    | .error failure => .error failure
    | .ok lowered =>
      match lowerAll ctx ss with
      | .error failure => .error failure
      | .ok rest => .ok (lowered :: rest)

-- ---------------------------------------------------------------------------
-- Warnings
-- ---------------------------------------------------------------------------

/-- A statement that is lowered is reported if its parentheses were never closed. -/
def lowerLog (s : Statement) : Log :=
  if s.unterminated && !s.isBlank && (forbiddenLine? s).isNone then
    [⟨.warn, "line ".toList ++ Text.ofNat s.line ++
      ": statement has unbalanced parentheses at end of input".toList⟩]
  else []

/-- The records of lowering statements in order, up to the first that fails. -/
def lowerAllLog (ctx : Context) : List Statement → Log
  | [] => []
  | s :: ss =>
    lowerLog s ++ match lower ctx s with
      | .error _ => []
      | .ok _ => lowerAllLog ctx ss

end Sandscript
