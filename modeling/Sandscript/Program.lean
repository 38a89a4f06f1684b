import Sandscript.Lowering
import Sandscript.Prelude
import Sandscript.Terminator

/-!
# Programs

A program is the host text of a script: its statements, each ended where it needs to be, one after
the other. A program calls its `main` function. If no line of the script does so itself, a guarded
call is appended.

`Program.entryText` is the file that the host is started with: the program after the line that loads
the prelude.
-/

namespace Sandscript

/-- The host text of a script. -/
structure Program where
  text : Text
deriving DecidableEq, Repr

namespace Program

open Text (trimStart)

/-- The call that is appended to a program that does not start itself. -/
def guardCall : Text :=
  "if (typeof main === \"function\") \x7b await main(); \x7d".toList

/-- The text is a call of `main` up to blanks and a `;`. -/
def isMainCall (t : Text) : Bool :=
  match "main()".toList.isPrefixOf? t with
  | some rest => Text.isStatementEnd rest
  | none => false

/-- A line that starts the program: a call of `main`, possibly awaited. -/
def isEntryLine (l : Text) : Bool :=
  let t := trimStart l
  isMainCall t ||
    match "await".toList.isPrefixOf? t with
    | some (c :: rest) => Text.isBlank c && isMainCall (trimStart rest)
    | _ => false

/-- Whether a text starts the program itself. -/
def hasEntryPoint (t : Text) : Bool :=
  Text.occursIn guardCall t || (Text.lines t).any isEntryLine

/-- A text on a line of its own after another one, which is closed with a newline if need be. -/
def appendLine (t l : Text) : Text :=
  (if t.isEmpty || t.getLast? = some '\n' then t else t ++ ['\n']) ++ l ++ ['\n']

/-- The text with an entry point. -/
def withEntryPoint (t : Text) : Text :=
  if hasEntryPoint t then t else appendLine t guardCall

/-- The program of lowered statements. -/
def emit (statements : List Lowered) : Program :=
  ⟨withEntryPoint (Text.unlines (statements.map (Terminator.terminate ·.text)))⟩

/-- The line of the entry file on which the program starts. -/
def startLine : Nat := (Text.endedLines Prelude.importLine).length + 1

/-- The file that the host is started with. -/
def entryText (p : Program) : Text := Prelude.importLine ++ '\n' :: p.text

end Program

end Sandscript
