import Sandscript.Text.Basic

/-!
# Statements

A script is cut into statements by counting parentheses: a line opens a statement, and the
statement takes in further lines while more parentheses are open than closed. Nothing else is
looked at, so brackets in strings and comments count too.

`Statement.scan` is the cutting. Every line belongs to exactly one statement, in order, and a
statement knows the number of its first line.
-/

namespace Sandscript

/-- A run of lines that is lowered as one unit. -/
structure Statement where
  /-- The lines, joined. -/
  text : Text
  /-- The number of the first line, counted from one. -/
  line : Nat
  /-- How many lines the statement covers. -/
  lineCount : Nat
  /-- Parentheses were still open when the script ended. -/
  unterminated : Bool
deriving DecidableEq, Repr

namespace Statement

/-- A statement of blanks only. -/
def isBlank (s : Statement) : Bool := (Text.trim s.text).isEmpty

/-- A statement of more than one line. -/
def isMultiLine (s : Statement) : Bool := s.lineCount > 1

/-- What one character adds to the count of open parentheses. -/
def weight (c : Char) : Int :=
  if c = '(' then 1 else if c = ')' then -1 else 0

/-- Opening less closing parentheses of a text. -/
def balance (t : Text) : Int := t.foldr (fun c n => weight c + n) 0

/-- Opening less closing parentheses of several lines. -/
def depth (ls : List Text) : Int := ls.foldr (fun l n => balance l + n) 0

/-- Cuts lines into groups. The group that is being collected closes with the first line after which
no parenthesis is open. -/
def group (collected : List Text) : List Text → List (List Text)
  | [] => if collected.isEmpty then [] else [collected]
  | l :: ls =>
    let grown := collected ++ [l]
    if depth grown > 0 then group grown ls else grown :: group [] ls

/-- The statement made of a group of lines. -/
def ofGroup (line : Nat) (g : List Text) : Statement where
  text := Text.unlines g
  line := line
  lineCount := g.length
  unterminated := depth g > 0

/-- Statements of groups that follow one another, the first at the given line. -/
def number (line : Nat) : List (List Text) → List Statement
  | [] => []
  | g :: gs => ofGroup line g :: number (line + g.length) gs

/-- The statements of a script. -/
def scan (t : Text) : List Statement := number 1 (group [] (Text.lines t))

end Statement

end Sandscript
