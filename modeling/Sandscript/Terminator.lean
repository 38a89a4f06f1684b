import Sandscript.Text.Word

/-!
# Statement ends

The host wants statements to end with a semicolon. Whether one is appended is decided from the
statement alone, by a fixed list of cases of which the first that applies decides: `needsEnd`. A
statement that gets one loses its blanks at the end.
-/

namespace Sandscript

namespace Terminator

open Text (isBlank isWord trim trimStart trimEnd)

/-- The mark that ends a statement. -/
def mark : Char := ';'

/-- The characters a called name starts with. -/
def isCalleeStart (c : Char) : Bool := c.isAlpha || c == '_' || c == '$'

/-- The characters a called name goes on with; dots join members. -/
def isCalleeRest (c : Char) : Bool := c.isAlphanum || c == '_' || c == '$' || c == '.'

/-- The text starts with a call: a name, blanks, an opening parenthesis. -/
def startsWithCall : Text → Bool
  | [] => false
  | c :: t => isCalleeStart c && (trimStart (t.dropWhile isCalleeRest)).head? == some '('

/-- Something is assigned, called, logged or returned. -/
def hasAssignmentOrCall (t : Text) : Bool :=
  t.contains '=' || Text.occursIn "console.log".toList t || Text.occursIn "return ".toList t ||
    startsWithCall t

/-- What follows a leading word and the blanks after it, if the text starts with a word. -/
def afterWord? (t : Text) : Option Text :=
  if (t.takeWhile isWord).isEmpty then none else some (trimStart (t.dropWhile isWord))

/-- The operators that change the word before them. -/
def updates : List Text := ["++", "--", "+=", "-=", "*=", "/="].map String.toList

/-- The text starts with a word that is changed in place. -/
def startsWithUpdate (t : Text) : Bool :=
  match afterWord? t with
  | some rest => updates.any (Text.opens · rest)
  | none => false

/-- The words that open a declaration of variables. -/
def declarators : List Text := ["const ", "let ", "var "].map String.toList

/-- The statement is of a kind that ends with the mark. -/
def isTerminable (t : Text) : Bool :=
  hasAssignmentOrCall t || declarators.any (Text.opens · t) || startsWithUpdate t

/-- The words that open a control flow head or a declaration with a body. -/
def heads : List Text :=
  ["function ", "if ", "else", "for ", "while ", "switch ", "try", "catch", "finally", "import ",
    "export "].map String.toList

/-- The text opens a control flow head, possibly after the end of the block before it. -/
def startsWithHead (t : Text) : Bool :=
  heads.any (Text.opens · t) ||
    match t with
    | '\x7d' :: rest => Text.opens "else".toList (trimStart rest)
    | _ => false

/-- The decision on a text without blanks at its ends. -/
def needsEndTrimmed (t : Text) : Bool :=
  if t.isEmpty then false
  else if t.getLast? = some mark then false
  else if t.getLast? = some '\x7b' || t.getLast? = some '\x7d' then false
  else if t.getLast? = some ')' && !hasAssignmentOrCall t then false
  else if startsWithHead t then false
  else isTerminable t

/-- Whether a statement gets the mark. -/
def needsEnd (t : Text) : Bool := needsEndTrimmed (trim t)

/-- The statement with the mark, if it gets one. -/
def terminate (t : Text) : Text := if needsEnd t then trimEnd t ++ [mark] else t

end Terminator

end Sandscript
