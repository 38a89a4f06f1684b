import Sandscript.Text.Basic

/-!
# Shell scripts

The structure of a shell script: words, which still have to be expanded, and commands made of them.
-/

namespace Sandscript

namespace Shell

/-- What happens when a parameter has no value. -/
inductive Fallback where
  /-- Another word is used in its place. -/
  | use
  /-- Another word is used and becomes its value. -/
  | assign
  /-- The script ends with a message. -/
  | stop
  /-- Another word is used if it *has* a value. -/
  | instead
deriving DecidableEq, Repr

/-- How two commands of a list hang together. -/
inductive Joint where
  /-- The second runs if the first succeeds. -/
  | andThen
  /-- The second runs if the first fails. -/
  | orElse
deriving DecidableEq, Repr

mutual

/-- A part of a word. -/
inductive Part where
  /-- Characters that stand for themselves, or for a pattern of file names. -/
  | plain (t : Text)
  /-- Characters that stand for themselves only. -/
  | quoted (t : Text)
  /-- The value of a parameter. -/
  | param (inQuotes : Bool) (name : Text) (use : Use)
  /-- The output of a command. -/
  | output (inQuotes : Bool) (body : Command)
  /-- The value of an arithmetic expression. -/
  | arithmetic (inQuotes : Bool) (expr : List Part)

/-- What is taken of a parameter. -/
inductive Use where
  | value
  | length
  /-- The value, with a fallback; an empty value may count as none. -/
  | fallback (emptyToo : Bool) (what : Fallback) (word : List Part)
  /-- The value without a part that matches a pattern. -/
  | cut (atEnd longest : Bool) (pattern : List Part)

/-- Where a stream of a command goes to or comes from. -/
inductive Redirection where
  | toFile (stream : Nat) (append : Bool) (target : List Part)
  | fromFile (stream : Nat) (source : List Part)
  /-- The stream gives a text that stands in the script itself. -/
  | fromText (stream : Nat) (text : List Part)
  /-- The stream becomes a copy of the one that a word names, or is closed. -/
  | copy (stream : Nat) (source : List Part)

/-- A command. -/
inductive Command where
  | simple (line : Nat) (assigned : List (Text × List Part)) (words : List (List Part))
      (redirections : List Redirection)
  | pipeline (negated : Bool) (commands : List Command)
  | joined (joint : Joint) (first second : Command)
  | sequence (commands : List Command)
  | choice (condition body : Command) (otherwise : Option Command)
  | loop (untilTrue : Bool) (condition body : Command)
  | forEach (name : Text) (words : Option (List (List Part))) (body : Command)
  | select (word : List Part) (arms : List (List (List Part) × Command))
  | group (body : Command) (redirections : List Redirection)
  | subshell (body : Command) (redirections : List Redirection)
  | define (name : Text) (body : Command)

end

/-- A word is a list of parts. -/
abbrev Word := List Part

instance : Inhabited Command := ⟨.sequence []⟩

end Shell

end Sandscript
