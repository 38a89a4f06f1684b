import Sandscript.Sink
import Sandscript.Text.Word

/-!
# Forwarding a program's output

What a program writes is passed on line by line. On the way each line is looked at: the host's own
report of an uncaught error starts a line in one of a few ways, and whether one was seen decides how
an exit with a non-zero status is understood.
-/

namespace Sandscript

namespace Forward

/-- The lines of a byte sequence, each with its newline; the last may have none. -/
def lines : Bytes → List Bytes
  | [] => []
  | b :: rest =>
    if b = 0x0A then [b] :: lines rest
    else match lines rest with
      | [] => [[b]]
      | l :: ls => (b :: l) :: ls

/-- A text starts with a name of ASCII letters that ends in `Error`, as a whole word. -/
def startsWithErrorName (t : Text) : Bool :=
  Text.closes "Error".toList (t.takeWhile Char.isAlpha) &&
    Text.endsWord (t.dropWhile Char.isAlpha).head?

/-- A text starts with the given word, as a whole word. -/
def startsWithWord (word t : Text) : Bool :=
  match word.isPrefixOf? t with
  | some rest => Text.endsWord rest.head?
  | none => false

/-- A line that reports an uncaught error. -/
def isReport (t : Text) : Bool :=
  startsWithErrorName t || startsWithWord "Uncaught".toList t ||
    Text.opens "node:internal".toList t || Text.opens "(Use `node --trace-uncaught".toList t

/-- What became of a stream. -/
structure Outcome where
  /-- A line reported an uncaught error. Nothing is known of this if a line was refused. -/
  reported : Bool
  /-- A line was refused, and nothing was passed on after it. -/
  lost : Bool
deriving DecidableEq, Repr

/-- Passes lines on, where a report may have been seen before. A line is written and flushed before
the next one is looked at; both are the one write of a sink, and if either fails the line is
refused. -/
def pass (reported : Bool) (sink : Sink) : List Bytes → Outcome × Sink
  | [] => (⟨reported, false⟩, sink)
  | l :: ls =>
    let reported := reported || isReport (Utf8.decodeLossy l)
    match sink.write l with
    | (true, sink) => pass reported sink ls
    | (false, sink) => (⟨false, true⟩, sink)

/-- Passes a stream on to a sink. -/
def stream (sink : Sink) (bytes : Bytes) : Outcome × Sink := pass false sink (lines bytes)

end Forward

end Sandscript
