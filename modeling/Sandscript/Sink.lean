import Sandscript.Failure
import Sandscript.Text.Utf8

/-!
# Output

Output is written in pieces. A `Sink` may accept or refuse each piece, depending on the piece and on
what it has accepted before; a refused piece leaves no trace. To write a piece means to hand over
all of it and to see that it is passed on at once, so a piece that gets stuck halfway is a refused
one.

`Buffers` are unbounded stores for output that several handles can share.
-/

namespace Sandscript

/-- A destination of output. -/
structure Sink where
  /-- Whether a piece is accepted after the pieces before it. -/
  admits : List Bytes → Bytes → Bool
  /-- The accepted pieces, oldest first. -/
  received : List Bytes := []

namespace Sink

/-- A sink that accepts everything. -/
def unbounded : Sink := { admits := fun _ _ => true }

/-- A sink that holds at most so many bytes. -/
def bounded (limit : Nat) : Sink :=
  { admits := fun before piece => before.flatten.length + piece.length ≤ limit }

/-- Everything the sink has accepted. -/
def contents (s : Sink) : Bytes := s.received.flatten

/-- Offers a piece; the answer is whether it was accepted, which includes that nothing of it is held
back afterwards. Writing nothing always succeeds. -/
def write (s : Sink) (piece : Bytes) : Bool × Sink :=
  if piece.isEmpty then (true, s)
  else if s.admits s.received piece then (true, { s with received := s.received ++ [piece] })
  else (false, s)

/-- Offers pieces in order until one is refused. -/
def writeAll (s : Sink) : List Bytes → Bool × Sink
  | [] => (true, s)
  | piece :: pieces =>
    match s.write piece with
    | (true, s) => s.writeAll pieces
    | (false, s) => (false, s)

/-- Offers texts in order until one is refused. -/
def print (s : Sink) (pieces : List Text) : Sink := (s.writeAll (pieces.map Utf8.encode)).2

end Sink

-- ---------------------------------------------------------------------------
-- Shared buffers
-- ---------------------------------------------------------------------------

/-- Stores of bytes and the handles on them. Several handles may refer to one store. -/
structure Buffers where
  stores : List Bytes
  /-- For each handle, the store that it refers to. -/
  handles : List Nat
deriving DecidableEq, Repr

namespace Buffers

/-- One store for each of the two output streams, with a handle on each. -/
def captured : Buffers := { stores := [[], []], handles := [0, 1] }

/-- The two streams. -/
inductive Stream where
  | out
  | err
deriving DecidableEq, Repr

/-- The store of a stream. -/
def Stream.store : Stream → Nat
  | .out => 0
  | .err => 1

/-- Appends data to a store. -/
def append (b : Buffers) (store : Nat) (data : Bytes) : Buffers :=
  { b with stores := b.stores.modify store (· ++ data) }

/-- Writes to a stream. -/
def writeStream (b : Buffers) (s : Stream) (data : Bytes) : Buffers := b.append s.store data

/-- Writes through a handle. -/
def write (b : Buffers) (handle : Nat) (data : Bytes) : Buffers :=
  match b.handles[handle]? with
  | some store => b.append store data
  | none => b

/-- Flushes what was written. Nothing is held back, so there is nothing left to do. -/
def flush (b : Buffers) : Buffers := b

/-- Adds a handle on the store of another handle. -/
def clone (b : Buffers) (handle : Nat) : Buffers :=
  match b.handles[handle]? with
  | some store => { b with handles := b.handles ++ [store] }
  | none => b

/-- Adds a handle on a store of its own. -/
def add (b : Buffers) : Buffers :=
  { stores := b.stores ++ [[]], handles := b.handles ++ [b.stores.length] }

/-- What a handle shows: the data of its store, read as text. -/
def contents (b : Buffers) (handle : Nat) : Text :=
  match b.handles[handle]? with
  | some store => Utf8.decodeLossy (b.stores.getD store [])
  | none => []

/-- What all handles show. -/
def allContents (b : Buffers) : List Text := (List.range b.handles.length).map b.contents

end Buffers

end Sandscript
