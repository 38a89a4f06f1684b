import Sandscript.Text.Basic

/-!
# UTF-8

Texts are stored and sent as bytes. `encode` writes a text; reading comes in two forms that share
one step. `decode?` refuses ill-formed bytes, and `decodeLossy` puts one replacement character in
the place of each longest part that could have started a character.

A multi-byte character is described by its leading byte: how many bytes follow, and which range the
first of them may come from. That range is what rules out overlong forms, surrogates and values
above the last code point.
-/

namespace Sandscript

/-- Data as it is stored and sent. -/
abbrev Bytes := List UInt8

namespace Utf8

/-- The bytes of a text. -/
def encode (t : Text) : Bytes := t.flatMap String.utf8EncodeChar

/-- What a leading byte says: the bits it carries, how many bytes follow, and the range that the
first of these must lie in. -/
structure Lead where
  bits : Nat
  more : Nat
  low : UInt8
  high : UInt8

/-- The reading of a leading byte, if it can start a character. -/
def lead? (b : UInt8) : Option Lead :=
  let n := b.toNat
  if n < 0x80 then some ⟨n, 0, 0x80, 0xBF⟩
  else if n < 0xC2 then none
  else if n < 0xE0 then some ⟨n - 0xC0, 1, 0x80, 0xBF⟩
  else if n = 0xE0 then some ⟨0, 2, 0xA0, 0xBF⟩
  else if n = 0xED then some ⟨0xD, 2, 0x80, 0x9F⟩
  else if n < 0xF0 then some ⟨n - 0xE0, 2, 0x80, 0xBF⟩
  else if n = 0xF0 then some ⟨0, 3, 0x90, 0xBF⟩
  else if n < 0xF4 then some ⟨n - 0xF0, 3, 0x80, 0xBF⟩
  else if n = 0xF4 then some ⟨4, 3, 0x80, 0x8F⟩
  else none

/-- Reads the bytes that follow a leading byte; stops before the first that does not fit. -/
def follow (bits : Nat) : Nat → UInt8 → UInt8 → Bytes → Option Nat × Bytes
  | 0, _, _, rest => (some bits, rest)
  | _ + 1, _, _, [] => (none, [])
  | more + 1, low, high, b :: rest =>
    if low ≤ b && b ≤ high then follow (bits * 64 + (b.toNat - 0x80)) more 0x80 0xBF rest
    else (none, b :: rest)

/-- One character from a leading byte and what follows it, or nothing for a part that is no
character, together with the bytes after it. -/
def next (b : UInt8) (rest : Bytes) : Option Char × Bytes :=
  match lead? b with
  | none => (none, rest)
  | some l =>
    let (bits, rest) := follow l.bits l.more l.low l.high rest
    (bits.map Char.ofNat, rest)

/-- Reading the bytes that follow takes nothing from the end. -/
theorem length_follow_le (bits more : Nat) (low high : UInt8) (rest : Bytes) :
    (follow bits more low high rest).2.length ≤ rest.length := by
  fun_induction follow bits more low high rest with
  | case1 => simp
  | case2 => simp
  | case3 _ _ _ _ _ _ _ ih => simpa using Nat.le_succ_of_le ih
  | case4 => simp

/-- Reading a character leaves no more bytes than there were, which is what lets the decoding end.
-/
theorem length_next_le (b : UInt8) (rest : Bytes) : (next b rest).2.length ≤ rest.length := by
  unfold next
  split
  · simp
  · exact length_follow_le ..

/-- The characters of a byte sequence, with nothing for each part that is no character. -/
def units : Bytes → List (Option Char)
  | [] => []
  | b :: rest => (next b rest).1 :: units (next b rest).2
termination_by bytes => bytes.length
decreasing_by
  have := length_next_le b rest
  simp only [List.length_cons]
  omega

/-- The text of a well-formed byte sequence. -/
def decode? (bytes : Bytes) : Option Text := (units bytes).mapM id

/-- The text of any byte sequence: each ill-formed part becomes one replacement character. -/
def decodeLossy (bytes : Bytes) : Text := (units bytes).map (·.getD '�')

end Utf8

end Sandscript
