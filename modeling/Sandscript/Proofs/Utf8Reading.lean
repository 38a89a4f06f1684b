import Sandscript.Text.Utf8

/-!
# Reading UTF-8 back

The bytes of a text, read again, are the text: the reader recognises every leading byte that the
writer puts out, finds the bytes behind it in the range that the leading byte leaves open, and adds
up the bits that they carry. Three leading bytes leave less open than the others. They belong to the
characters next to what is written in fewer bytes, to the surrogates, and to the last code point.

* `next_two`, `next_three`, `next_four` — one character, by the number of its bytes;
* `units_encode`, `decodeLossy_encode` — a whole text.
-/

namespace Sandscript

namespace Utf8

theorem toNat_ofNat_byte {n : Nat} (h : n < 256) : (UInt8.ofNat n).toNat = n := by
  rw [UInt8.toNat_ofNat', Nat.mod_eq_of_lt h]

-- ---------------------------------------------------------------------------
-- Bytes behind a leading byte
-- ---------------------------------------------------------------------------

/-- A byte in the range is taken, and gives six more bits. -/
theorem follow_byte {bits more n : Nat} {low high : UInt8} (hlow : low.toNat ≤ n)
    (hhigh : n ≤ high.toNat) (rest : Bytes) :
    follow bits (more + 1) low high (UInt8.ofNat n :: rest) =
      follow (bits * 64 + (n - 0x80)) more 0x80 0xBF rest := by
  have hn : (UInt8.ofNat n).toNat = n := toNat_ofNat_byte (by have := high.toNat_lt; omega)
  have hfits : (decide (low ≤ UInt8.ofNat n) && decide (UInt8.ofNat n ≤ high)) = true := by
    rw [Bool.and_eq_true, decide_eq_true_eq, decide_eq_true_eq, UInt8.le_iff_toNat_le,
      UInt8.le_iff_toNat_le, hn]
    exact ⟨hlow, hhigh⟩
  rw [follow, if_pos hfits, hn]

/-- A byte of the kind that most leading bytes are followed by. -/
theorem follow_tail {bits more k : Nat} (hk : k < 64) (rest : Bytes) :
    follow bits (more + 1) 0x80 0xBF (UInt8.ofNat (k + 128) :: rest) =
      follow (bits * 64 + k) more 0x80 0xBF rest := by
  have hlow : (0x80 : UInt8).toNat ≤ k + 128 := by
    show 128 ≤ k + 128
    omega
  have hhigh : k + 128 ≤ (0xBF : UInt8).toNat := by
    show k + 128 ≤ 191
    omega
  rw [follow_byte hlow hhigh, Nat.add_sub_cancel]

-- ---------------------------------------------------------------------------
-- Leading bytes
-- ---------------------------------------------------------------------------

theorem lead?_one {v : Nat} (h : v < 128) :
    lead? (UInt8.ofNat v) = some ⟨v, 0, 0x80, 0xBF⟩ := by
  unfold lead?
  rw [toNat_ofNat_byte (by omega)]
  dsimp only
  rw [if_pos h]

/-- The leading byte of a character of two bytes gives its upper bits and asks for one more. -/
theorem lead?_two {k : Nat} (hlow : 2 ≤ k) (hhigh : k < 32) :
    lead? (UInt8.ofNat (k + 192)) = some ⟨k, 1, 0x80, 0xBF⟩ := by
  unfold lead?
  rw [toNat_ofNat_byte (by omega)]
  dsimp only
  rw [if_neg (by omega), if_neg (by omega), if_pos (by omega), Nat.add_sub_cancel]

/-- The leading byte of three, and the range it leaves open for the second. The first and the last
of these ranges are narrower, to keep out overlong forms and surrogates, and the second byte lies in
them. -/
theorem lead?_three {v : Nat} (hlow : 2048 ≤ v) (hhigh : v < 65536)
    (hvalid : v < 0xD800 ∨ 0xDFFF < v) :
    ∃ low high, lead? (UInt8.ofNat (v / 4096 % 16 + 224)) = some ⟨v / 4096, 2, low, high⟩ ∧
      low.toNat ≤ v / 64 % 64 + 128 ∧ v / 64 % 64 + 128 ≤ high.toNat := by
  unfold lead?
  rw [toNat_ofNat_byte (by omega)]
  dsimp only
  rw [if_neg (by omega), if_neg (by omega), if_neg (by omega)]
  by_cases hfirst : v / 4096 = 0
  · -- overlong forms are kept out
    refine ⟨0xA0, 0xBF, ?_, ?_, ?_⟩
    · rw [if_pos (by omega), hfirst]
    · show 160 ≤ _
      omega
    · show _ ≤ 191
      omega
  · rw [if_neg (by omega)]
    by_cases hsurrogate : v / 4096 = 13
    · -- surrogates are kept out
      refine ⟨0x80, 0x9F, ?_, ?_, ?_⟩
      · rw [if_pos (by omega), hsurrogate]
      · show 128 ≤ _
        omega
      · show _ ≤ 159
        omega
    · refine ⟨0x80, 0xBF, ?_, ?_, ?_⟩
      · rw [if_neg (by omega), if_pos (by omega), Nat.add_sub_cancel, Nat.mod_eq_of_lt (by omega)]
      · show 128 ≤ _
        omega
      · show _ ≤ 191
        omega

/-- The leading byte of four, and the range it leaves open for the second. The first range keeps out
overlong forms, and the last one what lies beyond the characters. -/
theorem lead?_four {v : Nat} (hlow : 65536 ≤ v) (hhigh : v < 0x110000) :
    ∃ low high, lead? (UInt8.ofNat (v / 262144 % 8 + 240)) = some ⟨v / 262144, 3, low, high⟩ ∧
      low.toNat ≤ v / 4096 % 64 + 128 ∧ v / 4096 % 64 + 128 ≤ high.toNat := by
  unfold lead?
  rw [toNat_ofNat_byte (by omega)]
  dsimp only
  rw [if_neg (by omega), if_neg (by omega), if_neg (by omega), if_neg (by omega), if_neg (by omega),
    if_neg (by omega)]
  by_cases hfirst : v / 262144 = 0
  · refine ⟨0x90, 0xBF, ?_, ?_, ?_⟩
    · rw [if_pos (by omega), hfirst]
    · show 144 ≤ _
      omega
    · show _ ≤ 191
      omega
  · rw [if_neg (by omega)]
    by_cases hlast : v / 262144 = 4
    · refine ⟨0x80, 0x8F, ?_, ?_, ?_⟩
      · rw [if_neg (by omega), if_pos (by omega), hlast]
      · show 128 ≤ _
        omega
      · show _ ≤ 143
        omega
    · refine ⟨0x80, 0xBF, ?_, ?_, ?_⟩
      · rw [if_pos (by omega), Nat.add_sub_cancel, Nat.mod_eq_of_lt (by omega)]
      · show 128 ≤ _
        omega
      · show _ ≤ 191
        omega

-- ---------------------------------------------------------------------------
-- Characters
-- ---------------------------------------------------------------------------

/-- A character is read if its leading byte is one and the others follow. -/
theorem next_of_lead {b : UInt8} {l : Lead} {rest after : Bytes} {v : Nat}
    (hlead : lead? b = some l)
    (hfollow : follow l.bits l.more l.low l.high rest = (some v, after)) :
    next b rest = (some (Char.ofNat v), after) := by
  unfold next
  rw [hlead]
  dsimp only
  rw [hfollow]
  rfl

theorem next_one {v : Nat} (h : v < 128) (rest : Bytes) :
    next (UInt8.ofNat v) rest = (some (Char.ofNat v), rest) :=
  next_of_lead (lead?_one h) (by rw [follow])

/-- A character of two bytes is read back. -/
theorem next_two {v : Nat} (hlow : 128 ≤ v) (hhigh : v < 2048) (rest : Bytes) :
    next (UInt8.ofNat (v / 64 % 32 + 192)) (UInt8.ofNat (v % 64 + 128) :: rest) =
      (some (Char.ofNat v), rest) := by
  refine next_of_lead (lead?_two (by omega) (by omega)) ?_
  dsimp only
  rw [follow_tail (by omega), follow]
  congr 2
  omega

/-- A character of three bytes is read back. The surrogates are excluded, which are no characters.
-/
theorem next_three {v : Nat} (hlow : 2048 ≤ v) (hhigh : v < 65536)
    (hvalid : v < 0xD800 ∨ 0xDFFF < v) (rest : Bytes) :
    next (UInt8.ofNat (v / 4096 % 16 + 224))
        (UInt8.ofNat (v / 64 % 64 + 128) :: UInt8.ofNat (v % 64 + 128) :: rest) =
      (some (Char.ofNat v), rest) := by
  obtain ⟨low, high, hlead, hleast, hmost⟩ := lead?_three hlow hhigh hvalid
  refine next_of_lead hlead ?_
  dsimp only
  rw [follow_byte hleast hmost, follow_tail (by omega), follow]
  congr 2
  omega

/-- A character of four bytes is read back. -/
theorem next_four {v : Nat} (hlow : 65536 ≤ v) (hhigh : v < 0x110000) (rest : Bytes) :
    next (UInt8.ofNat (v / 262144 % 8 + 240))
        (UInt8.ofNat (v / 4096 % 64 + 128) :: UInt8.ofNat (v / 64 % 64 + 128) ::
          UInt8.ofNat (v % 64 + 128) :: rest) =
      (some (Char.ofNat v), rest) := by
  obtain ⟨low, high, hlead, hleast, hmost⟩ := lead?_four hlow hhigh
  refine next_of_lead hlead ?_
  dsimp only
  rw [follow_byte hleast hmost, follow_tail (by omega), follow_tail (by omega), follow]
  congr 2
  omega

/-- **A character is read back**, whatever stands behind it. -/
theorem exists_next_encodeChar (c : Char) (rest : Bytes) :
    ∃ b bs, String.utf8EncodeChar c = b :: bs ∧ next b (bs ++ rest) = (some c, rest) := by
  have hvalid : c.val.toNat < 0xD800 ∨ 0xDFFF < c.val.toNat ∧ c.val.toNat < 0x110000 := c.valid
  have hchar : Char.ofNat c.val.toNat = c := Char.ofNat_toNat c
  unfold String.utf8EncodeChar
  dsimp only
  split
  · exact ⟨_, _, rfl, (next_one (by omega) rest).trans (by rw [hchar])⟩
  · split
    · exact ⟨_, _, rfl, (next_two (by omega) (by omega) rest).trans (by rw [hchar])⟩
    · split
      · exact ⟨_, _, rfl,
          (next_three (by omega) (by omega) (by omega) rest).trans (by rw [hchar])⟩
      · exact ⟨_, _, rfl, (next_four (by omega) (by omega) rest).trans (by rw [hchar])⟩

-- ---------------------------------------------------------------------------
-- Texts
-- ---------------------------------------------------------------------------

/-- What was encoded is read as the characters of the text and has no broken parts. -/
theorem units_encode (t : Text) : units (encode t) = t.map some := by
  induction t with
  | nil =>
    show units [] = []
    rw [units]
  | cons c t ih =>
    obtain ⟨b, bs, hbytes, hnext⟩ := exists_next_encodeChar c (encode t)
    have hcons : encode (c :: t) = b :: (bs ++ encode t) := by
      show String.utf8EncodeChar c ++ encode t = _
      rw [hbytes, List.cons_append]
    rw [hcons, units, hnext, ih, List.map_cons]

/-- **The bytes of a text are read back as the text.** -/
theorem decodeLossy_encode (t : Text) : decodeLossy (encode t) = t := by
  rw [decodeLossy, units_encode, List.map_map]
  exact List.map_id t

end Utf8

end Sandscript
