import Sandscript.Proofs.Resolution
import Sandscript.Text.Utf8

/-!
# Files as URLs

A file is handed to the host as a URL, and the host takes the file's path from it: a query or a
fragment is cut off, and what is escaped with `%` is decoded, byte by byte. The path is written into
the URL as it is, so it comes back if nothing in it is read as one of these, and otherwise it does
not. Both the cut and the decoding make a path shorter, so nothing else can make up for them.

* `FileUrl.read?` — the path that the host takes from a URL.
* `Utf8.encode_infix_encode` — where the bytes of ASCII text stand, the text stands.
* `FileUrl.percentDecode_encode_iff` — which texts decoding leaves alone.
* `file_url_read` — when the URL of a file names the file.
-/

namespace Sandscript

-- ---------------------------------------------------------------------------
-- The bytes of ASCII text
-- ---------------------------------------------------------------------------

namespace Utf8

theorem encode_cons (c : Char) (t : Text) :
    encode (c :: t) = String.utf8EncodeChar c ++ encode t := List.flatMap_cons

theorem encode_append (a b : Text) : encode (a ++ b) = encode a ++ encode b := List.flatMap_append

/-- Every character takes at least one byte. -/
theorem length_le_encode (t : Text) : t.length ≤ (encode t).length := by
  induction t with
  | nil => exact Nat.le_refl 0
  | cons c t ih =>
    have hc := List.length_pos_iff.mpr (String.utf8EncodeChar_ne_nil (c := c))
    rw [encode_cons, List.length_append, List.length_cons]
    omega

theorem encodeChar_ascii {c : Char} (h : c.toNat < 128) :
    String.utf8EncodeChar c = [UInt8.ofNat c.toNat] := by
  unfold String.utf8EncodeChar
  exact if_pos (Nat.le_of_lt_succ h)

theorem encode_cons_ascii {c : Char} (h : c.toNat < 128) (t : Text) :
    encode (c :: t) = UInt8.ofNat c.toNat :: encode t := by
  rw [encode_cons, encodeChar_ascii h, List.singleton_append]

/-- The bytes of a character beyond ASCII all lie beyond ASCII, the leading one and those that
follow. One case for each length of an encoding. -/
theorem le_of_mem_encodeChar {c : Char} (h : 128 ≤ c.toNat) {b : UInt8}
    (hb : b ∈ String.utf8EncodeChar c) : 128 ≤ b.toNat := by
  have hbyte : ∀ n, 128 ≤ n → n < 256 → 128 ≤ (UInt8.ofNat n).toNat := by
    intro n hlow hhigh
    rw [UInt8.toNat_ofNat', Nat.mod_eq_of_lt hhigh]
    exact hlow
  change 128 ≤ c.val.toNat at h
  unfold String.utf8EncodeChar at hb
  dsimp only at hb
  rw [if_neg (Nat.not_le.mpr h)] at hb
  split at hb
  · simp only [List.mem_cons, List.not_mem_nil, or_false] at hb
    rcases hb with rfl | rfl <;> exact hbyte _ (by omega) (by omega)
  · split at hb
    · simp only [List.mem_cons, List.not_mem_nil, or_false] at hb
      rcases hb with rfl | rfl | rfl <;> exact hbyte _ (by omega) (by omega)
    · simp only [List.mem_cons, List.not_mem_nil, or_false] at hb
      rcases hb with rfl | rfl | rfl | rfl <;> exact hbyte _ (by omega) (by omega)

theorem ofNat_inj_ascii {c d : Char} (hc : c.toNat < 128) (hd : d.toNat < 128)
    (h : UInt8.ofNat c.toNat = UInt8.ofNat d.toNat) : c = d := by
  have hnat := congrArg UInt8.toNat h
  rw [UInt8.toNat_ofNat', UInt8.toNat_ofNat', Nat.mod_eq_of_lt (by omega),
    Nat.mod_eq_of_lt (by omega)] at hnat
  exact Char.toNat_inj.mp hnat

/-- A byte of ASCII starts a text only as the character itself. -/
theorem cons_prefix_encode {c : Char} (hc : c.toNat < 128) {rest : Bytes} {t : Text}
    (h : UInt8.ofNat c.toNat :: rest <+: encode t) : ∃ t', t = c :: t' ∧ rest <+: encode t' := by
  cases t with
  | nil => exact absurd (List.prefix_nil.mp h) (by simp)
  | cons d t =>
    by_cases hd : d.toNat < 128
    · rw [encode_cons_ascii hd, List.cons_prefix_cons] at h
      exact ⟨t, by rw [ofNat_inj_ascii hc hd h.1], h.2⟩
    · obtain ⟨b, bs, hbytes⟩ := List.exists_cons_of_ne_nil (String.utf8EncodeChar_ne_nil (c := d))
      rw [encode_cons, hbytes, List.cons_append, List.cons_prefix_cons] at h
      have hb : 128 ≤ b.toNat := le_of_mem_encodeChar (Nat.not_lt.mp hd) (by simp [hbytes])
      rw [← h.1, UInt8.toNat_ofNat'] at hb
      omega

/-- An ASCII text whose bytes stand at the start stands at the start itself, since no longer
character starts with an ASCII byte. -/
theorem prefix_of_encode {w : Text} (hw : ∀ c ∈ w, c.toNat < 128) {t : Text}
    (h : encode w <+: encode t) : w <+: t := by
  induction w generalizing t with
  | nil => exact List.nil_prefix
  | cons c w ih =>
    have hc := hw c (List.mem_cons_self ..)
    rw [encode_cons_ascii hc] at h
    obtain ⟨t', rfl, hrest⟩ := cons_prefix_encode hc h
    exact List.cons_prefix_cons.mpr ⟨rfl, ih (fun d hd => hw d (List.mem_cons_of_mem _ hd)) hrest⟩

/-- What starts with a byte of ASCII does not start within a character beyond ASCII. -/
theorem infix_of_infix_append {b : UInt8} (hb : b.toNat < 128) {rest high bytes : Bytes}
    (hhigh : ∀ x ∈ high, 128 ≤ x.toNat) (h : b :: rest <:+: high ++ bytes) :
    b :: rest <:+: bytes := by
  induction high with
  | nil => exact h
  | cons x high ih =>
    rw [List.cons_append, List.infix_cons_iff] at h
    rcases h with h | h
    · have hx := hhigh x (List.mem_cons_self ..)
      rw [← (List.cons_prefix_cons.mp h).1] at hx
      omega
    · exact ih (fun y hy => hhigh y (List.mem_cons_of_mem _ hy)) h

/-- **Where the bytes of ASCII text stand, the text stands.** An ASCII byte is always a character of
its own, so the place in the bytes is a place between characters. -/
theorem encode_infix_encode {w t : Text} (hne : w ≠ []) (hw : ∀ c ∈ w, c.toNat < 128) :
    encode w <:+: encode t ↔ w <:+: t := by
  constructor
  · intro h
    obtain ⟨c, rest, rfl⟩ := List.exists_cons_of_ne_nil hne
    have hc := hw c (List.mem_cons_self ..)
    have hfirst := encode_cons_ascii hc rest
    induction t with
    | nil => exact absurd (List.infix_nil.mp h) (by simp [hfirst])
    | cons d t ih =>
      rw [List.infix_cons_iff]
      by_cases hd : d.toNat < 128
      · rw [encode_cons_ascii hd, List.infix_cons_iff, ← encode_cons_ascii hd] at h
        exact h.imp (prefix_of_encode hw) ih
      · -- the bytes of a longer character are not ASCII, so the occurrence starts behind it
        refine Or.inr (ih ?_)
        have hsmall : (UInt8.ofNat c.toNat).toNat < 128 := by
          rw [UInt8.toNat_ofNat']
          omega
        rw [encode_cons d, hfirst] at h
        rw [hfirst]
        exact infix_of_infix_append hsmall
          (fun x hx => le_of_mem_encodeChar (Nat.not_lt.mp hd) hx) h
  · rintro ⟨front, back, rfl⟩
    exact ⟨encode front, encode back, by rw [encode_append, encode_append]⟩

end Utf8

namespace FileUrl

open HostLiteral (digit?)

-- ---------------------------------------------------------------------------
-- Reading a URL
-- ---------------------------------------------------------------------------

/-- The byte that three bytes stand for, if they are a `%` and two hexadecimal digits. -/
def escape? (b x y : UInt8) : Option UInt8 :=
  if Char.ofNat b.toNat = '%' then
    match digit? (Char.ofNat x.toNat), digit? (Char.ofNat y.toNat) with
    | some high, some low => some (UInt8.ofNat (16 * high + low))
    | _, _ => none
  else none

/-- Bytes with every escape taken for the byte that it stands for. -/
def percentDecode : Bytes → Bytes
  | b :: x :: y :: rest =>
    match escape? b x y with
    | some value => value :: percentDecode rest
    | none => b :: percentDecode (x :: y :: rest)
  | short => short

/-- A URL up to its query or its fragment. -/
def beforeQuery (t : Text) : Text := t.takeWhile fun c => c != '?' && c != '#'

/-- The path of a file in its URL, in bytes. -/
def read? (url : Text) : Option Bytes :=
  ("file://".toList.isPrefixOf? url).map fun t => percentDecode (Utf8.encode (beforeQuery t))

-- ---------------------------------------------------------------------------
-- What decoding leaves alone
-- ---------------------------------------------------------------------------

/-- Decoding never makes more bytes than there were. It keeps the number exactly if there was
nothing to decode. -/
theorem length_percentDecode_le (bytes : Bytes) :
    (percentDecode bytes).length ≤ bytes.length := by
  fun_induction percentDecode bytes with
  | case1 b x y rest value _ ih =>
    simp only [List.length_cons]
    omega
  | case2 b x y rest _ ih => exact Nat.succ_le_succ ih
  | case3 => exact Nat.le_refl _

/-- Bytes are left alone exactly if there is no escape among them. An escape makes three bytes into
one, and the decoding of the rest never gives more bytes than it gets. -/
theorem percentDecode_eq_iff {bytes : Bytes} :
    percentDecode bytes = bytes ↔ ∀ b x y, [b, x, y] <:+: bytes → escape? b x y = none := by
  fun_induction percentDecode bytes with
  | case1 b x y rest value hescape ih =>
    -- an escape becomes one byte, and the rest cannot make up for it
    refine iff_of_false (fun heq => ?_) fun hnone => ?_
    · have hshort := length_percentDecode_le rest
      have hlength := congrArg List.length heq
      simp only [List.length_cons] at hlength
      omega
    · have hoccurs : [b, x, y] <:+: b :: x :: y :: rest := ⟨[], rest, rfl⟩
      rw [hnone b x y hoccurs] at hescape
      cases hescape
  | case2 b x y rest hescape ih =>
    -- the first byte stays, and an escape starts here or further on
    rw [List.cons_inj_right, ih]
    refine ⟨fun hnone b' x' y' hoccurs => ?_, fun hnone b' x' y' hoccurs => ?_⟩
    · rcases List.infix_cons_iff.mp hoccurs with hhere | hoccurs
      · simp only [List.cons_prefix_cons, List.nil_prefix, and_true] at hhere
        obtain ⟨rfl, rfl, rfl⟩ := hhere
        exact hescape
      · exact hnone b' x' y' hoccurs
    · exact hnone b' x' y' (List.infix_cons_iff.mpr (Or.inr hoccurs))
  | case3 short hshort =>
    -- fewer than three bytes hold no escape
    refine iff_of_true rfl fun b x y hoccurs => ?_
    obtain ⟨_ | ⟨f, _ | ⟨g, _ | ⟨h, front⟩⟩⟩, back, rfl⟩ := hoccurs
    · exact absurd rfl (hshort b x y back)
    · exact absurd rfl (hshort f b x (y :: back))
    · exact absurd rfl (hshort f g b (x :: y :: back))
    · exact absurd rfl (hshort f g h (front ++ [b, x, y] ++ back))

/-- A text in which no `%` is followed by two hexadecimal digits. -/
def NoEscape (t : Text) : Prop :=
  ∀ x y, ['%', x, y] <:+: t → digit? x = none ∨ digit? y = none

/-- A hexadecimal digit is an ASCII character. -/
theorem ascii_of_digit? {c : Char} {n : Nat} (h : digit? c = some n) : c.toNat < 128 := by
  have hle : ∀ d : Char, c ≤ d → d.toNat < 128 → c.toNat < 128 := by
    intro d hcd hd
    have hnat : c.toNat ≤ d.toNat := hcd
    omega
  revert h
  fun_cases digit? c with
  | case1 hrange => exact fun _ => hle '9' hrange.2 (by decide)
  | case2 _ hrange => exact fun _ => hle 'f' hrange.2 (by decide)
  | case3 _ _ hrange => exact fun _ => hle 'F' hrange.2 (by decide)
  | case4 => exact fun h => nomatch h

theorem charOf_byteOf {c : Char} (h : c.toNat < 128) :
    Char.ofNat (UInt8.ofNat c.toNat).toNat = c := by
  rw [UInt8.toNat_ofNat', Nat.mod_eq_of_lt (by omega), Char.ofNat_toNat]

theorem byteOf_charOf (b : UInt8) : UInt8.ofNat (Char.ofNat b.toNat).toNat = b := by
  have hb := UInt8.toNat_lt b
  rw [Char.toNat_ofNat, if_pos (Or.inl (by omega)), UInt8.ofNat_toNat]

theorem encode_escape {x y : Char} (hx : x.toNat < 128) (hy : y.toNat < 128) :
    Utf8.encode ['%', x, y] =
      [UInt8.ofNat '%'.toNat, UInt8.ofNat x.toNat, UInt8.ofNat y.toNat] := by
  rw [Utf8.encode_cons_ascii (by decide), Utf8.encode_cons_ascii hx, Utf8.encode_cons_ascii hy]
  rfl

/-- Three bytes that are decoded to one were a percent sign and two hexadecimal digits. -/
theorem escape?_eq_some {b x y value : UInt8} (h : escape? b x y = some value) :
    Char.ofNat b.toNat = '%' ∧ (∃ n, digit? (Char.ofNat x.toNat) = some n) ∧
      ∃ n, digit? (Char.ofNat y.toNat) = some n := by
  unfold escape? at h
  split at h
  · next hb =>
    split at h
    · next high low hx hy => exact ⟨hb, ⟨high, hx⟩, ⟨low, hy⟩⟩
    · cases h
  · cases h

/-- **Decoding leaves a text alone exactly if there is no escape in it.** Escapes are ASCII text, so
those among the bytes are those in the text. -/
theorem percentDecode_encode_iff {t : Text} :
    percentDecode (Utf8.encode t) = Utf8.encode t ↔ NoEscape t := by
  -- an escape among the bytes is one in the text
  have hoccurs : ∀ {x y : Char}, x.toNat < 128 → y.toNat < 128 →
      ([UInt8.ofNat '%'.toNat, UInt8.ofNat x.toNat, UInt8.ofNat y.toNat] <:+: Utf8.encode t ↔
        ['%', x, y] <:+: t) := by
    intro x y hx hy
    rw [← encode_escape hx hy, Utf8.encode_infix_encode (by simp)]
    intro c hc
    simp only [List.mem_cons, List.not_mem_nil, or_false] at hc
    rcases hc with rfl | rfl | rfl
    · decide
    · exact hx
    · exact hy
  rw [percentDecode_eq_iff]
  constructor
  · intro hnone x y hin
    -- two digits behind a percent sign would have been decoded
    by_contra hdigits
    rw [not_or] at hdigits
    obtain ⟨high, hx⟩ := Option.ne_none_iff_exists'.mp hdigits.1
    obtain ⟨low, hy⟩ := Option.ne_none_iff_exists'.mp hdigits.2
    have hxs := ascii_of_digit? hx
    have hys := ascii_of_digit? hy
    have hescape := hnone _ _ _ ((hoccurs hxs hys).mpr hin)
    rw [escape?, charOf_byteOf (by decide), charOf_byteOf hxs, charOf_byteOf hys, hx, hy] at hescape
    cases hescape
  · intro hnone b x y hin
    rw [Option.eq_none_iff_forall_ne_some]
    intro value hescape
    obtain ⟨hb, ⟨high, hx⟩, ⟨low, hy⟩⟩ := escape?_eq_some hescape
    rw [← byteOf_charOf b, ← byteOf_charOf x, ← byteOf_charOf y, hb,
      hoccurs (ascii_of_digit? hx) (ascii_of_digit? hy)] at hin
    rcases hnone _ _ hin with hnot | hnot
    · rw [hx] at hnot
      cases hnot
    · rw [hy] at hnot
      cases hnot

-- ---------------------------------------------------------------------------
-- What is read
-- ---------------------------------------------------------------------------

/-- A text that stands for itself in a URL. -/
structure Verbatim (t : Text) : Prop where
  no_query : '?' ∉ t
  no_fragment : '#' ∉ t
  no_escape : NoEscape t

theorem read?_file (t : Text) : read? ("file://".toList ++ t) =
    some (percentDecode (Utf8.encode (beforeQuery t))) := rfl

/-- Nothing is cut off exactly if there is no question mark and no hash sign. -/
theorem beforeQuery_eq_iff {t : Text} : beforeQuery t = t ↔ '?' ∉ t ∧ '#' ∉ t := by
  rw [beforeQuery, List.takeWhile_eq_self_iff]
  constructor
  · intro h
    exact ⟨fun hin => by simpa using h _ hin, fun hin => by simpa using h _ hin⟩
  · rintro ⟨hquery, hfragment⟩ c hc
    rw [Bool.and_eq_true, bne_iff_ne, bne_iff_ne]
    exact ⟨fun heq => hquery (heq ▸ hc), fun heq => hfragment (heq ▸ hc)⟩

/-- **A URL is read as the text behind its scheme exactly if the text stands for itself.** Both the
cut at the query and the decoding can only make the bytes fewer, so each of them has to leave them
alone. -/
theorem read?_file_iff {t : Text} :
    read? ("file://".toList ++ t) = some (Utf8.encode t) ↔ Verbatim t := by
  rw [read?_file, Option.some_inj]
  constructor
  · intro h
    -- neither the cut nor the decoding can have made the bytes shorter
    obtain ⟨rest, hrest⟩ : beforeQuery t <+: t := List.takeWhile_prefix _
    have hwhole : rest = [] := by
      have hbytes := length_percentDecode_le (Utf8.encode (beforeQuery t))
      have hlong := Utf8.length_le_encode rest
      have hsum := congrArg (List.length ∘ Utf8.encode) hrest
      simp only [Function.comp, Utf8.encode_append, List.length_append] at hsum
      rw [h] at hbytes
      exact List.length_eq_zero_iff.mp (by omega)
    rw [hwhole, List.append_nil] at hrest
    rw [hrest] at h
    exact ⟨(beforeQuery_eq_iff.mp hrest).1, (beforeQuery_eq_iff.mp hrest).2,
      percentDecode_encode_iff.mp h⟩
  · rintro ⟨hquery, hfragment, hescape⟩
    rw [beforeQuery_eq_iff.mpr ⟨hquery, hfragment⟩, percentDecode_encode_iff.mpr hescape]

/-- A character that is read as it stands, whatever follows it. -/
def isSafe (c : Char) : Bool := c != '?' && c != '#' && c != '%'

theorem verbatim_of_safe {t : Text} (h : ∀ c ∈ t, isSafe c = true) : Verbatim t where
  no_query := fun hin => absurd (h _ hin) (by decide)
  no_fragment := fun hin => absurd (h _ hin) (by decide)
  no_escape := fun _ _ hin => absurd (h _ (hin.subset (List.mem_cons_self ..))) (by decide)

end FileUrl

open FileUrl (Verbatim)

/-- **The URL of a file names the file exactly if its path stands for itself**: no `?`, no `#`, and
no `%` before two hexadecimal digits. That is so whenever neither the directory of the source nor
the module holds one of these three characters. -/
theorem file_url_read {i : Import} {dir : Path} (hfile : i.external = false) :
    (FileUrl.read? (i.specifier dir) =
        some (Utf8.encode (dir.join ⟨i.module⟩).resolve.text) ↔
      Verbatim (dir.join ⟨i.module⟩).resolve.text) ∧
    ((dir.text ++ i.module).all FileUrl.isSafe = true →
      Verbatim (dir.join ⟨i.module⟩).resolve.text) := by
  rw [Import.specifier_of_file hfile]
  refine ⟨FileUrl.read?_file_iff, fun hsafe => ?_⟩
  rw [List.all_eq_true] at hsafe
  refine FileUrl.verbatim_of_safe fun c hc => ?_
  rcases Path.mem_text_resolve hc with rfl | hc
  · decide
  · rcases Path.mem_text_join hc with hc | rfl | hc
    · exact hsafe c (List.mem_append_left _ hc)
    · decide
    · exact hsafe c (List.mem_append_right _ hc)

/-- A directory with a `%` that starts no escape, characters beyond ASCII, and a file that is found
above its directory. -/
theorem file_url_read_percent :
    (⟨.single, ["x".toList], "./ü b.mjs".toList, false⟩ : Import).specifier
      (.ofString "/app/100%") = "file:///app/100%/ü b.mjs".toList ∧
    Verbatim "/app/100%/ü b.mjs".toList ∧
    FileUrl.read? "file:///lib/m.mjs".toList = some (Utf8.encode "/lib/m.mjs".toList) := by
  have hpercent : FileUrl.read? ((⟨.single, ["x".toList], "./ü b.mjs".toList, false⟩ :
        Import).specifier (.ofString "/app/100%")) =
      some (Utf8.encode "/app/100%/ü b.mjs".toList) := by decide +kernel
  have hsafe : ((Path.ofString "/app").text ++ (⟨.single, ["x".toList], "../lib/m.mjs".toList,
      false⟩ : Import).module).all FileUrl.isSafe = true := by decide
  exact ⟨by decide, (file_url_read rfl).1.mp hpercent,
    (file_url_read rfl).1.mpr ((file_url_read rfl).2 hsafe)⟩

/-- A `#` or a `?` cuts the path off, and a `%` before two digits is read as another character. -/
theorem file_url_misread :
    (Import.make .single ["x".toList] "./a#b.mjs".toList).external = false ∧
    (Path.join (.ofString "/app") (.ofString "./a#b.mjs")).resolve = .ofString "/app/a#b.mjs" ∧
    FileUrl.read? ((Import.make .single ["x".toList] "./a#b.mjs".toList).specifier
      (.ofString "/app")) = some (Utf8.encode "/app/a".toList) ∧
    FileUrl.read? ((Import.make .single ["x".toList] "./a?b.mjs".toList).specifier
      (.ofString "/app")) = some (Utf8.encode "/app/a".toList) ∧
    FileUrl.read? ((Import.make .single ["x".toList] "./a%41.mjs".toList).specifier
      (.ofString "/app")) = some (Utf8.encode "/app/aA.mjs".toList) := by
  decide +kernel

end Sandscript
