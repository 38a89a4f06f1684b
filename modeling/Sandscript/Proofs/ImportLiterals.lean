import Sandscript.Proofs.BindingLists
import Sandscript.Proofs.PathSteps

/-!
# The module in an import line

An import line ends with the module between double quotes. The host reads what stands there as a
string literal: up to the next quote, with escapes taken for what they stand for, and on one line.
The module is written as it is, so the literal denotes the module if there is nothing in it that the
host would read in another way, and otherwise it does not.

* `HostLiteral.read?` — a string literal as the host reads it, with its value in 16-bit units.
* `HostLiteral.read?_eq_iff` — which texts stand for themselves between quotes.
* `plain_specifier` — where the characters of a module come from.
* `import_literal` — when the literal of an import line denotes its module.
-/

namespace Sandscript

namespace HostLiteral

-- ---------------------------------------------------------------------------
-- Values
-- ---------------------------------------------------------------------------

/-- The 16-bit units of a code point: two for those beyond the first plane. -/
def codeUnits (n : Nat) : List Nat :=
  if n < 0x10000 then [n]
  else [0xD800 + (n - 0x10000) / 0x400, 0xDC00 + (n - 0x10000) % 0x400]

/-- The value of a text as a string of the host. -/
def units (t : Text) : List Nat := t.flatMap fun c => codeUnits c.toNat

@[simp] theorem units_nil : units [] = [] := rfl

@[simp] theorem units_cons (c : Char) (t : Text) :
    units (c :: t) = codeUnits c.toNat ++ units t := rfl

@[simp] theorem units_append (a b : Text) : units (a ++ b) = units a ++ units b :=
  List.flatMap_append

theorem length_codeUnits (n : Nat) :
    1 ≤ (codeUnits n).length ∧ (codeUnits n).length ≤ 2 := by
  unfold codeUnits
  split <;> simp

/-- A text has at least as many code units as characters. -/
theorem length_le_units (t : Text) : t.length ≤ (units t).length := by
  induction t with
  | nil => rfl
  | cons c t ih =>
    have hc := (length_codeUnits c.toNat).1
    rw [units_cons, List.length_append, List.length_cons]
    omega

-- ---------------------------------------------------------------------------
-- Reading
-- ---------------------------------------------------------------------------

/-- The value of a hexadecimal digit. -/
def digit? (c : Char) : Option Nat :=
  if '0' ≤ c ∧ c ≤ '9' then some (c.toNat - '0'.toNat)
  else if 'a' ≤ c ∧ c ≤ 'f' then some (c.toNat - 'a'.toNat + 10)
  else if 'A' ≤ c ∧ c ≤ 'F' then some (c.toNat - 'A'.toNat + 10)
  else none

/-- The value of hexadecimal digits. -/
def number? (digits : Text) : Option Nat :=
  digits.foldlM (fun n c => (digit? c).map (16 * n + ·)) 0

/-- An escape by a fixed number of digits. -/
def readDigits? (count : Nat) (t : Text) : Option (List Nat × Text) :=
  if t.length < count then none
  else (number? (t.take count)).map fun n => ([n], t.drop count)

/-- An escape by digits up to a closing brace. -/
def readBraced? (t : Text) : Option (List Nat × Text) :=
  match t.dropWhile (· != '\x7d') with
  | [] => none
  | _ :: rest =>
    match number? (t.takeWhile (· != '\x7d')) with
    | none => none
    | some n =>
      if t.head? = some '\x7d' || n > 0x10FFFF then none else some (codeUnits n, rest)

/-- The characters that end a line of the host's text. -/
def isLineEnd (c : Char) : Bool :=
  c == '\n' || c == '\r' || c == Char.ofNat 0x2028 || c == Char.ofNat 0x2029

/-- What a character stands for behind a backslash, if it is neither a digit nor `x` nor `u`. -/
def escaped (c : Char) : Char :=
  match c with
  | 'b' => '\x08'
  | 't' => '\t'
  | 'n' => '\n'
  | 'v' => '\x0b'
  | 'f' => '\x0c'
  | 'r' => '\r'
  | other => other

/-- An escape by a code point. -/
def readCodePoint? (t : Text) : Option (List Nat × Text) :=
  if t.head? = some '\x7b' then readBraced? t.tail else readDigits? 4 t

/-- An escape behind its backslash. A line end is left out, and of the digits only a zero that no
further digit follows is an escape. -/
def readEscape? : Text → Option (List Nat × Text)
  | [] => none
  | c :: t =>
    if c = 'x' then readDigits? 2 t
    else if c = 'u' then readCodePoint? t
    else if c.isDigit then
      if c = '0' && !t.head?.any Char.isDigit then some ([0], t) else none
    else if c = '\r' && t.head? = some '\n' then some ([], t.tail)
    else if isLineEnd c then some ([], t)
    else some (codeUnits (escaped c).toNat, t)

-- ---------------------------------------------------------------------------
-- What is read
-- ---------------------------------------------------------------------------

/-- An escape by digits makes at most one unit more than it has characters. The bound is the same
for each form of escape, so that they can be summed up below. -/
theorem readDigits?_eq_some {count : Nat} {t rest : Text} {value : List Nat}
    (h : readDigits? count t = some (value, rest)) :
    ∃ source, t = source ++ rest ∧ value.length ≤ source.length + 1 := by
  unfold readDigits? at h
  split at h
  · cases h
  · obtain ⟨n, -, heq⟩ := Option.map_eq_some_iff.mp h
    obtain ⟨rfl, rfl⟩ := Prod.mk.inj heq
    exact ⟨t.take count, (List.take_append_drop count t).symm, by simp⟩

/-- So does an escape by braced digits. -/
theorem readBraced?_eq_some {t rest : Text} {value : List Nat}
    (h : readBraced? t = some (value, rest)) :
    ∃ source, t = source ++ rest ∧ value.length ≤ source.length + 1 := by
  unfold readBraced? at h
  split at h
  · cases h
  · next c after hdrop =>
    split at h
    · cases h
    · next n _ =>
      split at h
      · cases h
      · obtain ⟨rfl, rfl⟩ := Prod.mk.inj (Option.some.inj h)
        have hvalue := (length_codeUnits n).2
        refine ⟨t.takeWhile (· != '\x7d') ++ [c], ?_, ?_⟩
        · rw [List.append_assoc, List.singleton_append, ← hdrop, List.takeWhile_append_dropWhile]
        · rw [List.length_append, List.length_singleton]
          omega

/-- And therefore both forms of an escape by a code point. -/
theorem readCodePoint?_eq_some {t rest : Text} {value : List Nat}
    (h : readCodePoint? t = some (value, rest)) :
    ∃ source, t = source ++ rest ∧ value.length ≤ source.length + 1 := by
  unfold readCodePoint? at h
  split at h
  · next hbrace =>
    obtain ⟨digits, rfl⟩ := List.head?_eq_some_iff.mp hbrace
    obtain ⟨source, hsource, hvalue⟩ := readBraced?_eq_some h
    refine ⟨'\x7b' :: source, ?_, ?_⟩
    · rw [List.cons_append, ← hsource]
      rfl
    · rw [List.length_cons]
      omega
  · exact readDigits?_eq_some h

/-- What an escaped character stands for has no more code units than the character itself. -/
theorem length_escaped (c : Char) :
    (codeUnits (escaped c).toNat).length ≤ (codeUnits c.toNat).length := by
  unfold escaped
  split
  case h_7 => exact Nat.le_refl _
  all_goals decide

/-- An escape takes at least one character, and its value is no longer than what is read. With the
backslash it is shorter. -/
theorem readEscape?_eq_some {t rest : Text} {value : List Nat}
    (h : readEscape? t = some (value, rest)) :
    ∃ source, t = source ++ rest ∧ source ≠ [] ∧ value.length ≤ (units source).length := by
  -- an escape by number has one character more than its digits
  have hnumber : ∀ {c : Char} {t : Text},
      (∃ source, t = source ++ rest ∧ value.length ≤ source.length + 1) →
      ∃ source, c :: t = source ++ rest ∧ source ≠ [] ∧ value.length ≤ (units source).length := by
    rintro c t ⟨source, rfl, hvalue⟩
    have hlong := length_le_units (c :: source)
    rw [List.length_cons] at hlong
    exact ⟨c :: source, rfl, by simp, by omega⟩
  revert h
  fun_cases readEscape? t with
  | case1 => exact fun h => nomatch h
  | case2 t => exact fun h => hnumber (readDigits?_eq_some h)
  | case3 t => exact fun h => hnumber (readCodePoint?_eq_some h)
  | case4 c t =>
    intro h
    obtain ⟨rfl, rfl⟩ := Prod.mk.inj (Option.some.inj h)
    exact ⟨[c], rfl, by simp, length_le_units [c]⟩
  | case5 => exact fun h => nomatch h
  | case6 c t _ _ _ hbreak =>
    intro h
    obtain ⟨rfl, rfl⟩ := Prod.mk.inj (Option.some.inj h)
    have hnext : t.head? = some '\n' := by
      simpa using (Bool.and_eq_true_iff.mp hbreak).2
    obtain ⟨after, rfl⟩ := List.head?_eq_some_iff.mp hnext
    exact ⟨[c, '\n'], rfl, by simp, Nat.zero_le _⟩
  | case7 c t =>
    intro h
    obtain ⟨rfl, rfl⟩ := Prod.mk.inj (Option.some.inj h)
    exact ⟨[c], rfl, by simp, Nat.zero_le _⟩
  | case8 c t =>
    intro h
    obtain ⟨rfl, rfl⟩ := Prod.mk.inj (Option.some.inj h)
    refine ⟨[c], rfl, by simp, ?_⟩
    rw [units_cons, units_nil, List.append_nil]
    exact length_escaped c

/-- Reading an escape takes at least one character, which is what lets the reading end. -/
theorem length_of_readEscape? {t rest : Text} {value : List Nat}
    (h : readEscape? t = some (value, rest)) : rest.length < t.length := by
  obtain ⟨source, rfl, hne, -⟩ := readEscape?_eq_some h
  have hpos := List.length_pos_iff.mpr hne
  rw [List.length_append]
  omega

/-- A string literal behind its opening quote: its value, and what follows the closing quote. -/
def read? : Text → Option (List Nat × Text)
  | [] => none
  | c :: t =>
    if c = '"' then some ([], t)
    else if c = '\n' || c = '\r' then none
    else if c = '\\' then
      match _ : readEscape? t with
      | none => none
      | some (value, rest) => (read? rest).map fun found => (value ++ found.1, found.2)
    else (read? t).map fun found => (codeUnits c.toNat ++ found.1, found.2)
termination_by t => t.length
decreasing_by
  · have hshort := length_of_readEscape? ‹readEscape? t = some _›
    rw [List.length_cons]
    omega
  · rw [List.length_cons]
    omega

/-- Neither a quote nor a backslash nor a line break of the kind that ends a literal. -/
def isPlain (c : Char) : Bool := c != '"' && c != '\\' && c != '\n' && c != '\r'

/-- A text that the host reads as it stands. -/
def Plain (t : Text) : Prop := ∀ c ∈ t, isPlain c = true

instance (t : Text) : Decidable (Plain t) := List.decidableBAll (isPlain · = true) t

/-- Plain text is read as it stands. -/
theorem read?_of_plain {t : Text} (h : Plain t) (rest : Text) :
    read? (t ++ '"' :: rest) = some (units t, rest) := by
  induction t with
  | nil => simp [read?]
  | cons c t ih =>
    have hc := h c (List.mem_cons_self ..)
    simp only [isPlain, Bool.and_eq_true, bne_iff_ne] at hc
    rw [List.cons_append, read?, if_neg hc.1.1.1, if_neg (by simp [hc.1.2, hc.2]),
      if_neg hc.1.1.2, ih fun d hd => h d (List.mem_cons_of_mem _ hd)]
    rfl

/-- **A literal is never longer than its text**, and as long only if it is plain. So a literal that
denotes its own text has no escapes, and this settles the converse without looking at the escapes.
-/
theorem read?_eq_some {t rest : Text} {value : List Nat} (h : read? t = some (value, rest)) :
    ∃ body, t = body ++ '"' :: rest ∧ value.length ≤ (units body).length ∧
      (value.length = (units body).length → Plain body) := by
  fun_induction read? t generalizing value rest with
  | case1 => cases h
  | case2 t =>
    obtain ⟨rfl, rfl⟩ := Prod.mk.inj (Option.some.inj h)
    exact ⟨[], rfl, Nat.le_refl _, fun _ c hc => absurd hc List.not_mem_nil⟩
  | case3 => cases h
  | case4 => cases h
  | case5 t escape after hescape _ _ ih =>
    obtain ⟨found, hfound, heq⟩ := Option.map_eq_some_iff.mp h
    obtain ⟨rfl, rfl⟩ := Prod.mk.inj heq
    obtain ⟨body, rfl, hle, -⟩ := ih hfound
    obtain ⟨source, rfl, -, hsource⟩ := readEscape?_eq_some hescape
    -- the backslash itself is lost, so the value is shorter
    have hshort : (escape ++ found.1).length < (units ('\\' :: source ++ body)).length := by
      rw [units_append, units_cons, List.length_append, List.length_append, List.length_append]
      have hbackslash := (length_codeUnits '\\'.toNat).1
      omega
    exact ⟨'\\' :: source ++ body, by simp, Nat.le_of_lt hshort, fun heq => by omega⟩
  | case6 c t hquote hbreak hbackslash ih =>
    obtain ⟨found, hfound, heq⟩ := Option.map_eq_some_iff.mp h
    obtain ⟨rfl, rfl⟩ := Prod.mk.inj heq
    obtain ⟨body, rfl, hle, hplain⟩ := ih hfound
    refine ⟨c :: body, rfl, ?_, ?_⟩
    · rw [units_cons, List.length_append, List.length_append]
      omega
    · intro hlength
      rw [units_cons, List.length_append, List.length_append] at hlength
      intro d hd
      rcases List.mem_cons.mp hd with rfl | hd
      · simp only [Bool.or_eq_true, decide_eq_true_eq, not_or] at hbreak
        simp [isPlain, hquote, hbackslash, hbreak]
      · exact hplain (by omega) d hd

/-- **A text stands for itself between quotes exactly if it is plain.** -/
theorem read?_eq_iff {t rest : Text} :
    read? (t ++ '"' :: rest) = some (units t, rest) ↔ Plain t := by
  constructor
  · intro h
    obtain ⟨body, hbody, -, hplain⟩ := read?_eq_some h
    obtain rfl := List.append_cancel_right hbody
    exact hplain rfl
  · intro h
    exact read?_of_plain h rest

/-- Escapes by number, a line break that is left out, and a letter that stands for itself. -/
example : read? "\\x41\\u\x7b1F600\x7d\\\n\\q\";".toList =
    some (units "A😀q".toList, ";".toList) := by
  decide +kernel

end HostLiteral

open HostLiteral (Plain isPlain)

-- ---------------------------------------------------------------------------
-- The characters of a module
-- ---------------------------------------------------------------------------

namespace Path

/-- Resolving brings no part in: every part of the result was there at the start or is one of those
that were added. -/
theorem mem_foldl_resolvePart {done parts : List Text} {part : Text}
    (h : part ∈ parts.foldl resolvePart done) : part ∈ done ∨ part ∈ parts := by
  induction parts generalizing done with
  | nil => exact Or.inl h
  | cons first parts ih =>
    rcases ih h with hdone | hparts
    · unfold resolvePart at hdone
      split at hdone
      · split at hdone
        · rw [List.mem_singleton] at hdone
          exact Or.inr (by rw [hdone]; exact List.mem_cons_self ..)
        · exact Or.inl (List.mem_of_mem_dropLast hdone)
      · rcases List.mem_append.mp hdone with hdone | hfirst
        · exact Or.inl hdone
        · rw [List.mem_singleton] at hfirst
          exact Or.inr (by rw [hfirst]; exact List.mem_cons_self ..)
    · exact Or.inr (List.mem_cons_of_mem _ hparts)

/-- The body of a path is written with characters of the path. -/
theorem mem_text_of_mem_anchored {p : Path} {c : Char} (h : c ∈ p.anchored.2) : c ∈ p.text := by
  unfold anchored at h
  split at h
  · next body hbody =>
    rw [hbody]
    exact List.mem_cons_of_mem _ h
  · cases h
  · next body hbody =>
    rw [hbody]
    exact List.mem_cons_of_mem _ h
  · exact h

/-- A resolved path is spelled with the characters of the path and slashes. So a path without quotes
and backslashes is resolved to one without them. -/
theorem mem_text_resolve {p : Path} {c : Char} (h : c ∈ p.resolve.text) : c = '/' ∨ c ∈ p.text := by
  have hbody : c ∈ Text.join ['/'] p.resolvedNames → c = '/' ∨ c ∈ p.text := by
    intro hin
    rcases Text.mem_join hin with hslash | ⟨part, hpart, hc⟩
    · exact Or.inl hslash
    · rcases mem_foldl_resolvePart hpart with hnone | hname
      · exact absurd hnone List.not_mem_nil
      · have hpiece := (List.mem_filter.mp hname).1
        exact Or.inr (mem_text_of_mem_anchored (Text.mem_of_mem_split hpiece hc))
  unfold resolve at h
  dsimp only at h
  split at h
  · rcases List.mem_cons.mp h with hslash | hin
    · exact Or.inl hslash
    · exact hbody hin
  · exact hbody h

end Path

/-- What the host is told to load is plain if the module is and, for a file, the directory of the
source. The URL of a file is a fixed beginning and the resolved path. -/
theorem plain_specifier {i : Import} {dir : Path} (hmodule : Plain i.module)
    (hdir : i.external = false → Plain dir.text) : Plain (i.specifier dir) := by
  unfold Import.specifier
  split
  · exact hmodule
  · next hfile =>
    have hdir := hdir (by simpa using hfile)
    have hscheme : Plain "file://".toList := by decide
    intro c hc
    rcases List.mem_append.mp hc with hc | hc
    · exact hscheme c hc
    · rcases Path.mem_text_resolve hc with rfl | hc
      · decide
      · rcases Path.mem_text_join hc with hc | rfl | hc
        · exact hdir c hc
        · decide
        · exact hmodule c hc

-- ---------------------------------------------------------------------------
-- Import lines
-- ---------------------------------------------------------------------------

open Text (trim indent)

/-- **The literal of an import denotes its module exactly if the module is plain**, and it is plain
if the text between the quotes, or what that is an alias for, and the directory of the source are.
The literal ends where the module does exactly if the module holds no double quote. -/
theorem import_literal {ctx : Context} {s : Statement} {record : Import} {text : Text}
    (h : lower ctx s = .ok (.imported record text)) :
    text = indent s.text ++ "import ".toList ++ record.bindings ++ " from \"".toList ++
      (record.specifier ctx.sourceDir ++ "\";".toList) ∧
    (HostLiteral.read? (record.specifier ctx.sourceDir ++ "\";".toList) =
        some (HostLiteral.units (record.specifier ctx.sourceDir), ";".toList) ↔
      Plain (record.specifier ctx.sourceDir)) ∧
    ((record.specifier ctx.sourceDir ++ "\";".toList).takeWhile (· != '"') =
        record.specifier ctx.sourceDir ↔ '"' ∉ record.specifier ctx.sourceDir) ∧
    (Plain record.module → (record.external = false → Plain ctx.sourceDir.text) →
      Plain (record.specifier ctx.sourceDir)) := by
  obtain ⟨d, -, -, -, -, -, rfl⟩ := imported_cases h
  refine ⟨?_, HostLiteral.read?_eq_iff, ⟨?_, ?_⟩, plain_specifier⟩
  · unfold Import.render
    simp only [List.append_assoc]
  · intro hcut hin
    rw [← hcut] at hin
    simpa using List.mem_takeWhile_imp hin
  · intro hnone
    exact Text.takeWhile_append_sep hnone _

/-- A file whose name holds a blank and a single quote, which is found through an alias. -/
theorem import_literal_file :
    lower ⟨.ofString "/app/src", [("own".toList, "../it's mine.mjs".toList)]⟩
        ⟨"declare x from 'own'".toList, 1, 1, false⟩ =
      .ok (.imported ⟨.single, ["x".toList], "../it's mine.mjs".toList, false⟩
        "import x from \"file:///app/it's mine.mjs\";".toList) ∧
    HostLiteral.read? "file:///app/it's mine.mjs\";".toList =
      some (HostLiteral.units "file:///app/it's mine.mjs".toList, ";".toList) := by
  have hlower : lower ⟨.ofString "/app/src", [("own".toList, "../it's mine.mjs".toList)]⟩
        ⟨"declare x from 'own'".toList, 1, 1, false⟩ =
      .ok (.imported ⟨.single, ["x".toList], "../it's mine.mjs".toList, false⟩
        "import x from \"file:///app/it's mine.mjs\";".toList) := by decide
  obtain ⟨-, hread, -, hplain⟩ := import_literal hlower
  exact ⟨hlower, hread.mpr (hplain (by decide) fun _ => by decide)⟩

/-- A double quote ends the literal early, a backslash and the letter behind it become a line break,
and a line break leaves the literal open. -/
theorem module_leaves_literal :
    lower ⟨.ofString "/app", []⟩ ⟨"declare x from 'a\"b'".toList, 1, 1, false⟩ =
      .ok (.imported ⟨.single, ["x".toList], "a\"b".toList, true⟩
        "import x from \"a\"b\";".toList) ∧
    HostLiteral.read? "a\"b\";".toList =
      some (HostLiteral.units "a".toList, "b\";".toList) ∧
    lower ⟨.ofString "/app", []⟩ ⟨"declare x from \"a\\nb\"".toList, 1, 1, false⟩ =
      .ok (.imported ⟨.single, ["x".toList], "a\\nb".toList, true⟩
        "import x from \"a\\nb\";".toList) ∧
    HostLiteral.read? "a\\nb\";".toList =
      some (HostLiteral.units "a\nb".toList, ";".toList) ∧
    lower ⟨.ofString "/app", []⟩ ⟨"declare x from \"a(\nb)\"".toList, 1, 2, false⟩ =
      .ok (.imported ⟨.single, ["x".toList], "a(\nb)".toList, true⟩
        "import x from \"a(\nb)\";".toList) ∧
    HostLiteral.read? "a(\nb)\";".toList = none := by
  refine ⟨by decide, by decide +kernel, by decide, by decide +kernel, by decide, by decide +kernel⟩

end Sandscript
