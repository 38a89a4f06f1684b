import Sandscript.Proofs.Cutting
import Sandscript.Proofs.ImportPlaces

/-!
# Reading declare statements back

`Writing` is a declare statement as somebody writes it: one of the three kinds of bindings
(`Written`), a module between quotes, and blanks wherever blanks may be. The reader finds in its
text what was written, and nothing else. Two things stand against that. A text may have several
outlines, since `from` may occur among the bindings and in the module; and the forbidden keyword may
occur in the module.

* `Outline.read?_eq` — of several outlines the reader takes the one whose bindings hold no quote and
  have no blanks at their ends.
* `readBindings_written` — the bindings are taken apart as they were put together.
* `lower_writing` — hence a declare statement is lowered to the import that it asks for.
-/

namespace Sandscript

namespace Declare

open Text (isBlank trim trimEnd AllBlank Trimmed)

-- ---------------------------------------------------------------------------
-- Which outline is read
-- ---------------------------------------------------------------------------

/-- The two quotes. -/
def isQuote (c : Char) : Bool := c == '"' || c == '\''

theorem isQuote_iff {c : Char} : isQuote c = true ↔ c = '"' ∨ c = '\'' := by
  simp [isQuote]

theorem isQuote_of_isBlank {c : Char} (h : isBlank c = true) : isQuote c = false := by
  rw [Bool.eq_false_iff, Ne, isQuote_iff]
  rintro (rfl | rfl) <;> exact absurd h (by decide)

/-- Up to its first quote, a text that goes on with a quote is what stands before. -/
theorem takeWhile_quote {before : Text} (h : ∀ c ∈ before, isQuote c = false) {quote : Char}
    (hq : isQuote quote = true) (rest : Text) :
    (before ++ quote :: rest).takeWhile (!isQuote ·) = before := by
  have hall : ∀ c ∈ before, (!isQuote c) = true := fun c hc => by simp [h c hc]
  rw [List.takeWhile_append_of_pos hall]
  simp [hq]

/-- There is no quote between the bindings and the module. -/
theorem isQuote_of_mem_from {gap after : Text} (hgap : Gap gap) (hafter : Gap after) :
    ∀ c ∈ gap ++ "from".toList ++ after, isQuote c = false := by
  intro c hc
  simp only [List.mem_append] at hc
  rcases hc with (hc | hc) | hc
  · exact isQuote_of_isBlank (hgap.allBlank c hc)
  · have hword : "from".toList.all (!isQuote ·) = true := by decide
    simpa using List.all_eq_true.mp hword c hc
  · exact isQuote_of_isBlank (hafter.allBlank c hc)

/-- The gap behind the word `from` is cut off. -/
theorem trimEnd_from (before : Text) {after : Text} (hafter : Gap after) :
    trimEnd (before ++ "from".toList ++ after) = before ++ "from".toList := by
  rw [Text.trimEnd_append_of_allBlank _ hafter.allBlank]
  refine Text.trimEnd_of_last fun c hc => ?_
  have hlast : "from".toList.getLast? = some 'm' := rfl
  rw [List.getLast?_append, hlast] at hc
  obtain rfl : 'm' = c := Option.some.inj hc
  decide

/-- **The bindings do not end early.** Between a `from` among them and the first quote there is
always something else than blanks: the rest of the bindings. -/
theorem readModule?_early {rest : Text} (hne : rest ≠ [])
    (hlast : ∀ c, rest.getLast? = some c → isBlank c = false)
    (hquotes : ∀ c ∈ rest, isQuote c = false) {gap after : Text} (hgap : Gap gap)
    (hafter : Gap after) {quote : Char} (hq : quote = '"' ∨ quote = '\'') (tail : Text) :
    readModule? (rest ++ ((gap ++ "from".toList ++ after ++ [quote]) ++ tail)) = none := by
  cases hread : readModule? (rest ++ ((gap ++ "from".toList ++ after ++ [quote]) ++ tail)) with
  | none => rfl
  | some module =>
    exfalso
    obtain ⟨gap', after', quote', ending, htext, hgap', hafter', hq', -⟩ :=
      readModule?_eq_some hread
    -- the two readings agree up to the first quote
    have hfront : rest ++ gap ++ "from".toList ++ after = gap' ++ "from".toList ++ after' := by
      have hcut := congrArg (List.takeWhile (!isQuote ·)) htext
      have hleft : rest ++ ((gap ++ "from".toList ++ after ++ [quote]) ++ tail) =
          (rest ++ (gap ++ "from".toList ++ after)) ++ quote :: tail := by simp
      have hright : (gap' ++ "from".toList ++ after' ++ [quote']) ++ module ++ quote' :: ending =
          (gap' ++ "from".toList ++ after') ++ quote' :: (module ++ quote' :: ending) := by simp
      have hnone : ∀ c ∈ rest ++ (gap ++ "from".toList ++ after), isQuote c = false := by
        intro c hc
        rcases List.mem_append.mp hc with hc | hc
        · exact hquotes c hc
        · exact isQuote_of_mem_from hgap hafter c hc
      rw [hleft, hright, takeWhile_quote hnone (isQuote_iff.mpr hq),
        takeWhile_quote (isQuote_of_mem_from hgap' hafter') (isQuote_iff.mpr hq')] at hcut
      simpa using hcut
    -- so the rest of the bindings would have to be blank, and its last character is not
    have hblank : rest ++ gap = gap' := by
      have htrim := congrArg trimEnd hfront
      rw [trimEnd_from _ hafter, trimEnd_from _ hafter'] at htrim
      exact List.append_cancel_right htrim
    obtain ⟨c, hc⟩ := Option.isSome_iff_exists.mp (List.getLast?_isSome.mpr hne)
    have hin : c ∈ gap' := by
      rw [← hblank]
      exact List.mem_append_left _ (List.mem_of_getLast? hc)
    have hblank := hgap'.allBlank c hin
    rw [hlast c hc] at hblank
    exact absurd hblank (by decide)

/-- Bindings on one line are read as they are if the module follows them and nothing shorter. -/
theorem readOutline?_append {added : Text} (hne : added ≠ []) (hline : '\n' ∉ added)
    {rest module : Text} (hrest : readModule? rest = some module)
    (hearly : ∀ a b, added = a ++ b → a ≠ [] → b ≠ [] → readModule? (b ++ rest) = none)
    (taken : Text) : readOutline? taken (added ++ rest) = some (taken ++ added, module) := by
  induction added generalizing taken with
  | nil => exact absurd rfl hne
  | cons c added ih =>
    rw [List.mem_cons, not_or] at hline
    rw [List.cons_append, readOutline?, if_neg (Ne.symm hline.1)]
    by_cases hnil : added = []
    · subst hnil
      rw [List.nil_append, hrest]
    · rw [hearly [c] added rfl (by simp) hnil]
      have hnext := ih hnil hline.2
        (fun a b hab ha hb => hearly (c :: a) b (by rw [hab]; rfl) (by simp) hb) (taken ++ [c])
      simpa using hnext

/-- **Of several outlines the reader takes this one**: its bindings hold no quote, and neither end
of them is a blank. The longest gap behind the keyword is tried first, and from there the bindings
cannot end early. -/
theorem Outline.read?_eq {t : Text} {d : Declare} (o : Outline t d) (htrim : Trimmed d.bindings)
    (hquotes : ∀ c ∈ d.bindings, isQuote c = false) : read? t = some d := by
  obtain ⟨first, bindings, hfirst⟩ := List.exists_cons_of_ne_nil o.bindings_ne_nil
  obtain ⟨c, blanks, hspace⟩ := List.exists_cons_of_ne_nil o.space_gap.nonempty
  set tail := (o.gap ++ "from".toList ++ o.after ++ [o.quote]) ++ d.module ++ o.quote :: o.ending
    with htail
  have hkeyword : keyword.isPrefixOf? t = some (o.space ++ (d.bindings ++ tail)) := by
    have htext : keyword ++ (o.space ++ (d.bindings ++ tail)) = d.lead ++ d.bindings ++
        (o.gap ++ "from".toList ++ o.after ++ [o.quote]) ++ d.module ++ o.quote :: o.ending := by
      rw [o.lead_eq, htail]
      simp
    exact List.isPrefixOf?_eq_some_iff_append_eq.mpr (htext.trans o.text_eq.symm)
  have hblanks : (o.space ++ (d.bindings ++ tail)).takeWhile isBlank = o.space := by
    have hhead : isBlank first = false := htrim.head first (by rw [hfirst]; rfl)
    rw [List.takeWhile_append_of_pos o.space_gap.allBlank, hfirst]
    simp [hhead]
  have hmodule : readModule? tail = some d.module := readModule?_append o.gap_gap o.after_gap
    o.quote_eq o.module_ne_nil o.quote_notMem o.ending_ending
  -- after a part of the bindings no module follows, so they are not cut short
  have hearly : ∀ a b, d.bindings = a ++ b → a ≠ [] → b ≠ [] → readModule? (b ++ tail) = none := by
    intro a b hab _ hb
    have hend : ∀ c, b.getLast? = some c → isBlank c = false := by
      intro c hc
      refine htrim.last c ?_
      rw [hab, List.getLast?_append, hc]
      rfl
    have hnone : ∀ c ∈ b, isQuote c = false := fun c hc =>
      hquotes c (by rw [hab]; exact List.mem_append_right _ hc)
    rw [htail, List.append_assoc]
    exact readModule?_early hb hend hnone o.gap_gap o.after_gap o.quote_eq _
  have houtline := readOutline?_append o.bindings_ne_nil o.newline_notMem hmodule hearly []
  have hdrop : (o.space ++ (d.bindings ++ tail)).drop (blanks.length + 1) = d.bindings ++ tail := by
    rw [hspace, show blanks.length + 1 = (c :: blanks).length from rfl, List.drop_left]
  have htake : (o.space ++ (d.bindings ++ tail)).take (blanks.length + 1) = o.space := by
    rw [hspace, show blanks.length + 1 = (c :: blanks).length from rfl, List.take_left]
  -- all blanks go to the keyword, and then the bindings are found at once
  have hlength : o.space.length = blanks.length + 1 := by rw [hspace, List.length_cons]
  simp only [read?, Option.bind_eq_bind, hkeyword, Option.bind_some, hblanks, hlength,
    List.range_succ, List.reverse_append, List.reverse_singleton, List.singleton_append,
    List.findSome?_cons, hdrop, htake, houtline]
  rw [← o.lead_eq]
  rfl

-- ---------------------------------------------------------------------------
-- Bindings as they are written
-- ---------------------------------------------------------------------------

/-- Spaces and tabs. -/
def Pad (t : Text) : Prop := ∀ c ∈ t, c = ' ' ∨ c = '\t'

instance (t : Text) : Decidable (Pad t) := List.decidableBAll (fun c => c = ' ' ∨ c = '\t') t

theorem Pad.allBlank {t : Text} (h : Pad t) : AllBlank t := by
  intro c hc
  rcases h c hc with rfl | rfl <;> decide

/-- An entry of a list of names: an identifier, or one that gets another name. -/
inductive IsEntry : Text → Prop where
  | plain {name : Text} (hname : isIdentifier name = true) : IsEntry name
  | renamed {name other before after : Text} (hname : isIdentifier name = true)
      (hother : isIdentifier other = true) (hbefore : Pad before) (hbefore_ne : before ≠ [])
      (hafter : Pad after) (hafter_ne : after ≠ []) :
      IsEntry (name ++ before ++ "as".toList ++ after ++ other)

/-- An entry with the spaces and tabs around it. -/
structure Placed where
  before : Text
  name : Text
  after : Text
  pad_before : Pad before
  isEntry : IsEntry name
  pad_after : Pad after

/-- The text of an entry in its place. -/
def Placed.text (p : Placed) : Text := p.before ++ p.name ++ p.after

/-- How bindings are written: their kind, the names that an import has for them, and the text. -/
inductive Written : BindingKind → List Text → Text → Prop where
  | single {name : Text} (hname : isIdentifier name = true) : Written .single [name] name
  | whole {name before after : Text} (hname : isIdentifier name = true) (hbefore : Pad before)
      (hafter : Pad after) (hafter_ne : after ≠ []) :
      Written .whole ["* as ".toList ++ name] ('*' :: before ++ "as".toList ++ after ++ name)
  /-- A comma may follow the last entry. -/
  | named {placed : List Placed} (hne : placed ≠ []) {comma : Option Text}
      (hcomma : ∀ pad ∈ comma, Pad pad) :
      Written .named (placed.map Placed.name)
        ('\x7b' :: Text.join [','] (placed.map Placed.text ++ comma.toList) ++ ['\x7d'])

-- ---------------------------------------------------------------------------
-- Their characters
-- ---------------------------------------------------------------------------

/-- The characters of bindings. -/
def isBindingChar (c : Char) : Bool :=
  isIdentifierRest c || c == ' ' || c == '\t' || c == '*' || c == ',' || c == '\x7b' || c == '\x7d'

/-- All characters of an identifier may stand inside one. -/
theorem isIdentifierRest_of_isIdentifier {name : Text} (h : isIdentifier name = true) :
    ∀ c ∈ name, isIdentifierRest c = true := by
  cases name with
  | nil => exact fun c hc => absurd hc List.not_mem_nil
  | cons first rest =>
    rw [isIdentifier, Bool.and_eq_true] at h
    intro c hc
    rcases List.mem_cons.mp hc with rfl | hc
    · have hstart := h.1
      unfold isIdentifierStart at hstart
      unfold isIdentifierRest Char.isAlphanum
      simp only [Bool.or_eq_true] at hstart ⊢
      tauto
    · exact List.all_eq_true.mp h.2 c hc

theorem ne_nil_of_isIdentifier {name : Text} (h : isIdentifier name = true) : name ≠ [] := by
  rintro rfl
  exact absurd h (by decide)

theorem isBlank_of_isIdentifierRest {c : Char} (h : isIdentifierRest c = true) :
    isBlank c = false := by
  have hall : Text.blanks.all (!isIdentifierRest ·) = true := by decide
  by_contra hblank
  have hc := List.all_eq_true.mp hall c (Text.mem_blanks (by simpa using hblank))
  simp [h] at hc

theorem trimmed_identifier {name : Text} (h : isIdentifier name = true) : Trimmed name := by
  have hrest := isIdentifierRest_of_isIdentifier h
  exact ⟨fun c hc => isBlank_of_isIdentifierRest (hrest c (List.mem_of_head? hc)),
    fun c hc => isBlank_of_isIdentifierRest (hrest c (List.mem_of_getLast? hc))⟩

theorem isBindingChar_of_rest {c : Char} (h : isIdentifierRest c = true) :
    isBindingChar c = true := by
  simp [isBindingChar, h]

theorem isBindingChar_of_pad {t : Text} (h : Pad t) : ∀ c ∈ t, isBindingChar c = true := by
  intro c hc
  rcases h c hc with rfl | rfl <;> decide

/-- A text is trimmed if what it starts and what it ends with are. -/
theorem trimmed_of_ends {first last : Text} (hfirst : Trimmed first) (hne : first ≠ [])
    (hlast : Trimmed last) (hne' : last ≠ []) (middle : Text) :
    Trimmed (first ++ middle ++ last) := by
  constructor
  · intro c hc
    obtain ⟨d, rest, rfl⟩ := List.exists_cons_of_ne_nil hne
    exact hfirst.head c hc
  · exact hlast.last_append hne' (first ++ middle)

/-- An entry of a braced list is written without blanks at its ends. -/
theorem IsEntry.trimmed {name : Text} (h : IsEntry name) : Trimmed name := by
  cases h with
  | plain hname => exact trimmed_identifier hname
  | @renamed name other before after hname hother _ _ _ _ =>
    have hends := trimmed_of_ends (trimmed_identifier hname) (ne_nil_of_isIdentifier hname)
      (trimmed_identifier hother) (ne_nil_of_isIdentifier hother) (before ++ "as".toList ++ after)
    simpa using hends

theorem IsEntry.ne_nil {name : Text} (h : IsEntry name) : name ≠ [] := by
  cases h with
  | plain hname => exact ne_nil_of_isIdentifier hname
  | renamed => simp

/-- A comma stands in no entry, and no other character that is not of bindings: an entry is one
name, or two with `as` and padding between them. -/
theorem IsEntry.chars {name : Text} (h : IsEntry name) :
    ',' ∉ name ∧ ∀ c ∈ name, isBindingChar c = true := by
  have hidentifier : ∀ {name : Text}, isIdentifier name = true →
      ∀ c ∈ name, c ≠ ',' ∧ isBindingChar c = true := by
    intro name hname c hc
    have hrest := isIdentifierRest_of_isIdentifier hname c hc
    refine ⟨?_, isBindingChar_of_rest hrest⟩
    rintro rfl
    exact absurd hrest (by decide)
  have hpad : ∀ {t : Text}, Pad t → ∀ c ∈ t, c ≠ ',' ∧ isBindingChar c = true := by
    intro t ht c hc
    rcases ht c hc with rfl | rfl <;> decide
  -- so it is for each of the pieces that an entry is made of
  have hall : ∀ c ∈ name, c ≠ ',' ∧ isBindingChar c = true := by
    cases h with
    | plain hname => exact hidentifier hname
    | renamed hname hother hbefore _ hafter _ =>
      intro c hc
      simp only [List.mem_append] at hc
      rcases hc with (((hc | hc) | hc) | hc) | hc
      · exact hidentifier hname c hc
      · exact hpad hbefore c hc
      · rcases List.mem_cons.mp hc with rfl | hc
        · decide
        · obtain rfl := List.mem_singleton.mp hc
          decide
      · exact hpad hafter c hc
      · exact hidentifier hother c hc
  exact ⟨fun hin => (hall _ hin).1 rfl, fun c hc => (hall c hc).2⟩

/-- A name with its padding has no comma, so that the list is cut between the names and not inside
them. -/
theorem Placed.chars (p : Placed) : ',' ∉ p.text ∧ ∀ c ∈ p.text, isBindingChar c = true := by
  obtain ⟨hcomma, hchars⟩ := p.isEntry.chars
  have hpad : ∀ {t : Text}, Pad t → ',' ∉ t := fun ht =>
    ht.allBlank.notMem (by decide)
  constructor
  · simp only [Placed.text, List.mem_append, not_or]
    exact ⟨⟨hpad p.pad_before, hcomma⟩, hpad p.pad_after⟩
  · intro c hc
    simp only [Placed.text, List.mem_append] at hc
    rcases hc with (hc | hc) | hc
    · exact isBindingChar_of_pad p.pad_before c hc
    · exact hchars c hc
    · exact isBindingChar_of_pad p.pad_after c hc

/-- The pieces between the commas of a list hold no comma, and only characters of bindings. -/
theorem chars_of_piece {placed : List Placed} {comma : Option Text}
    (hcomma : ∀ pad ∈ comma, Pad pad) {piece : Text}
    (h : piece ∈ placed.map Placed.text ++ comma.toList) :
    ',' ∉ piece ∧ ∀ c ∈ piece, isBindingChar c = true := by
  rcases List.mem_append.mp h with h | h
  · obtain ⟨p, -, rfl⟩ := List.mem_map.mp h
    exact p.chars
  · have hpad : Pad piece := hcomma piece (Option.mem_toList.mp h)
    exact ⟨hpad.allBlank.notMem (by decide), isBindingChar_of_pad hpad⟩

/-- Bindings are written with characters that the reader of the statement takes for bindings. In
particular they hold no quote and no line break, so that the module is found behind them and on the
same line. -/
theorem Written.chars {kind : BindingKind} {names : List Text} {t : Text}
    (h : Written kind names t) : ∀ c ∈ t, isBindingChar c = true := by
  have hidentifier : ∀ {name : Text}, isIdentifier name = true →
      ∀ c ∈ name, isBindingChar c = true := fun hname c hc =>
    isBindingChar_of_rest (isIdentifierRest_of_isIdentifier hname c hc)
  cases h with
  | single hname => exact hidentifier hname
  | whole hname hbefore hafter _ =>
    intro c hc
    simp only [List.cons_append, List.mem_cons, List.mem_append] at hc
    rcases hc with rfl | ((hc | hc) | hc) | hc
    · decide
    · exact isBindingChar_of_pad hbefore c hc
    · rcases List.mem_cons.mp hc with rfl | hc
      · decide
      · obtain rfl := List.mem_singleton.mp hc
        decide
    · exact isBindingChar_of_pad hafter c hc
    · exact hidentifier hname c hc
  | named _ hcomma =>
    intro c hc
    simp only [List.cons_append, List.mem_cons, List.mem_append, List.not_mem_nil, or_false] at hc
    rcases hc with rfl | hc | rfl
    · decide
    · rcases Text.mem_join hc with rfl | ⟨piece, hpiece, hin⟩
      · decide
      · exact (chars_of_piece hcomma hpiece).2 c hin
    · decide

theorem Written.ne_nil {kind : BindingKind} {names : List Text} {t : Text}
    (h : Written kind names t) : t ≠ [] := by
  cases h with
  | single hname => exact ne_nil_of_isIdentifier hname
  | whole => simp
  | named => simp

/-- Bindings have no blanks at their ends. -/
theorem Written.trimmed {kind : BindingKind} {names : List Text} {t : Text}
    (h : Written kind names t) : Trimmed t := by
  have hchar : ∀ c, isBlank c = false → Trimmed [c] := by
    intro c hc
    constructor <;> · intro d hd; obtain rfl : c = d := Option.some.inj hd; exact hc
  cases h with
  | single hname => exact trimmed_identifier hname
  | @whole name before after hname _ _ _ =>
    have hends := trimmed_of_ends (hchar '*' (by decide)) (by simp) (trimmed_identifier hname)
      (ne_nil_of_isIdentifier hname) (before ++ "as".toList ++ after)
    simpa using hends
  | @named placed _ comma _ =>
    exact trimmed_of_ends (hchar '\x7b' (by decide)) (by simp) (hchar '\x7d' (by decide))
      (by simp) (Text.join [','] (placed.map Placed.text ++ comma.toList))

-- ---------------------------------------------------------------------------
-- Taking them apart
-- ---------------------------------------------------------------------------

theorem trim_placed (p : Placed) : trim p.text = p.name :=
  Text.trim_append p.pad_before.allBlank p.isEntry.trimmed p.pad_after.allBlank

/-- The entries of a list are its names, in order. Cutting at commas undoes the joining, trimming
takes the padding off, and a last comma leaves an empty entry, which is dropped. -/
theorem entries_join {placed : List Placed} (hne : placed ≠ []) {comma : Option Text}
    (hcomma : ∀ pad ∈ comma, Pad pad) :
    entries (Text.join [','] (placed.map Placed.text ++ comma.toList)) =
      placed.map Placed.name := by
  have hpieces : placed.map Placed.text ++ comma.toList ≠ [] := by simp [hne]
  have hnames : (placed.map Placed.text).map trim = placed.map Placed.name := by
    rw [List.map_map]
    exact List.map_congr_left fun p _ => trim_placed p
  have hkept : (placed.map Placed.name).filter (!·.isEmpty) = placed.map Placed.name := by
    rw [List.filter_eq_self]
    intro name hname
    obtain ⟨p, -, rfl⟩ := List.mem_map.mp hname
    simp [p.isEntry.ne_nil]
  have hdropped : (comma.toList.map trim).filter (!·.isEmpty) = [] := by
    rw [List.filter_eq_nil_iff]
    intro t ht
    obtain ⟨pad, hpad, rfl⟩ := List.mem_map.mp ht
    have hblank := (hcomma pad (Option.mem_toList.mp hpad)).allBlank
    simp [Text.trim_eq_nil_iff.mpr hblank]
  rw [entries, Text.split_join hpieces,
    Text.flatMap_split_of_notMem fun piece hpiece => (chars_of_piece hcomma hpiece).1,
    List.map_append, List.filter_append, hnames, hkept, hdropped, List.append_nil]

/-- The bindings that are accepted, with their kind and the names that an import gets for them. -/
inductive Accepted : Text → BindingKind → List Text → Prop where
  | single {name : Text} (hname : isIdentifier name = true) : Accepted name .single [name]
  | whole {before after name : Text} (hbefore : AllBlank before) (hafter : AllBlank after)
      (hname : isIdentifier name = true) :
      Accepted ('*' :: before ++ "as".toList ++ after ++ name) .whole ["* as ".toList ++ name]
  | named {inner : Text} (hne : entries inner ≠ []) :
      Accepted ('\x7b' :: inner ++ ['\x7d']) .named (entries inner)

/-- What stands between braces is everything between the first and the last character, if these are
braces. -/
theorem braced?_eq_some_iff {t inner : Text} :
    braced? t = some inner ↔ t = '\x7b' :: inner ++ ['\x7d'] := by
  constructor
  · intro h
    unfold braced? at h
    split at h
    · next rest =>
      split at h
      · next hlast =>
        obtain rfl := Option.some.inj h
        rw [List.cons_append, List.dropLast_append_getLast? _ hlast]
      · cases h
    · cases h
  · rintro rfl
    rw [List.cons_append, braced?, List.getLast?_concat, if_pos rfl, List.dropLast_concat]

/-- A text that does not start with a brace is no list of names. -/
theorem braced?_eq_none {c : Char} (hc : c ≠ '\x7b') (t : Text) : braced? (c :: t) = none := by
  rw [Option.eq_none_iff_forall_ne_some]
  intro inner h
  exact hc (List.cons.inj (braced?_eq_some_iff.mp h)).1

/-- What follows the star is taken apart at the first `as` behind blanks. -/
theorem isPrefixOf?_as {before : Text} (hbefore : AllBlank before) (t : Text) :
    "as".toList.isPrefixOf? (Text.trimStart (before ++ "as".toList ++ t)) = some t := by
  have hstart : Text.trimStart (before ++ "as".toList ++ t) = "as".toList ++ t := by
    rw [List.append_assoc, Text.trimStart_append_of_allBlank hbefore]
    exact Text.trimStart_cons_of_not_blank (by decide) _
  rw [hstart]
  exact List.isPrefixOf?_eq_some_iff_append_eq.mpr rfl

/-- A star, blanks, `as` and a name behind further blanks or none. -/
theorem accepted_whole {rest after : Text} (ht : Trimmed ('*' :: rest))
    (hword : "as".toList.isPrefixOf? (Text.trimStart rest) = some after)
    (hname : isIdentifier (trim after) = true) :
    Accepted ('*' :: rest) .whole ["* as ".toList ++ trim after] := by
  have hrest : '*' :: rest = ('*' :: Text.indent rest ++ "as".toList) ++ after := by
    rw [List.append_assoc, List.cons_append, List.isPrefixOf?_eq_some_iff_append_eq.mp hword,
      Text.indent_append_trimStart]
  -- the bindings have no blanks at their end, so there are none behind the name
  have hafter : Text.indent after ++ trim after = after := by
    refine Text.indent_append_trim fun c hc => ht.last c ?_
    rw [hrest, List.getLast?_append, hc]
    rfl
  have htext : '*' :: rest =
      '*' :: Text.indent rest ++ "as".toList ++ Text.indent after ++ trim after := by
    rw [List.append_assoc, hafter]
    exact hrest
  rw [htext]
  exact .whole (Text.allBlank_indent rest) (Text.allBlank_indent after) hname

/-- Whatever the reader takes is accepted, with the kind and the names it gives. One case for each
branch of the reader; it tells the forms apart by their first character. -/
theorem accepted_of_readBindings {kind : BindingKind} {names : List Text} {t : Text}
    (ht : Trimmed t) (h : readBindings t = .ok (kind, names)) : Accepted t kind names := by
  unfold readBindings at h
  split at h
  · -- a braced list
    next inner hinner =>
    obtain rfl := braced?_eq_some_iff.mp hinner
    dsimp only at h
    split at h
    · cases h
    · next hne =>
      obtain ⟨rfl, rfl⟩ := Prod.mk.inj (Except.ok.inj h)
      exact .named (by simpa using hne)
  · split at h
    · dsimp only at h
      split at h
      · next after hword =>
        split at h
        · next hname =>
          obtain ⟨rfl, rfl⟩ := Prod.mk.inj (Except.ok.inj h)
          exact accepted_whole ht hword hname
        · cases h
      · cases h
    · split at h
      · next hname =>
        obtain ⟨rfl, rfl⟩ := Prod.mk.inj (Except.ok.inj h)
        exact .single hname
      · cases h

/-- Whatever is accepted is read, with this kind and these names. With the lemma before, acceptance
is the reader said without its steps, and later proofs do not look at the reader again. -/
theorem Accepted.readBindings_eq {kind : BindingKind} {names : List Text} {t : Text}
    (h : Accepted t kind names) : readBindings t = .ok (kind, names) := by
  cases h with
  | @single name hname =>
    -- an identifier starts with neither a brace nor a star
    obtain ⟨c, rest, rfl⟩ := List.exists_cons_of_ne_nil (ne_nil_of_isIdentifier hname)
    have hc := isIdentifierRest_of_isIdentifier hname c (List.mem_cons_self ..)
    have hbrace : c ≠ '\x7b' := by
      rintro rfl
      exact absurd hc (by decide)
    unfold readBindings
    rw [braced?_eq_none hbrace]
    dsimp only
    split
    · next heq =>
      obtain ⟨rfl, -⟩ := List.cons.inj heq
      exact absurd hc (by decide)
    · rw [if_pos hname]
  | @whole before after name hbefore hafter hname =>
    -- the blanks behind `as` are trimmed off the name
    have hname' : trim (after ++ name) = name := by
      have htrim := Text.trim_append hafter (trimmed_identifier hname) (b := [])
        fun c hc => absurd hc List.not_mem_nil
      rwa [List.append_nil] at htrim
    have htext : '*' :: before ++ "as".toList ++ after ++ name =
        '*' :: (before ++ "as".toList ++ (after ++ name)) := by simp
    rw [htext]
    unfold readBindings
    rw [braced?_eq_none (by decide)]
    simp only [isPrefixOf?_as hbefore, hname', if_pos hname]
  | named hne =>
    unfold readBindings
    rw [braced?_eq_some_iff.mpr rfl]
    dsimp only
    rw [if_neg (by simpa using hne)]

/-- **Bindings are taken apart as they were put together.** -/
theorem readBindings_written {kind : BindingKind} {names : List Text} {t : Text}
    (h : Written kind names t) : readBindings t = .ok (kind, names) := by
  cases h with
  | single hname => exact (Accepted.single hname).readBindings_eq
  | whole hname hbefore hafter _ =>
    exact (Accepted.whole hbefore.allBlank hafter.allBlank hname).readBindings_eq
  | @named placed hne comma hcomma =>
    have hentries := entries_join hne hcomma
    rw [← hentries]
    exact (Accepted.named (by rw [hentries]; simpa using hne)).readBindings_eq

-- ---------------------------------------------------------------------------
-- Whole statements
-- ---------------------------------------------------------------------------

/-- The end of a statement is a `;` or nothing, and blanks behind. -/
theorem Ending.cut {t : Text} (h : Ending t) :
    ∃ kept blanks, t = kept ++ blanks ∧ AllBlank blanks ∧ Ending kept ∧
      (kept = [] ∨ kept.getLast? = some ';') := by
  rcases h with hblank | ⟨a, b, rfl, ha, hb⟩
  · exact ⟨[], t, rfl, hblank, Or.inl fun c hc => absurd hc List.not_mem_nil, Or.inl rfl⟩
  · refine ⟨a ++ [';'], b, by simp, hb, Or.inr ⟨a, [], rfl, ha, ?_⟩, Or.inr ?_⟩
    · exact fun c hc => absurd hc List.not_mem_nil
    · exact List.getLast?_concat ..

/-- A declare statement as it is written. The forbidden keyword is not among the bindings. -/
structure Writing where
  indent : Text
  /-- The blanks after the keyword. -/
  space : Text
  kind : BindingKind
  /-- The bindings as an import has them. -/
  names : List Text
  /-- The bindings as they are written. -/
  bindings : Text
  /-- The blanks before `from`. -/
  gap : Text
  /-- The blanks after `from`. -/
  after : Text
  quote : Char
  module : Text
  ending : Text
  blank_indent : AllBlank indent
  space_gap : Gap space
  written : Written kind names bindings
  no_import : Text.hasWord importWord bindings = false
  gap_gap : Gap gap
  after_gap : Gap after
  quote_eq : quote = '"' ∨ quote = '\''
  module_ne_nil : module ≠ []
  quote_notMem : quote ∉ module
  ending_ending : Ending ending

namespace Writing

/-- The text of a declare statement from its keyword to the end that is given. -/
def textTo (w : Writing) (ending : Text) : Text :=
  keyword ++ w.space ++ w.bindings ++ (w.gap ++ "from".toList ++ w.after ++ [w.quote]) ++
    w.module ++ w.quote :: ending

/-- The text of a declare statement. -/
def text (w : Writing) : Text := w.indent ++ w.textTo w.ending

/-- The import that a declare statement asks for. -/
def record (w : Writing) (aliases : List (Text × Text)) : Import :=
  { kind := w.kind
    names := w.names
    module := resolveAlias aliases w.module
    external := isExternal (resolveAlias aliases w.module) }

/-- What is read of a declare statement. -/
def outline (w : Writing) {ending : Text} (h : Ending ending) :
    Outline (w.textTo ending) ⟨keyword ++ w.space, w.bindings, w.module⟩ where
  space := w.space
  gap := w.gap
  after := w.after
  quote := w.quote
  ending := ending
  text_eq := rfl
  lead_eq := rfl
  space_gap := w.space_gap
  gap_gap := w.gap_gap
  after_gap := w.after_gap
  bindings_ne_nil := w.written.ne_nil
  newline_notMem hin := absurd (w.written.chars _ hin) (by decide)
  quote_eq := w.quote_eq
  module_ne_nil := w.module_ne_nil
  quote_notMem := w.quote_notMem
  ending_ending := h

/-- A written declaration is read back into its three parts, whichever ending it has. -/
theorem read?_textTo (w : Writing) {ending : Text} (h : Ending ending) :
    read? (w.textTo ending) = some ⟨keyword ++ w.space, w.bindings, w.module⟩ := by
  refine (w.outline h).read?_eq w.written.trimmed fun c hc => ?_
  have hchar := w.written.chars c hc
  rw [Bool.eq_false_iff, Ne, isQuote_iff]
  rintro (rfl | rfl) <;> exact absurd hchar (by decide)

/-- A written declaration has no blanks at its ends, if its ending has none. -/
theorem trimmed_textTo (w : Writing) {ending : Text}
    (h : ending = [] ∨ ending.getLast? = some ';') : Trimmed (w.textTo ending) := by
  constructor
  · intro c hc
    obtain rfl : 'd' = c := Option.some.inj hc
    decide
  · intro c hc
    rw [textTo, List.getLast?_append, List.getLast?_cons] at hc
    have hlast : ending.getLast?.getD w.quote = c := Option.some.inj hc
    rcases h with rfl | hend
    · rw [← hlast]
      rcases w.quote_eq with hq | hq <;> rw [hq] <;> decide
    · rw [hend] at hlast
      obtain rfl : ';' = c := hlast
      decide

end Writing

end Declare

open Declare (Writing)

/-- **A declare statement is lowered to the import that it asks for.** Its bindings are those that
were written, in order; its module is the one between the quotes, or what that is an alias for; and
the import line is ended as it stands. -/
theorem lower_writing (w : Writing) (ctx : Context) (s : Statement) (hs : s.text = w.text) :
    lower ctx s = .ok (.imported (w.record ctx.aliases)
      (w.indent ++ (w.record ctx.aliases).render ctx.sourceDir)) ∧
    Terminator.terminate (w.indent ++ (w.record ctx.aliases).render ctx.sourceDir) =
      w.indent ++ (w.record ctx.aliases).render ctx.sourceDir := by
  -- the blanks behind the end of the statement are trimmed with the indentation
  obtain ⟨kept, blanks, hending, hblanks, hkept, hlast⟩ := w.ending_ending.cut
  have htext : s.text = w.indent ++ w.textTo kept ++ blanks := by
    rw [hs, Writing.text, hending, Writing.textTo, Writing.textTo]
    simp
  have hbody := w.trimmed_textTo hlast
  have hne : w.textTo kept ≠ [] := by simp [Writing.textTo]
  have htrim : Text.trim s.text = w.textTo kept := by
    rw [htext]
    exact Text.trim_append w.blank_indent hbody hblanks
  have hindent : Text.indent s.text = w.indent := by
    rw [htext]
    exact Text.indent_append w.blank_indent hbody hne blanks
  have hread := w.read?_textTo hkept
  -- of the bindings, where the check looks, nothing is the keyword
  have hallowed : forbiddenLine? s = none := by
    have hword := w.no_import
    rw [Text.hasWord, Option.isSome_eq_false_iff, Option.isNone_iff_eq_none] at hword
    unfold forbiddenLine? checkedRegion
    rw [htrim, hread]
    dsimp only
    rw [hword]
    rfl
  have hblank : s.isBlank = false := by
    rw [Statement.isBlank, htrim]
    simpa using hne
  obtain ⟨hmeant, hfunction⟩ := isMeant_of_hasForm ⟨_, ⟨w.outline hkept⟩⟩
  have hrecord : Declare.toImport ctx.aliases (w.textTo kept) = .ok (w.record ctx.aliases) := by
    have hbindings : Text.trim w.bindings = w.bindings := by
      have hnone : Text.AllBlank [] := fun c hc => absurd hc List.not_mem_nil
      simpa using Text.trim_append hnone w.written.trimmed hnone
    unfold Declare.toImport
    rw [hread]
    dsimp only
    rw [hbindings, Declare.readBindings_written w.written]
    rfl
  have hlower : lower ctx s = .ok (.imported (w.record ctx.aliases)
      (w.indent ++ (w.record ctx.aliases).render ctx.sourceDir)) := by
    simp only [lower, lowerText, hallowed, hblank, htrim, hindent, hfunction, hmeant, hrecord,
      if_true, Bool.false_eq_true, if_false]
  exact ⟨hlower, emitted_of_imported (lowers_of_lower hlower).2⟩

namespace Declare

/-- Bindings that are called like keywords, and a module that holds `from`, the forbidden keyword,
the logging alias and the other quote. -/
def awkward : Writing where
  indent := "  ".toList
  space := " ".toList
  kind := .named
  names := ["from as log".toList, "as".toList]
  bindings := "\x7b from as log,\tas , \x7d".toList
  gap := " ".toList
  after := "\t".toList
  quote := '\''
  module := "import log( from \"x\"".toList
  ending := " ; ".toList
  blank_indent := by decide
  space_gap := ⟨by decide, by decide⟩
  written := @Written.named
    [⟨" ".toList, "from".toList ++ " ".toList ++ "as".toList ++ " ".toList ++ "log".toList,
        [], by decide, .renamed (by decide) (by decide) (by decide) (by decide) (by decide)
        (by decide), by decide⟩,
      ⟨"\t".toList, "as".toList, " ".toList, by decide, .plain (by decide), by decide⟩]
    (by simp) (some " ".toList) (by decide)
  no_import := by decide
  gap_gap := ⟨by decide, by decide⟩
  after_gap := ⟨by decide, by decide⟩
  quote_eq := by decide
  module_ne_nil := by decide
  quote_notMem := by decide
  ending_ending := Or.inr ⟨" ".toList, " ".toList, rfl, by decide, by decide⟩

end Declare

/-- The statement is read as it is written, and the alias for its module is resolved. -/
theorem lower_writing_awkward :
    Declare.awkward.text =
      "  declare \x7b from as log,\tas , \x7d from\t'import log( from \"x\"' ; ".toList ∧
    lower ⟨.ofString "/app", [("import log( from \"x\"".toList, "./x.mjs".toList)]⟩
        ⟨Declare.awkward.text, 1, 1, false⟩ =
      .ok (.imported ⟨.named, ["from as log".toList, "as".toList], "./x.mjs".toList, false⟩
        "  import \x7b from as log, as \x7d from \"file:///app/x.mjs\";".toList) := by
  have hlower := (lower_writing Declare.awkward
    ⟨.ofString "/app", [("import log( from \"x\"".toList, "./x.mjs".toList)]⟩
    ⟨Declare.awkward.text, 1, 1, false⟩ rfl).1
  refine ⟨by decide, hlower.trans ?_⟩
  decide

end Sandscript
