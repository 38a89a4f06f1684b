import Sandscript.Proofs.BindingLists
import Sandscript.Proofs.PathSteps

/-!
# Which modules are files

Whether a module is a file or is looked up by name is decided from its path: from how it starts, or
from the extension of its last name. A path is taken apart into names for this, and what is empty or
a lone dot counts as no name. Here the same is said of the module's text: take away every `/` and
every `/.` at its end, and look at what follows the last `/`.

* `Path.getLast?_names_iff` — the last name of a path, found in its text;
* `Path.extension?_eq_some_iff` — the extension of a name, found in its text;
* `isExternal_eq_false_iff` — which modules are files;
* `module_kind` — an import is of the kind of the module that it names in the end.
-/

namespace Sandscript

namespace Text

-- ---------------------------------------------------------------------------
-- The end of a text
-- ---------------------------------------------------------------------------

/-- What is left of a text, read backwards, when every `/` and `/.` at its end is taken away. -/
def skipDirEnds : Text → Text
  | '/' :: t => skipDirEnds t
  | '.' :: '/' :: t => skipDirEnds t
  | t => t

/-- A text without every `/` and every `/.` at its end. -/
def withoutDirEnds (t : Text) : Text := (skipDirEnds t.reverse).reverse

/-- The part of a text that follows its last `/`. -/
def EndsInPart (t part : Text) : Prop :=
  '/' ∉ part ∧ ∃ front, t = front ++ part ∧ (front = [] ∨ ∃ before, front = before ++ ['/'])

/-- Every text ends in some part. -/
theorem exists_endsInPart (t : Text) : ∃ part, EndsInPart t part := by
  induction t using List.reverseRecOn with
  | nil => exact ⟨[], List.not_mem_nil, [], rfl, Or.inl rfl⟩
  | append_singleton t c ih =>
    by_cases hc : c = '/'
    · subst hc
      exact ⟨[], List.not_mem_nil, t ++ ['/'], by simp, Or.inr ⟨t, rfl⟩⟩
    · obtain ⟨part, hpart, front, rfl, hfront⟩ := ih
      refine ⟨part ++ [c], ?_, front, by simp, hfront⟩
      simpa using ⟨hpart, Ne.symm hc⟩

/-- After the ends of a directory were skipped there is none left in front. -/
theorem skipDirEnds_ne (t rest : Text) :
    skipDirEnds t ≠ '/' :: rest ∧ skipDirEnds t ≠ '.' :: '/' :: rest := by
  fun_induction skipDirEnds t with
  | case1 t ih => exact ih
  | case2 t ih => exact ih
  | case3 t hslash hdot => exact ⟨hslash rest, hdot rest⟩

/-- What is left of a text ends neither with a `/` nor with a `/.`. -/
theorem withoutDirEnds_ne (t front : Text) :
    withoutDirEnds t ≠ front ++ ['/'] ∧ withoutDirEnds t ≠ front ++ ['/', '.'] := by
  obtain ⟨hslash, hdot⟩ := skipDirEnds_ne t.reverse front.reverse
  constructor
  · intro h
    exact hslash (by rw [← List.reverse_eq_iff.mpr h.symm]; simp)
  · intro h
    exact hdot (by rw [← List.reverse_eq_iff.mpr h.symm]; simp)

end Text

open Text (withoutDirEnds EndsInPart)

namespace Path

-- ---------------------------------------------------------------------------
-- The last name
-- ---------------------------------------------------------------------------

theorem names_concat_slash (a : Text) : names ⟨a ++ ['/']⟩ = names ⟨a⟩ := by
  rw [names_eq, names_eq, parts_concat_slash]

theorem names_concat_dot (a : Text) : names ⟨a ++ ['/', '.']⟩ = names ⟨a⟩ := by
  rw [names_eq, names_eq, parts_append, List.filter_append]
  exact List.append_nil _

/-- What is taken away at the end holds no name. -/
theorem names_withoutDirEnds (t : Text) : names ⟨withoutDirEnds t⟩ = names ⟨t⟩ := by
  have hbackwards : ∀ r : Text, names ⟨(Text.skipDirEnds r).reverse⟩ = names ⟨r.reverse⟩ := by
    intro r
    fun_induction Text.skipDirEnds r with
    | case1 r ih => rw [ih, List.reverse_cons, names_concat_slash]
    | case2 r ih =>
      rw [ih, List.reverse_cons, List.reverse_cons, List.append_assoc]
      exact (names_concat_dot r.reverse).symm
    | case3 => rfl
  exact (hbackwards t.reverse).trans (by rw [List.reverse_reverse])

theorem names_part {part : Text} (hslash : '/' ∉ part) (hne : part ≠ []) (hdot : part ≠ ['.']) :
    names ⟨part⟩ = [part] := by
  rw [names_eq, parts, Text.split_of_notMem hslash]
  simp [hne, hdot]

/-- The part that a text ends in is its last name. This ties what is said of the text alone to the
components of the path. -/
theorem getLast?_names_of_endsInPart {t part : Text} (h : EndsInPart t part) (hne : part ≠ [])
    (hdot : part ≠ ['.']) : (names ⟨t⟩).getLast? = some part := by
  obtain ⟨hslash, front, rfl, rfl | ⟨before, rfl⟩⟩ := h
  · rw [List.nil_append, names_part hslash hne hdot]
    rfl
  · have hpart := names_part hslash hne hdot
    rw [names_eq] at hpart
    rw [List.append_assoc, List.singleton_append, names_eq, parts_append, List.filter_append, hpart,
      List.getLast?_concat]

/-- **The last name of a path** is what follows the last `/` of its text, once every `/` and `/.` at
the end is taken away. -/
theorem getLast?_names_iff {t name : Text} :
    (names ⟨t⟩).getLast? = some name ↔
      EndsInPart (withoutDirEnds t) name ∧ name ≠ [] ∧ name ≠ ['.'] := by
  rw [← names_withoutDirEnds]
  refine ⟨fun h => ?_, fun ⟨hends, hne, hdot⟩ => getLast?_names_of_endsInPart hends hne hdot⟩
  obtain ⟨part, hpart⟩ := Text.exists_endsInPart (withoutDirEnds t)
  have hnames := hpart
  obtain ⟨-, front, hfront, hstart⟩ := hnames
  -- a last part that is no name is all of the text, and the path has no names
  have hne : part ≠ [] := by
    rintro rfl
    rw [List.append_nil] at hfront
    obtain rfl | ⟨before, rfl⟩ := hstart
    · rw [hfront] at h
      cases h
    · exact (Text.withoutDirEnds_ne t before).1 hfront
  have hdot : part ≠ ['.'] := by
    rintro rfl
    obtain rfl | ⟨before, rfl⟩ := hstart
    · rw [hfront] at h
      cases h
    · exact (Text.withoutDirEnds_ne t before).2 (by rw [hfront]; simp)
  rw [getLast?_names_of_endsInPart hpart hne hdot] at h
  obtain rfl := Option.some.inj h
  exact ⟨hpart, hne, hdot⟩

-- ---------------------------------------------------------------------------
-- The extension
-- ---------------------------------------------------------------------------

theorem split_eq_singleton_nil_iff {t : Text} : Text.split '.' t = [[]] ↔ t = [] := by
  constructor
  · intro h
    rw [← Text.join_split '.' t, h]
    rfl
  · rintro rfl
    rfl

/-- The last piece of a text that has several. -/
theorem split_eq_concat {name last : Text} {pieces : List Text} (hne : pieces ≠ [])
    (h : Text.split '.' name = pieces ++ [last]) :
    ∃ stem, Text.split '.' stem = pieces ∧ name = stem ++ '.' :: last := by
  have hplain : ∀ piece ∈ pieces, '.' ∉ piece := fun piece hpiece =>
    Text.notMem_of_mem_split (h ▸ List.mem_append_left _ hpiece)
  refine ⟨Text.join ['.'] pieces, ?_, ?_⟩
  · rw [Text.split_join hne, Text.flatMap_split_of_notMem hplain]
  · rw [← Text.join_split '.' name, h, Text.join_concat hne]

/-- **The extension of a name** is what follows a dot that has something before it and no dot
behind it. -/
theorem extension?_eq_some_iff {p : Path} {ext : Text} :
    p.extension? = some ext ↔
      '.' ∉ ext ∧ ∃ stem, stem ≠ [] ∧ p.fileName? = some (stem ++ '.' :: ext) := by
  unfold extension?
  cases hname : p.fileName? with
  | none => simp
  | some name =>
    dsimp only
    rcases hpieces : (Text.split '.' name).reverse with _ | ⟨last, before⟩
    · exact absurd (List.reverse_eq_nil_iff.mp hpieces) (Text.split_ne_nil '.' name)
    have hsplit : Text.split '.' name = before.reverse ++ [last] := by
      rw [← List.reverse_cons, ← hpieces, List.reverse_reverse]
    have hin : last ∈ Text.split '.' name := by
      rw [hsplit]
      simp
    -- the last piece has no dot, and the pieces before it make up the stem
    have hlast : '.' ∉ last := Text.notMem_of_mem_split hin
    dsimp only
    constructor
    · intro h
      split at h
      · cases h
      · next hbefore =>
        obtain rfl := Option.some.inj h
        rw [Bool.or_eq_true, not_or, List.isEmpty_iff, decide_eq_true_eq] at hbefore
        obtain ⟨stem, hstem, rfl⟩ := split_eq_concat (by simpa using hbefore.1) hsplit
        refine ⟨hlast, stem, ?_, rfl⟩
        rintro rfl
        exact hbefore.2 (List.reverse_eq_iff.mp hstem.symm)
    · rintro ⟨hext, stem, hstem, hwhole⟩
      obtain rfl := Option.some.inj hwhole
      rw [Text.split_append, Text.split_of_notMem hext] at hsplit
      obtain ⟨hpieces', hlast'⟩ := List.append_inj' hsplit rfl
      obtain rfl := (List.singleton_inj.mp hlast').symm
      rw [if_neg]
      rw [Bool.or_eq_true, not_or, List.isEmpty_iff, decide_eq_true_eq]
      constructor
      · rintro rfl
        exact Text.split_ne_nil '.' stem hpieces'
      · rintro rfl
        exact hstem (split_eq_singleton_nil_iff.mp hpieces')

/-- The file name is the last name, unless this climbs. -/
theorem fileName?_eq_some_iff {p : Path} {name : Text} :
    p.fileName? = some name ↔ p.names.getLast? = some name ∧ name ≠ ['.', '.'] := by
  unfold fileName?
  cases p.names.getLast? with
  | none => simp
  | some last =>
    dsimp only
    split
    · next hdots =>
      refine iff_of_false (by simp) ?_
      rintro ⟨hlast, hne⟩
      exact hne ((Option.some.inj hlast).symm.trans hdots)
    · next hdots =>
      constructor
      · intro h
        obtain rfl := Option.some.inj h
        exact ⟨rfl, hdots⟩
      · exact fun h => h.1

end Path

-- ---------------------------------------------------------------------------
-- Modules
-- ---------------------------------------------------------------------------

/-- The texts that name a file: they start as a path does, or their last part is something with one
of six extensions. -/
def NamesFile (module : Text) : Prop :=
  "./".toList <+: module ∨ "../".toList <+: module ∨ "/".toList <+: module ∨
  ∃ stem ext, EndsInPart (withoutDirEnds module) (stem ++ '.' :: ext) ∧ stem ≠ [] ∧
    ext ∈ ["js".toList, "mjs".toList, "cjs".toList, "ts".toList, "json".toList, "fnr".toList]

theorem fileExtensions_eq : fileExtensions =
    ["js".toList, "mjs".toList, "cjs".toList, "ts".toList, "json".toList, "fnr".toList] := rfl

/-- No extension is empty or has a dot, so a file name has one of them exactly if it ends with it
behind its last dot. -/
theorem plain_of_mem_fileExtensions {ext : Text} (h : ext ∈ fileExtensions) :
    ext ≠ [] ∧ '.' ∉ ext := by
  have hall : (fileExtensions.all fun ext => ext ≠ [] ∧ '.' ∉ ext) = true := by decide
  exact of_decide_eq_true (List.all_eq_true.mp hall ext h)

/-- A path has the extension of a file exactly if its text ends in such a name. The text is looked
at without the slashes and dots at its end, which the components of a path do not show. -/
theorem extension?_mem_fileExtensions_iff {module : Text} :
    (∃ ext ∈ fileExtensions, Path.extension? ⟨module⟩ = some ext) ↔
      ∃ stem ext, EndsInPart (withoutDirEnds module) (stem ++ '.' :: ext) ∧ stem ≠ [] ∧
        ext ∈ fileExtensions := by
  constructor
  · rintro ⟨ext, hext, hextension⟩
    obtain ⟨-, stem, hstem, hname⟩ := Path.extension?_eq_some_iff.mp hextension
    obtain ⟨hlast, -⟩ := Path.fileName?_eq_some_iff.mp hname
    exact ⟨stem, ext, (Path.getLast?_names_iff.mp hlast).1, hstem, hext⟩
  · rintro ⟨stem, ext, hends, hstem, hext⟩
    obtain ⟨hne, hdot⟩ := plain_of_mem_fileExtensions hext
    -- a name with such an extension is neither of the two names that are made of dots
    have hlong : 3 ≤ (stem ++ '.' :: ext).length := by
      have hstem' := List.length_pos_of_ne_nil hstem
      have hext' := List.length_pos_of_ne_nil hne
      rw [List.length_append, List.length_cons]
      omega
    have hlast : (Path.names ⟨module⟩).getLast? = some (stem ++ '.' :: ext) := by
      refine Path.getLast?_names_iff.mpr ⟨hends, by simp, ?_⟩
      intro h
      rw [h] at hlong
      simp at hlong
    refine ⟨ext, hext, Path.extension?_eq_some_iff.mpr ⟨hdot, stem, hstem, ?_⟩⟩
    refine Path.fileName?_eq_some_iff.mpr ⟨hlast, ?_⟩
    intro h
    rw [h] at hlong
    simp at hlong

/-- **Which modules are files**: those that start like a path, and those whose text ends in a name
with the extension of a file. -/
theorem isExternal_eq_false_iff {module : Text} : isExternal module = false ↔ NamesFile module := by
  unfold NamesFile
  rw [← fileExtensions_eq, ← extension?_mem_fileExtensions_iff]
  unfold isExternal Text.opens
  split
  · next hstart =>
    simp only [Bool.or_eq_true, List.isPrefixOf_iff_prefix] at hstart
    exact iff_of_true rfl (by tauto)
  · next hstart =>
    simp only [Bool.or_eq_true, List.isPrefixOf_iff_prefix, not_or] at hstart
    obtain ⟨⟨hhere, habove⟩, hroot⟩ := hstart
    simp only [hhere, habove, hroot, false_or]
    cases hextension : Path.extension? ⟨module⟩ with
    | none => simp
    | some ext => simp

open Text (trim)

/-- **An import is of the kind of the module that it names in the end.** A module is a file exactly
if its text names one. Where the module of a declare statement is an alias, it is the target that
counts, and the alias itself does not. -/
theorem module_kind :
    (∀ module, isExternal module = false ↔ NamesFile module) ∧
    ∀ (ctx : Context) (s : Statement) (record : Import) (text : Text),
      lower ctx s = .ok (.imported record text) →
      ∃ d, Declare.read? (trim s.text) = some d ∧
        (record.external = false ↔ NamesFile record.module) ∧
        (∀ target, ctx.aliases.lookup d.module = some target → record.module = target) ∧
        (ctx.aliases.lookup d.module = none → record.module = d.module) := by
  refine ⟨fun _ => isExternal_eq_false_iff, fun ctx s record text h => ?_⟩
  obtain ⟨d, hread, -, -, hmodule, hexternal, -⟩ := imported_cases h
  refine ⟨d, hread, ?_, fun target htarget => ?_, fun hnone => ?_⟩
  · rw [hexternal, isExternal_eq_false_iff]
  · rw [hmodule, Declare.resolveAlias, htarget]
    rfl
  · rw [hmodule, Declare.resolveAlias, hnone]
    rfl

namespace ModuleKindSample

/-- The alias looks like a file and its target does not. -/
def ctx : Context where
  sourceDir := .ofString "/app"
  aliases := [("./util.js".toList, "@scope/util".toList)]

def statement : Statement where
  text := "declare util from \"./util.js\"".toList
  line := 1
  lineCount := 1
  unterminated := false

def record : Import := ⟨.single, ["util".toList], "@scope/util".toList, true⟩

end ModuleKindSample

open ModuleKindSample in
/-- A name with dots before its extension and slashes behind it, and an alias that looks like a file
for a module that is none. -/
theorem module_kind_alias :
    NamesFile "lib/..a.test.mjs/.//".toList ∧
    lower ctx statement = .ok (.imported record "import util from \"@scope/util\";".toList) ∧
    isExternal "./util.js".toList = false ∧ ¬ NamesFile "@scope/util".toList := by
  obtain ⟨hrule, hlowered⟩ := module_kind
  have hlower : lower ctx statement =
      .ok (.imported record "import util from \"@scope/util\";".toList) := by rfl
  obtain ⟨d, -, hkind, -⟩ := hlowered ctx statement record _ hlower
  exact ⟨(hrule _).mp (by decide), hlower, by decide,
    fun hfile => absurd (hkind.mpr hfile) (by decide)⟩

end Sandscript
