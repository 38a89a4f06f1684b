import Sandscript.Proofs.WorkspaceReach

/-!
# A tree and its place in a workspace

A tree is to be copied into a new workspace that lies elsewhere. Its entries are told by the names
that lead to them, and each has a path in the tree and one in the workspace. While entries are
copied, in any order and with any failures, the workspace holds nothing that does not belong there;
this is enough to say what an operation does at the place of an entry.

The tree may be there and yet not be seen, if too many links are on the way to it. Then none of its
entries is found by its path.

* `Mirroring` — a new workspace and a tree.
* `Seen` — the tree is seen by its path.
* `Filled` — what holds of a machine throughout.
* `find_entry`, `target_below` — where the paths of an entry lead.
* `Filled.makeDirectories`, `Filled.makeTop`, `Filled.copyLink`, `Filled.copyFile` — the operations
  that copy entries.
-/

namespace Sandscript

namespace Disk

/-- What is on a disk has names of a length that can be looked up, and no name or target holds a
zero character. -/
structure Storable (d : Disk) : Prop where
  name : ∀ l name, (d.get? (l ++ [name])).isSome →
    (Utf8.encode name).length ≤ nameLimit ∧ '\x00' ∉ name
  target : ∀ l target, d.get? l = some (.link target) → target.text ≠ [] ∧ '\x00' ∉ target.text

/-- Whether a disk is storable can be seen from its entries. -/
theorem storable_of_entries {d : Disk}
    (hname : ∀ x ∈ d.entries, (Utf8.encode (x.1.getLast?.getD [])).length ≤ nameLimit ∧
      '\x00' ∉ x.1.getLast?.getD [])
    (htarget : ∀ x ∈ d.entries, ∀ target, x.2 = .link target →
      target.text ≠ [] ∧ '\x00' ∉ target.text) : d.Storable := by
  refine ⟨fun l name hsome => ?_, fun l target hlink => ?_⟩
  · obtain ⟨e, he⟩ := Option.isSome_iff_exists.mp hsome
    simpa using hname _ (mem_entries (by simp) he)
  · by_cases hnil : l = []
    · rw [hnil] at hlink
      exact absurd hlink (by simp [get?])
    · exact htarget _ (mem_entries hnil hlink) target rfl

/-- On a disk that can be stored, every name below a place goes down one step and has no zero byte.
This is what lets the walk of a copied path end where the entry is. -/
theorem Storable.name_below {d : Disk} (hs : d.Storable) (hd : d.Lawful) {above below : Location}
    (h : (d.get? (above ++ below)).isSome) :
    ∀ name ∈ below, GoesDown name ∧ '\x00' ∉ name := by
  have hspelled := hd.spelled_below h
  intro name hname
  obtain ⟨front, back, rfl⟩ := List.append_of_mem hname
  have hhere : (d.get? (above ++ front ++ [name])).isSome := by
    rw [List.append_assoc]
    by_cases hback : back = []
    · rwa [hback] at h
    · rw [List.append_cons, ← List.append_assoc above] at h
      rw [hd.directory_above hback h]
      rfl
  obtain ⟨hfits, hclean⟩ := hs.name _ _ hhere
  obtain ⟨-, -, hdot, hdots⟩ := hspelled name hname
  exact ⟨⟨hdot, hdots, hfits⟩, hclean⟩

end Disk

namespace Workspace

open Disk (SameOutside GoesDown Walks Clear Grown Extends kind)
open Sandscript.Path (Spelled)

-- ---------------------------------------------------------------------------
-- Entries of a tree
-- ---------------------------------------------------------------------------

/-- The path of an entry of a tree. -/
def entryPath (source : Path) (names : List Text) : Path :=
  if names.isEmpty then source else source.join ⟨Text.join ['/'] names⟩

/-- The step that copies an entry of a tree. -/
def entryStep (source target : Path) (item : Disk.Item) : CopyStep :=
  ⟨entryPath source item.names, target.join ⟨Text.join ['/'] item.names⟩, item.kind⟩

theorem treeSteps_eq (source target : Path) (items : List Disk.Item) :
    treeSteps source target items = items.map (entryStep source target) := rfl

-- ---------------------------------------------------------------------------
-- A tree and a workspace
-- ---------------------------------------------------------------------------

/-- A new workspace, and a tree elsewhere that is to be copied into it. -/
structure Mirroring where
  /-- The disk before there was a workspace. -/
  before : Disk
  base : Location
  workspace : Path
  root : Path
  dep : Text
  /-- Where the workspace is. -/
  W : Location
  /-- Where the tree is. -/
  D : Location
  site : Site before workspace W
  lawful : before.Lawful
  storable : before.Storable
  made : (before.insert W .directory).Lawful
  clean : '\x00' ∉ workspace.text
  relative : Path.isAbsolute ⟨dep⟩ = false
  way_ne : Path.names ⟨dep⟩ ≠ []
  way_spelled : ∀ name ∈ Path.names ⟨dep⟩, Spelled name
  leads : (before.insert W .directory).LeadsTo base (root.join ⟨dep⟩) D
  top : (before.insert W .directory).get? D = some .directory
  apart : ¬ D <+: W

namespace Mirroring

variable (c : Mirroring)

/-- The disk with the new workspace. -/
def start : Disk := c.before.insert c.W .directory

/-- The path of the tree. -/
def source : Path := c.root.join ⟨c.dep⟩

/-- The names that lead from the workspace to the copy of the tree. -/
def way : List Text := Path.names ⟨c.dep⟩

/-- What the tree has at some names. -/
def tree? (names : List Text) : Option Entry := c.start.get? (c.D ++ names)

/-- The path of an entry in the workspace. -/
def target (names : List Text) : Path :=
  (c.workspace.join ⟨c.dep⟩).join ⟨Text.join ['/'] names⟩

/-- The tree is seen by its path. -/
def Seen : Prop := c.start.isDirectory c.base c.source = true

/-- The step that copies an entry. -/
def step (item : Disk.Item) : CopyStep := entryStep c.source (c.workspace.join ⟨c.dep⟩) item

-- ---------------------------------------------------------------------------
-- Where the tree is
-- ---------------------------------------------------------------------------

variable {c} {d : Disk} {names above : List Text} {name : Text} {e : Entry}

/-- At the start the workspace is a directory with nothing in it. -/
theorem start_under {l : Location} (hl : c.W <+: l) (h : c.start.get? l = some e) :
    l = c.W ∧ e = .directory := by
  by_cases heq : l = c.W
  · rw [heq, start, Disk.get?_insert_self _ c.site.ne_nil] at h
    exact ⟨heq, (Option.some.inj h).symm⟩
  · rw [start, Disk.get?_insert_of_ne _ heq, c.lawful.none_below c.site.new hl] at h
    exact absurd h (by simp)

theorem tree?_nil : c.tree? [] = some .directory := by
  rw [tree?, List.append_nil]
  exact c.top

/-- The tree is not in the workspace. -/
theorem not_under (names : List Text) : ¬ c.W <+: c.D ++ names := by
  intro hunder
  rcases List.prefix_or_prefix_of_prefix hunder (List.prefix_append c.D names) with hW | hD
  · obtain ⟨heq, -⟩ := start_under hW c.top
    exact c.apart (heq ▸ List.prefix_refl _)
  · exact c.apart hD

/-- No place of the tree is a place of the workspace, since the two lie apart. Everything that is
written in the workspace therefore leaves the tree as it was. -/
theorem tree_ne (names : List Text) (n : Location) : c.D ++ names ≠ c.W ++ n := by
  intro heq
  refine not_under (c := c) names ?_
  rw [heq]
  exact List.prefix_append ..

/-- The tree was there before the workspace was made, with the same entries. -/
theorem before_get? (names : List Text) : c.before.get? (c.D ++ names) = c.tree? names := by
  refine (Disk.get?_insert_of_ne _ ?_ _).symm
  simpa using tree_ne names []

theorem tree?_above (hne : names ≠ []) (h : c.tree? (above ++ names) = some e) :
    c.tree? above = some .directory := by
  rw [tree?, ← List.append_assoc] at h
  exact c.made.directory_above hne (by rw [start] at h; rw [h]; rfl)

/-- The top of the tree is a directory. -/
theorem eq_concat (h : c.tree? names = some e) (he : e ≠ .directory) :
    ∃ above name, names = above ++ [name] := by
  rcases List.eq_nil_or_concat names with rfl | ⟨above, name, hnames⟩
  · exact absurd (Option.some.inj (h.symm.trans tree?_nil)) he
  · exact ⟨above, name, by rw [hnames, List.concat_eq_append]⟩

/-- Every place between the top and a directory of the tree is a directory. -/
theorem tree?_of_above {other : List Text} (h : c.tree? names = some .directory)
    (hother : other <+: names) : c.tree? other = some .directory := by
  obtain ⟨rest, rfl⟩ := hother
  by_cases hne : rest = []
  · rwa [hne, List.append_nil] at h
  · exact tree?_above hne h

theorem isSome_before (h : c.tree? names = some e) : (c.before.get? (c.D ++ names)).isSome := by
  rw [before_get?, h]
  rfl

/-- The names of an entry can be read back from the path that is spelled with them. -/
theorem names_spelled (h : c.tree? names = some e) : ∀ name ∈ names, Spelled name :=
  c.lawful.spelled_below (isSome_before h)

theorem names_fit (h : c.tree? names = some e) :
    ∀ name ∈ names, GoesDown name ∧ '\x00' ∉ name :=
  c.storable.name_below c.lawful (isSome_before h)

theorem zero_notMem_names (h : c.tree? names = some e) :
    '\x00' ∉ Text.join ['/'] names := by
  intro hin
  rcases Text.mem_join hin with hslash | ⟨name, hname, hzero⟩
  · exact absurd hslash (by decide)
  · exact (names_fit h name hname).2 hzero

-- ---------------------------------------------------------------------------
-- Finding an entry of the tree
-- ---------------------------------------------------------------------------

/-- The spelling of the dependency directory leads to the top of the tree in some number of links.
The number may be above the limit: then the look at it fails. -/
theorem source_walks : ∃ links, Walks c.start false links
    (if c.source.isAbsolute then [] else c.base) c.source.parts c.D := by
  obtain ⟨links, hwalk⟩ := c.leads
  exact ⟨links, Disk.walks_of_walk hwalk⟩

/-- If the look at the dependency directory succeeds, the disk finds its place within the limit. -/
theorem Seen.locate (hseen : c.Seen) : ∃ l, c.start.locate true c.base c.source = .ok l := by
  unfold Seen Disk.isDirectory Disk.find at hseen
  split at hseen
  · next l hfind =>
    split at hfind
    · exact absurd hfind (by simp)
    · next l' hlocate => exact ⟨l', hlocate⟩
  · exact absurd hseen (by simp)

/-- A path that was seen has no zero byte, since the disk refuses such a path at once. -/
theorem Seen.clean (hseen : c.Seen) : '\x00' ∉ c.source.text := by
  obtain ⟨l, hlocate⟩ := hseen.locate
  exact (Disk.text_of_locate hlocate).2

theorem Seen.text_ne_nil (hseen : c.Seen) : c.source.text ≠ [] := by
  obtain ⟨l, hlocate⟩ := hseen.locate
  exact (Disk.text_of_locate hlocate).1

/-- The way to a tree that is seen can be walked, on every disk that has more. -/
theorem Seen.way (hseen : c.Seen) : ∃ left, ∀ d, Extends c.start d → ∀ followLast rest,
    d.walk followLast Disk.linkLimit (if c.source.isAbsolute then [] else c.base)
      (c.source.parts ++ rest) = d.walk followLast left c.D rest := by
  obtain ⟨links, hwalks⟩ := c.source_walks
  rcases hwalks.way c.top Disk.linkLimit with hway | hshort
  · exact hway
  · -- a way with too many links would not have been seen to its end
    obtain ⟨l, hlocate⟩ := hseen.locate
    obtain ⟨tail, hsteps, -⟩ := Path.exists_steps c.source
    rw [Disk.locate_of_text hseen.text_ne_nil hseen.clean, hsteps, hshort] at hlocate
    exact absurd hlocate (by simp)

/-- An entry of the tree is found by its path, on every disk that has more. The way to the top is
within the limit of links, because the top was seen, and from there on there are only directories.
-/
theorem find_entry (hseen : c.Seen) (hmore : Extends c.start d) {followLast : Bool}
    (h : c.tree? (above ++ [name]) = some e)
    (hlast : followLast = true → ∀ target, e ≠ .link target) :
    d.find followLast c.base (entryPath c.source (above ++ [name])) =
      .ok (c.D ++ (above ++ [name]), e) := by
  have hspelled := names_spelled h
  have hrelative := Path.isAbsolute_ofNames hspelled
  obtain ⟨left, hway⟩ := hseen.way
  have hhere := hmore _ _ h
  -- what leads from the top to the entry are directories
  have hdirs : ∀ other, other <+: above → d.get? (c.D ++ other) = some .directory :=
    fun other hother => hmore _ _ (tree?_of_above (tree?_above (by simp) h) hother)
  have hlocate : d.locate followLast c.base (entryPath c.source (above ++ [name])) =
      .ok (c.D ++ (above ++ [name])) := by
    have hclean : '\x00' ∉ (c.source.join ⟨Text.join ['/'] (above ++ [name])⟩).text := by
      intro hin
      rcases Path.mem_text_join hin with hin | hin | hin
      · exact hseen.clean hin
      · exact absurd hin (by decide)
      · exact zero_notMem_names h hin
    have hne : (c.source.join ⟨Text.join ['/'] (above ++ [name])⟩).text ≠ [] := by
      intro hnil
      have hparts := Path.parts_join_names c.source hspelled
      rw [Path.parts, hnil] at hparts
      exact absurd hparts.symm (by simp [Text.split])
    rw [entryPath, if_neg (by simp), Disk.locate_of_text hne hclean,
      Path.isAbsolute_join_of_relative hseen.text_ne_nil hrelative,
      Path.steps_join_names c.source (by simp) hspelled, hway d hmore,
      Disk.walk_down (Path.filter_names fun other hother => hspelled other (by simp [hother]))
        (fun other hother => (names_fit h other (by simp [hother])).1) hdirs,
      Disk.walk_last (hdirs above (List.prefix_refl _)) (names_fit h name (by simp)).1,
      List.append_assoc]
    intro hfollow target hlink
    rw [List.append_assoc, hhere] at hlink
    exact hlast hfollow target (Option.some.inj hlink)
  rw [Disk.find, hlocate]
  dsimp only
  rw [hhere]

-- ---------------------------------------------------------------------------
-- The place of an entry in the workspace
-- ---------------------------------------------------------------------------

/-- The names of the dependency directory go down one step each: a dot is no name, and there is
nothing that climbs. -/
theorem way_goesDown : ∀ name ∈ c.way, GoesDown name := by
  intro name hname
  obtain ⟨links, hwalks⟩ := c.source_walks
  refine hwalks.fits ?_ (c.way_spelled name hname)
  rw [way, Path.names_eq] at hname
  rw [source, Path.parts_join _ c.relative]
  exact List.mem_append_right _ (List.mem_of_mem_filter hname)

/-- The dependency directory is the last piece of the path that was seen, so it has no zero byte
either. -/
theorem Seen.clean_dep (hseen : c.Seen) : '\x00' ∉ c.dep := by
  intro hin
  refine hseen.clean ?_
  rw [source, Path.join, if_neg (by simp [c.relative])]
  split
  · exact List.mem_append_right _ hin
  · exact List.mem_append_right _ (List.mem_cons_of_mem _ hin)

/-- The parts of the path that a copy is written to. The dependency directory keeps its spelling,
dots included, and this is why a copy is looked up by parts and stands by names. -/
theorem parts_target (h : ∀ name ∈ names, Spelled name) :
    (c.target names).parts = c.workspace.parts ++ (Path.parts ⟨c.dep⟩ ++ names) := by
  rw [target, Path.parts_join_names _ h, Path.parts_join _ c.relative, List.append_assoc]

/-- The path of an entry in the workspace leads down along names. It is spelled with the dots of the
dependency directory, and these are dropped from the names. -/
theorem target_below (hseen : c.Seen) (h : c.tree? names = some e) :
    Below c.workspace (c.target names) (c.way ++ names) := by
  have hspelled := names_spelled h
  refine ⟨Path.isAbsolute_join (Path.isAbsolute_join c.site.absolute _) _, ?_, ?_, ?_, ?_⟩
  · intro hin
    rcases Path.mem_text_join hin with hin | hin | hin
    · rcases Path.mem_text_join hin with hin | hin | hin
      · exact c.clean hin
      · exact absurd hin (by decide)
      · exact hseen.clean_dep hin
    · exact absurd hin (by decide)
    · exact zero_notMem_names h hin
  · refine ⟨_, parts_target hspelled, ?_⟩
    rw [List.filter_append, Path.filter_names hspelled, ← Path.names_eq]
    rfl
  · exact List.forall_mem_append.mpr ⟨c.way_spelled, hspelled⟩
  · exact List.forall_mem_append.mpr ⟨way_goesDown, fun name hname => (names_fit h name hname).1⟩

/-- It ends with a dot only if it is that of the whole tree, and the tree is given in this way. -/
theorem endsInDot_target (h : ∀ name ∈ names, Spelled name) :
    (c.target names).EndsInDot ↔ names = [] ∧ Path.EndsInDot ⟨c.dep⟩ := by
  rw [Path.EndsInDot, parts_target h]
  rcases List.eq_nil_or_concat names with rfl | ⟨above, name, rfl⟩
  · have hne : Path.parts ⟨c.dep⟩ ≠ [] := fun hnil => c.way_ne (by rw [Path.names_eq, hnil]; rfl)
    rw [List.append_nil, List.getLast?_append_of_ne_nil _ hne]
    exact (and_iff_right rfl).symm
  · rw [List.concat_eq_append] at h ⊢
    rw [← List.append_assoc, ← List.append_assoc, List.getLast?_concat, Option.some.injEq]
    exact iff_of_false (h name (by simp)).2.2.1 fun hboth => absurd hboth.1 (by simp)

/-- Only the path of the top can end in a dot, since every other ends with the name of its entry. -/
theorem not_endsInDot_target (h : c.tree? (above ++ [name]) = some e) :
    ¬ (c.target (above ++ [name])).EndsInDot := by
  rw [endsInDot_target (names_spelled h)]
  exact fun hboth => absurd hboth.1 (by simp)

-- ---------------------------------------------------------------------------
-- What the workspace holds
-- ---------------------------------------------------------------------------

/-- The two entries are the same, or both are files. -/
def Alike (e e' : Entry) : Prop := e = e' ∨ kind e = .file ∧ kind e' = .file

variable (c) in
/-- An entry that may be at a place in the workspace: it has the part of one in the tree, or leads
to the tree. -/
def Fits (n : Location) (e : Entry) : Prop :=
  n <+: c.way ∧ e = .directory ∨
    ∃ names e', n = c.way ++ names ∧ c.tree? names = some e' ∧ Alike e e'

variable (c) in
/-- A machine on which the workspace stands and holds nothing but what belongs there. -/
structure Filled (m : Machine) : Prop extends Stands c.before c.W m.disk where
  directory : m.directory = c.base
  fits : ∀ n e, m.disk.get? (c.W ++ n) = some e → c.Fits n e

variable (c) in
/-- An entry of the tree is in the workspace as well. -/
def Copied (d : Disk) (names : List Text) : Prop :=
  ∃ e, c.tree? names = some e ∧ d.get? (c.W ++ (c.way ++ names)) = some e

theorem eq_directory_of_alike (h : Alike e .directory) : e = .directory := by
  rcases h with heq | ⟨-, hkind⟩
  · exact heq
  · exact absurd hkind (by simp [kind])

/-- What fits at the place of an entry is like that entry. -/
theorem fits_tree {e : Entry} (h : c.Fits (c.way ++ names) e) :
    ∃ e', c.tree? names = some e' ∧ Alike e e' := by
  rcases h with ⟨⟨rest, hrest⟩, rfl⟩ | ⟨names', e', heq, hentry, halike⟩
  · obtain ⟨rfl, -⟩ : names = [] ∧ rest = [] := by
      rw [List.append_assoc, List.append_right_eq_self] at hrest
      exact List.append_eq_nil_iff.mp hrest
    exact ⟨.directory, c.tree?_nil, Or.inl rfl⟩
  · rw [List.append_cancel_left heq]
    exact ⟨e', hentry, halike⟩

/-- A place on the way to a copy lies above the copy of the tree or inside it. -/
theorem prefix_append_cases {n front back : List Text} (h : n <+: front ++ back) :
    n <+: front ∨ ∃ rest, n = front ++ rest ∧ rest <+: back := by
  rcases List.prefix_or_prefix_of_prefix h (List.prefix_append front back) with hn | ⟨rest, rfl⟩
  · exact Or.inl hn
  · exact Or.inr ⟨rest, rfl, (List.prefix_append_right_inj front).mp h⟩

/-- Directories belong on the way to a directory of the tree. -/
theorem fits_way (h : c.tree? names = some .directory) {n : Location}
    (hn : n <+: c.way ++ names) : c.Fits n .directory := by
  rcases prefix_append_cases hn with hway | ⟨other, rfl, hother⟩
  · exact Or.inl ⟨hway, rfl⟩
  · exact Or.inr ⟨other, .directory, rfl, tree?_of_above h hother, Or.inl rfl⟩

/-- On the way to the copy of a directory there can only be directories, so making that way is never
stopped by a file or a link. -/
theorem fits_directory (h : c.tree? names = some .directory) {n : Location}
    (hn : n <+: c.way ++ names) {e : Entry} (he : c.Fits n e) : e = .directory := by
  rcases prefix_append_cases hn with hway | ⟨other, rfl, hother⟩
  · rcases he with ⟨-, rfl⟩ | ⟨names', e', rfl, hentry, halike⟩
    · rfl
    · obtain rfl : names' = [] := by
        have hlength := hway.length_le
        rw [List.length_append] at hlength
        exact List.length_eq_zero_iff.mp (by omega)
      rw [tree?_nil, Option.some.injEq] at hentry
      exact eq_directory_of_alike (hentry ▸ halike)
  · obtain ⟨e', hentry, halike⟩ := fits_tree he
    rw [tree?_of_above h hother, Option.some.injEq] at hentry
    exact eq_directory_of_alike (hentry ▸ halike)

/-- The invariant of the copying holds before the first step: the workspace is empty. -/
theorem filled_start {m : Machine} (hdisk : m.disk = c.start) (hbase : m.directory = c.base) :
    c.Filled m := by
  refine ⟨⟨?_, ?_, hdisk ▸ c.made⟩, hbase, fun n e he => ?_⟩
  · rw [hdisk]
    exact Disk.sameOutside_insert c.before (List.prefix_refl _) _
  · rw [hdisk]
    exact Disk.get?_insert_self _ c.site.ne_nil _
  · rw [hdisk] at he
    obtain ⟨hn, rfl⟩ := start_under (List.prefix_append ..) he
    rw [List.append_right_eq_self.mp hn]
    exact Or.inl ⟨List.nil_prefix, rfl⟩

namespace Filled

variable {m : Machine}

/-- Nothing that was on the disk at the start is lost. -/
theorem has_more (hm : c.Filled m) : Extends c.start m.disk := by
  intro l e hl
  by_cases hunder : c.W <+: l
  · obtain ⟨rfl, rfl⟩ := start_under hunder hl
    exact hm.top
  · rw [hm.same l hunder, ← hl, start, Disk.get?_insert_of_ne]
    rintro rfl
    exact hunder (List.prefix_refl _)

/-- On the way to a directory of the tree, directories or nothing is in the workspace. -/
theorem clear (hm : c.Filled m) (h : c.tree? names = some .directory) :
    Clear m.disk c.W (c.way ++ names) := by
  intro n hn
  cases hget : m.disk.get? (c.W ++ n) with
  | none => exact Or.inl rfl
  | some e => exact Or.inr (congrArg some (fits_directory h hn (hm.fits n e hget)))

/-- Directories on the way to one of the tree may be added. -/
theorem of_grown (hm : c.Filled m) (h : c.tree? names = some .directory) {disk : Disk}
    {ps : List Text} (hps : ps <+: c.way ++ names) (hgrown : Grown m.disk disk c.W ps)
    (hlawful : disk.Lawful) : c.Filled { m with disk } := by
  refine ⟨hm.toStands.of_grown hgrown hlawful, hm.directory, fun n e he => ?_⟩
  rcases hgrown (c.W ++ n) with hsame | ⟨-, hdir, other, -, hother, heq⟩
  · exact hm.fits n e (hsame ▸ he)
  · obtain rfl := Option.some.inj (hdir.symm.trans he)
    rw [List.append_cancel_left heq]
    exact fits_way h (hother.trans hps)

/-- There is no directory at the place of a file or a link, so that writing the copy is not refused
for this reason. -/
theorem not_directory (hm : c.Filled m) (h : c.tree? names = some e) (he : e ≠ .directory) :
    m.disk.get? (c.W ++ (c.way ++ names)) ≠ some .directory := by
  intro hdir
  obtain ⟨e', hentry, halike⟩ := fits_tree (hm.fits _ _ hdir)
  obtain rfl := Option.some.inj (h.symm.trans hentry)
  rcases halike with heq | ⟨hkind, -⟩
  · exact he heq.symm
  · exact absurd hkind (by simp [kind])

/-- An entry may be put in the place of a file or a link of the tree, once the directory above has
its copy. A link has to be the same one, while the bytes of a file may still be others. -/
theorem insert (hm : c.Filled m) (h : c.tree? (above ++ [name]) = some e) (he : e ≠ .directory)
    (hparent : m.disk.get? (c.W ++ (c.way ++ above)) = some .directory) {e' : Entry}
    (halike : Alike e' e) :
    c.Filled { m with disk := m.disk.insert (c.W ++ (c.way ++ (above ++ [name]))) e' } := by
  have hover := hm.not_directory h he
  have hplace : c.W ++ (c.way ++ (above ++ [name])) = c.W ++ (c.way ++ above) ++ [name] := by simp
  refine ⟨⟨?_, ?_, ?_⟩, hm.directory, fun n e'' hn => ?_⟩
  · exact hm.same.trans (Disk.sameOutside_insert _ (List.prefix_append ..) _)
  · rw [Disk.get?_insert_of_ne _ (by simp), hm.top]
  · rw [hplace] at hover ⊢
    exact hm.lawful.insert_over hparent (names_spelled h name (by simp)) hover _
  · by_cases heq : n = c.way ++ (above ++ [name])
    · subst heq
      rw [Disk.get?_insert_self _ (by simp)] at hn
      obtain rfl := Option.some.inj hn
      exact Or.inr ⟨_, e, rfl, h, halike⟩
    · rw [Disk.get?_insert_of_ne _ (by simpa using heq)] at hn
      exact hm.fits n e'' hn

-- ---------------------------------------------------------------------------
-- Operations at the place of an entry
-- ---------------------------------------------------------------------------

/-- Directories on the way to one of the tree can be made. -/
theorem makeDirectories (hm : c.Filled m) (h : c.tree? names = some .directory) {q : Path}
    {ps : List Text} (hq : Below c.workspace q ps) (hend : ¬ q.EndsInDot)
    (hps : ps <+: c.way ++ names) :
    ∃ disk, m.disk.makeAll m.directory q = (.ok (), disk) ∧ Extends m.disk disk ∧
      c.Filled { m with disk } ∧ disk.get? (c.W ++ ps) = some .directory := by
  have hclear : Clear m.disk c.W ps := fun n hn => hm.clear h n (hn.trans hps)
  obtain ⟨disk, hmake, hgrown, hlawful, hdir⟩ :=
    makeAll_below c.site hm.toStands hq hend hclear m.directory
  exact ⟨disk, hmake, hgrown.has_more, hm.of_grown h hps hgrown hlawful, hdir⟩

/-- The top of a tree that is given with a dot at the end is not made, though what leads there is.
The attempt succeeds if it is there already. In both cases the disk only grows and stays filled. -/
theorem makeTop (hm : c.Filled m) (hseen : c.Seen) (hend : Path.EndsInDot ⟨c.dep⟩) :
    m.disk.get? (c.W ++ c.way) = some .directory ∧
        m.disk.makeAll m.directory (c.target []) = (.ok (), m.disk) ∨
    m.disk.get? (c.W ++ c.way) = none ∧ ∃ disk,
      m.disk.makeAll m.directory (c.target []) = (.error .notFound, disk) ∧
        Extends m.disk disk ∧ c.Filled { m with disk } := by
  have hbelow := target_below hseen c.tree?_nil
  have hclear := hm.clear c.tree?_nil
  obtain ⟨front, last, hway⟩ := (List.eq_nil_or_concat c.way).resolve_left c.way_ne
  rw [List.concat_eq_append] at hway
  rw [List.append_nil, hway] at hbelow hclear
  have hfuel := hbelow.length_le
  rw [List.length_append, List.length_singleton] at hfuel
  rw [hway]
  rcases makeFrom_dotted c.site hm.toStands hbelow
      ((endsInDot_target (by simp)).mpr ⟨rfl, hend⟩) hclear m.directory
      (Nat.le_of_succ_le_succ hfuel) with hthere | ⟨hnone, disk, hmake, hgrown, hlawful⟩
  · exact Or.inl hthere
  · refine Or.inr ⟨hnone, disk, hmake, hgrown.has_more, hm.of_grown c.tree?_nil ?_ hgrown hlawful⟩
    rw [List.append_nil, hway]
    exact List.prefix_append ..

/-- The path of a copy below the top ends with a name, so there is no trailing slash to take off. -/
theorem splitSlash_target (h : c.tree? (above ++ [name]) = some e) :
    Disk.splitSlash (c.target (above ++ [name])) = (c.target (above ++ [name]), false) :=
  Path.splitSlash_join_names _ (by simp) (names_spelled h)

/-- The directory that is to hold an entry is there or missing. -/
theorem parent_cases (hm : c.Filled m) (h : c.tree? (above ++ [name]) = some e) :
    m.disk.get? (c.W ++ (c.way ++ above)) = none ∨
      m.disk.get? (c.W ++ (c.way ++ above)) = some .directory :=
  hm.clear (tree?_above (by simp) h) _ (List.prefix_refl _)

/-- If the directory above has its copy, the path of a copy leads to the place of the copy. When
links are followed, there must be none at this place. -/
theorem locate_target (hm : c.Filled m) (hseen : c.Seen) (h : c.tree? (above ++ [name]) = some e)
    (hparent : m.disk.get? (c.W ++ (c.way ++ above)) = some .directory) {followLast : Bool}
    (hlast : followLast = true → m.disk.NoLink (c.W ++ (c.way ++ (above ++ [name])))) :
    m.disk.locate followLast m.directory (c.target (above ++ [name])) =
      .ok (c.W ++ (c.way ++ (above ++ [name]))) := by
  have hplace : c.W ++ (c.way ++ (above ++ [name])) = c.W ++ (c.way ++ above) ++ [name] := by simp
  have hbelow := target_below hseen h
  rw [← List.append_assoc] at hbelow
  rw [hplace] at hlast ⊢
  have hlocate := locate_of_parent c.site hm.toStands hbelow (not_endsInDot_target h) hparent hlast
    m.directory
  rwa [splitSlash_target h] at hlocate

/-- If the directory above has no copy, the path of a copy leads nowhere. This is how a failure
above makes every step below it fail, and so name its own entry. -/
theorem locate_target_of_missing (hm : c.Filled m) (hseen : c.Seen)
    (h : c.tree? (above ++ [name]) = some e)
    (hparent : m.disk.get? (c.W ++ (c.way ++ above)) = none) (followLast : Bool) :
    m.disk.locate followLast m.directory (c.target (above ++ [name])) = .error .notFound := by
  have hbelow := target_below hseen h
  rw [← List.append_assoc] at hbelow
  have hclear := hm.clear (tree?_above (by simp) h)
  have hlocate := locate_of_missing c.site hm.toStands hbelow (not_endsInDot_target h) hclear
    hparent followLast m.directory
  rwa [splitSlash_target h] at hlocate

/-- A link of the tree is read as it stands in the project, whatever was copied before. -/
theorem readLink (hm : c.Filled m) (hseen : c.Seen) {pointee : Path}
    (h : c.tree? (above ++ [name]) = some (.link pointee)) :
    m.disk.readLink m.directory (entryPath c.source (above ++ [name])) = .ok pointee := by
  rw [Disk.readLink, hm.directory, find_entry hseen hm.has_more h (by simp)]

/-- A link is copied where the directory above is there, and fails only if it is a copy already. -/
theorem copyLink (hm : c.Filled m) (hseen : c.Seen) {pointee : Path}
    (h : c.tree? (above ++ [name]) = some (.link pointee))
    (hparent : m.disk.get? (c.W ++ (c.way ++ above)) = some .directory) :
    m.disk.copyLink m.directory (entryPath c.source (above ++ [name]))
        (c.target (above ++ [name])) =
      if (m.disk.get? (c.W ++ (c.way ++ (above ++ [name])))).isSome then .error .alreadyExists
      else .ok (m.disk.insert (c.W ++ (c.way ++ (above ++ [name]))) (.link pointee)) := by
  obtain ⟨hne, hclean⟩ := c.storable.target _ _ ((before_get? _).trans h)
  rw [Disk.copyLink, hm.readLink hseen h]
  dsimp only
  rw [Disk.makeLink, splitSlash_target h]
  dsimp only
  rw [hm.locate_target hseen h hparent (by simp)]
  dsimp only
  rw [if_neg (by simpa using hclean), if_neg (by simpa using hne)]
  rfl

/-- A link is not copied if the directory above it has no copy. -/
theorem copyLink_of_missing (hm : c.Filled m) (hseen : c.Seen) {pointee : Path}
    (h : c.tree? (above ++ [name]) = some (.link pointee))
    (hparent : m.disk.get? (c.W ++ (c.way ++ above)) = none) :
    m.disk.copyLink m.directory (entryPath c.source (above ++ [name]))
        (c.target (above ++ [name])) =
      .error .notFound := by
  rw [Disk.copyLink, hm.readLink hseen h]
  dsimp only
  rw [Disk.makeLink, splitSlash_target h]
  dsimp only
  rw [hm.locate_target_of_missing hseen h hparent]

/-- At the place of a file there is nothing or a file. -/
theorem file_place (hm : c.Filled m) {bytes : Bytes} {mode : Bool}
    (h : c.tree? names = some (.file bytes mode)) :
    m.disk.get? (c.W ++ (c.way ++ names)) = none ∨
      ∃ bytes' mode', m.disk.get? (c.W ++ (c.way ++ names)) = some (.file bytes' mode') := by
  rcases hget : m.disk.get? (c.W ++ (c.way ++ names)) with _ | e
  · exact Or.inl rfl
  · obtain ⟨e', hentry, halike⟩ := fits_tree (hm.fits _ _ hget)
    obtain rfl := Option.some.inj (h.symm.trans hentry)
    rcases halike with rfl | ⟨hkind, -⟩
    · exact Or.inr ⟨bytes, mode, rfl⟩
    · cases e with
      | file bytes' mode' => exact Or.inr ⟨bytes', mode', rfl⟩
      | directory => exact absurd hkind (by simp [kind])
      | link => exact absurd hkind (by simp [kind])

/-- The file of a copy can be opened if the directory above has its copy, also when a file is there
from an earlier step. -/
theorem openForWriting (hm : c.Filled m) (hseen : c.Seen) {bytes : Bytes} {mode : Bool}
    (h : c.tree? (above ++ [name]) = some (.file bytes mode))
    (hparent : m.disk.get? (c.W ++ (c.way ++ above)) = some .directory) :
    ∃ executable, m.disk.openForWriting m.directory (c.target (above ++ [name])) =
      .ok (c.W ++ (c.way ++ (above ++ [name])), executable) := by
  have hplace := hm.file_place h
  have hlast : true = true → m.disk.NoLink (c.W ++ (c.way ++ (above ++ [name]))) := by
    intro _ target hlink
    rcases hplace with hnone | ⟨bytes', mode', hfile⟩
    · exact absurd (hnone.symm.trans hlink) (by simp)
    · exact absurd (hfile.symm.trans hlink) (by simp)
  have hlocate := hm.locate_target hseen h hparent hlast
  rw [Disk.openForWriting, splitSlash_target h]
  dsimp only
  rw [hlocate]
  dsimp only
  rcases hplace with hnone | ⟨bytes', mode', hfile⟩
  · rw [hnone]
    exact ⟨false, rfl⟩
  · rw [hfile]
    exact ⟨mode', rfl⟩

/-- The file of a copy cannot be opened if the directory above has no copy. -/
theorem openForWriting_of_missing (hm : c.Filled m) (hseen : c.Seen) {bytes : Bytes} {mode : Bool}
    (h : c.tree? (above ++ [name]) = some (.file bytes mode))
    (hparent : m.disk.get? (c.W ++ (c.way ++ above)) = none) :
    m.disk.openForWriting m.directory (c.target (above ++ [name])) = .error .notFound := by
  rw [Disk.openForWriting, splitSlash_target h]
  dsimp only
  rw [hm.locate_target_of_missing hseen h hparent]

/-- A file is copied where the directory above is there. -/
theorem copyFile (hm : c.Filled m) (hseen : c.Seen) {bytes : Bytes} {mode : Bool}
    (h : c.tree? (above ++ [name]) = some (.file bytes mode))
    (hparent : m.disk.get? (c.W ++ (c.way ++ above)) = some .directory) :
    m.disk.copyFile m.directory (entryPath c.source (above ++ [name]))
        (c.target (above ++ [name])) =
      .ok (m.disk.insert (c.W ++ (c.way ++ (above ++ [name]))) (.file bytes mode)) := by
  obtain ⟨executable, hopen⟩ := hm.openForWriting hseen h hparent
  -- emptying the copy does not touch the file that is copied
  have hsource : ∀ e, (m.disk.insert (c.W ++ (c.way ++ (above ++ [name]))) e).get?
      (c.D ++ (above ++ [name])) = some (.file bytes mode) := by
    intro e
    rw [Disk.get?_insert_of_ne _ (tree_ne _ _)]
    exact hm.has_more _ _ h
  rw [Disk.copyFile, hm.directory, find_entry hseen hm.has_more h (by simp), ← hm.directory, hopen]
  dsimp only
  rw [hsource]

theorem copyFile_of_missing (hm : c.Filled m) (hseen : c.Seen) {bytes : Bytes} {mode : Bool}
    (h : c.tree? (above ++ [name]) = some (.file bytes mode))
    (hparent : m.disk.get? (c.W ++ (c.way ++ above)) = none) :
    m.disk.copyFile m.directory (entryPath c.source (above ++ [name]))
        (c.target (above ++ [name])) =
      .error .notFound := by
  rw [Disk.copyFile, hm.directory, find_entry hseen hm.has_more h (by simp), ← hm.directory,
    hm.openForWriting_of_missing hseen h hparent]

end Filled

end Mirroring

end Workspace

end Sandscript
