import Sandscript.Machine
import Sandscript.Proofs.DiskFrame
import Sandscript.Workspace

/-!
# Preparing a workspace

Everything that is copied or written before a program starts has a target below the workspace, as
its text goes. Whether the target lies there on the disk as well depends on `..` and on links, and
links are among the things that are copied.

* `Site` — a path led to nothing, and leads to the same place on all disks that agree outside it.
* `Prepared` — what holds of the disk throughout: outside the workspace it is as it was, and inside
  there are links in certain places only.
* `Inside` — a path that enters no link of the workspace on its way and does not climb out of it.
* `Prepared.perform` — copying an entry of a tree keeps a workspace prepared.
-/

namespace Sandscript

namespace Workspace

open Disk (SameOutside GoesDown onwards passed staysBelow Puts)
open Sandscript.Path (Spelled)

-- ---------------------------------------------------------------------------
-- The place of a workspace
-- ---------------------------------------------------------------------------

/-- A path leads to a location where nothing is, and goes on to do so on all disks that agree with
this one outside the location. -/
structure Site (d : Disk) (p : Path) (W : Location) : Prop where
  absolute : p.isAbsolute = true
  plain : Disk.steps p = p.parts
  new : d.get? W = none
  way : ∃ left parent name, W = parent ++ [name] ∧ p.parts.getLast? = some name ∧ GoesDown name ∧
    d.get? parent = some .directory ∧ ∀ d', SameOutside W d d' → ∀ followLast rest,
      d'.walk followLast Disk.linkLimit [] (p.parts ++ rest) =
        d'.walk followLast left parent (name :: rest)

namespace Site

variable {d d' : Disk} {p : Path} {W : Location}

theorem ne_nil (site : Site d p W) : W ≠ [] := by
  rintro rfl
  exact absurd site.new (by simp [Disk.get?])

/-- The directory that the workspace stands in stays a directory, since it is outside the workspace.
-/
theorem get?_parent {parent : Location} {name : Text} (h : SameOutside (parent ++ [name]) d d')
    (hparent : d.get? parent = some .directory) : d'.get? parent = some .directory := by
  refine (h parent fun hunder => ?_).trans hparent
  have hlength := hunder.length_le
  rw [List.length_append, List.length_singleton] at hlength
  omega

/-- Once there is a directory, a longer path goes on from it. -/
theorem enter (site : Site d p W) (h : SameOutside W d d') (htop : d'.get? W = some .directory) :
    ∃ left, ∀ followLast rest, d'.walk followLast Disk.linkLimit [] (p.parts ++ rest) =
      d'.walk followLast left W rest := by
  obtain ⟨left, parent, name, rfl, -, hname, hparent, hway⟩ := site.way
  refine ⟨left, fun followLast rest => ?_⟩
  rw [hway d' h, Disk.walk_into (get?_parent h hparent) hname htop]

/-- Whatever is there now, the path leads nowhere else. -/
theorem eq_of_locate (site : Site d p W) (h : SameOutside W d d') {base l : Location}
    (hl : d'.locate false base p = .ok l) : l = W := by
  obtain ⟨left, parent, name, rfl, -, hname, hparent, hway⟩ := site.way
  have hwalk := Disk.locate_of_isAbsolute site.absolute hl
  rw [site.plain, ← List.append_nil p.parts, hway d' h,
    Disk.walk_onto (get?_parent h hparent) hname] at hwalk
  exact (Except.ok.inj hwalk).symm

/-- The path of the workspace does not end in a dot, because a new directory cannot be made under
such a path. -/
theorem last_ne_dot (site : Site d p W) {before : List Text} {part : Text}
    (h : p.parts = before ++ [part]) : part ≠ ['.'] := by
  obtain ⟨-, -, name, -, hlast, hname, -⟩ := site.way
  rw [h, List.getLast?_concat] at hlast
  rw [Option.some.inj hlast]
  exact hname.ne_dot

end Site

/-- The name of a workspace is one name. -/
theorem slash_notMem_workspaceName (issued : Nat) : '/' ∉ Machine.workspaceName issued := by
  have hdigits : '/' ∉ Text.ofNat issued := fun h =>
    absurd (Nat.isDigit_of_mem_toDigits (by omega) (by omega) h) (by decide)
  rw [Machine.workspaceName]
  simp only [List.mem_append, List.mem_replicate, not_or]
  exact ⟨⟨⟨⟨by decide, by decide⟩, hdigits⟩, by decide⟩, by simp, hdigits⟩

/-- **A workspace is made where nothing was.** The path of the workspace leads there on every disk
that agrees with this one outside, so that it keeps its meaning while the workspace is filled. -/
theorem makeWorkspace_eq_ok {m m' : Machine} {parent p : Path} (hd : m.disk.Lawful)
    (h : m.makeWorkspace parent = (.ok p, m')) :
    ∃ W, Site m.disk p W ∧ m'.disk = m.disk.insert W .directory ∧ m'.disk.Lawful := by
  rw [Machine.makeWorkspace] at h
  split at h
  · simp at h
  · next disk hmake =>
    obtain ⟨hp, rfl⟩ := Prod.mk.inj h
    obtain ⟨W, hnew, hputs, hdisk⟩ := Disk.makeDirectory_eq_ok hmake
    rw [Except.ok.inj hp] at hputs
    have habsolute : p.isAbsolute = true := by
      rw [← Except.ok.inj hp]
      exact Path.isAbsolute_join (Path.isAbsolute_join (Path.isAbsolute_iff.mpr ⟨_, rfl⟩) _) _
    have hplain : Disk.steps p = p.parts := by
      rw [← Except.ok.inj hp]
      exact Path.steps_join _ (by simp [Machine.workspaceName])
        (slash_notMem_workspaceName m.issued)
    have hwalk := Disk.walks_of_walk (Disk.locate_splitSlash habsolute hputs.found)
    -- the walk starts at the root, and that is there
    have houtside : ¬ W <+: [] := by
      rw [List.prefix_nil]
      rintro rfl
      exact absurd hnew (by simp [Disk.get?])
    have hway := hwalk.to_missing hnew houtside
    obtain ⟨-, dir, name, rfl, hlast, hdown, hparent, -⟩ := hway
    have hpart := Path.mem_parts (List.mem_of_getLast? hlast)
    refine ⟨_, ⟨habsolute, hplain, hnew, hwalk.to_missing hnew houtside⟩, hdisk, ?_⟩
    rw [hdisk]
    exact hd.insert_over hparent ⟨hpart.1, hpart.2, hdown.ne_dot, hdown.ne_dots⟩ (by simp [hnew]) _

-- ---------------------------------------------------------------------------
-- The invariant
-- ---------------------------------------------------------------------------

/-- A disk on which a workspace is being prepared. Outside the workspace it agrees with the disk
before; in the workspace there are links only where there may be. -/
structure Prepared (d₀ : Disk) (W : Location) (mayLink : Location → Prop) (d : Disk) : Prop where
  same : SameOutside W d₀ d
  top : d.get? W = some .directory
  links : ∀ n target, d.get? (W ++ n) = some (.link target) → mayLink n

/-- A path below the one of a workspace by the given steps, which do not climb and pass no place
where a link may be. -/
structure Inside (p : Path) (mayLink : Location → Prop) (q : Path) (ps : List Text) : Prop where
  absolute : q.isAbsolute = true
  parts_eq : q.parts = p.parts ++ ps
  stays : staysBelow [] ps = true
  passed : ∀ c ∈ passed [] ps, ¬ mayLink c

section

variable {d₀ d d' : Disk} {p q r : Path} {W : Location} {mayLink : Location → Prop} {ps : List Text}

/-- A workspace that was just made is prepared: nothing is in it. -/
theorem prepared_new (site : Site d₀ p W) (hd : d₀.Lawful) :
    Prepared d₀ W mayLink (d₀.insert W .directory) := by
  have htop := d₀.get?_insert_self site.ne_nil .directory
  refine ⟨Disk.sameOutside_insert d₀ (List.prefix_refl W) _, htop, fun n target hlink => ?_⟩
  by_cases hn : n = []
  · rw [hn, List.append_nil, htop] at hlink
    exact absurd hlink (by simp)
  · rw [Disk.get?_insert_of_ne _ (by simpa using hn),
      hd.none_below site.new (List.prefix_append W n)] at hlink
    exact absurd hlink (by simp)

/-- A path inside leads to the place that its steps say, past directories. -/
theorem Prepared.locate (hd : Prepared d₀ W mayLink d) (site : Site d₀ p W)
    (hq : Inside p mayLink q ps) {followLast : Bool}
    (hlast : followLast = true → ¬ mayLink (onwards [] ps)) {base l : Location}
    (h : d.locate followLast base (Disk.splitSlash q).1 = .ok l) :
    l = W ++ onwards [] ps ∧ ∀ c ∈ passed [] ps, d.get? (W ++ c) = some .directory := by
  obtain ⟨left, henter⟩ := site.enter hd.same hd.top
  have hwalk := Disk.locate_splitSlash hq.absolute h
  rw [hq.parts_eq, henter, ← List.append_nil W] at hwalk
  exact (Disk.walks_of_walk hwalk).eq_onwards hq.stays
    (fun c hc target hlink => hq.passed c hc (hd.links c target hlink))
    (fun hfollow target hlink => hlast hfollow (hd.links _ target hlink))

/-- Putting an entry at a path inside keeps a workspace prepared. The path does not pass a link, so
the entry goes where its parts lead, and a link is put only where one may be. -/
theorem Prepared.put (hd : Prepared d₀ W mayLink d) (site : Site d₀ p W)
    (hq : Inside p mayLink q ps) {followLast : Bool} {base l : Location} {e : Entry}
    (hputs : Puts d followLast base q l e)
    (hlast : followLast = true → ¬ mayLink (onwards [] ps))
    (hlink : ∀ target, e = .link target → onwards [] ps ∉ Disk.passed [] ps →
      mayLink (onwards [] ps)) :
    Prepared d₀ W mayLink (d.insert l e) := by
  obtain ⟨rfl, hdirs⟩ := hd.locate site hq hlast hputs.found
  have hne : onwards [] ps ≠ [] := by
    intro hnil
    exact hputs.not_directory (by rw [hnil, List.append_nil, hd.top])
  refine ⟨hd.same.trans (Disk.sameOutside_insert d (List.prefix_append ..) e), ?_, ?_⟩
  · rw [Disk.get?_insert_of_ne _ (by simpa using hne), hd.top]
  · intro n target hn
    by_cases heq : n = onwards [] ps
    · subst heq
      rw [Disk.get?_insert_self _ (by simp [hne])] at hn
      obtain rfl := Option.some.inj hn
      -- what is passed is there already
      refine hlink target rfl fun hpassed => ?_
      have hnew := hputs.new_link target rfl
      rw [hdirs _ hpassed] at hnew
      exact absurd hnew (by simp)
    · rw [Disk.get?_insert_of_ne _ (by simpa using heq)] at hn
      exact hd.links n target hn

/-- The beginning of a path inside the workspace is inside it too. -/
theorem Inside.of_append {ps' : List Text} (hq : Inside p mayLink q (ps ++ ps'))
    (hr : r.isAbsolute = true) (hparts : r.parts = p.parts ++ ps) : Inside p mayLink r ps := by
  have hstays := hq.stays
  have hpassed := hq.passed
  rw [Disk.staysBelow_append, Bool.and_eq_true] at hstays
  rw [Disk.passed_append] at hpassed
  exact ⟨hr, hparts, hstays.1, fun c hc => hpassed c (List.mem_append_left _ hc)⟩

/-- The parent of a path inside is inside, unless the path is the one of the workspace. At least one
part has to be left for the parent to take off. -/
theorem Inside.parent (hq : Inside p mayLink q ps) (site : Site d₀ p W)
    (hps : ∃ part ∈ ps, part ≠ ['.']) (h : q.parent? = some r) :
    ∃ ps', Inside p mayLink r ps' := by
  obtain ⟨hr, dots, last, dots', hparts, hdots, hlast, hdots'⟩ := Path.parts_parent hq.absolute h
  rw [hq.parts_eq, List.append_eq_append_iff] at hparts
  rcases hparts with ⟨more, hmore, rfl⟩ | ⟨more, hmore, htail⟩
  · exact ⟨more, hq.of_append hr hmore⟩
  · rcases List.eq_nil_or_concat more with rfl | ⟨before, final, rfl⟩
    · rw [List.append_nil] at hmore
      have hq' : Inside p mayLink q ([] ++ ps) := hq
      exact ⟨[], hq'.of_append hr (by rw [hmore, List.append_nil])⟩
    · -- the parent would lack two parts that are no dots
      exfalso
      rw [List.concat_eq_append, ← List.append_assoc] at hmore
      have hfinal := site.last_ne_dot hmore
      obtain ⟨part, hpart, hne⟩ := hps
      have hcount := congrArg (List.countP (· != ['.'])) htail
      have hzero : ∀ parts : List Text, (∀ part ∈ parts, part = ['.']) →
          parts.countP (· != ['.']) = 0 := fun parts hall =>
        List.countP_eq_zero.mpr fun part hpart => by simp [hall part hpart]
      have hpos : 0 < ps.countP (· != ['.']) :=
        List.countP_pos_iff.mpr ⟨part, hpart, by simpa using hne⟩
      simp only [List.concat_eq_append, List.countP_append, List.countP_cons, List.countP_nil,
        hzero dots hdots, hzero dots' hdots', bne_iff_ne.mpr hlast, bne_iff_ne.mpr hfinal] at hcount
      simp at hcount
      omega

/-- Dots stay at a directory. -/
theorem walk_dots {followLast : Bool} {links : Nat} (h : d.get? W = some .directory)
    (hps : ∀ part ∈ ps, part = ['.']) : d.walk followLast links W ps = .ok W := by
  induction ps with
  | nil => rw [Disk.walk]
  | cons part ps ih =>
    rw [hps part (List.mem_cons_self ..), Disk.walk, h]
    exact ih fun part hpart => hps part (List.mem_cons_of_mem _ hpart)

/-- The workspace itself is never missed: dots lead from it to it, and it is there. So the making of
parents stops at the workspace at the latest. -/
theorem Prepared.makeDirectory_ne_notFound (hd : Prepared d₀ W mayLink d) (site : Site d₀ p W)
    (hq : Inside p mayLink q ps) (hps : ∀ part ∈ ps, part = ['.']) (base : Location) :
    d.makeDirectory base q ≠ .error .notFound := by
  obtain ⟨left, henter⟩ := site.enter hd.same hd.top
  have habsolute := Path.isAbsolute_splitSlash hq.absolute
  obtain ⟨body, hbody⟩ := Path.isAbsolute_iff.mp habsolute
  rw [Disk.makeDirectory, Disk.locate, if_neg (by simp [hbody]), if_pos habsolute,
    Path.steps_splitSlash, hq.parts_eq, henter, walk_dots hd.top hps]
  split
  · next e he =>
    split at he
    · rw [← Except.error.inj he]
      simp
    · simp at he
  · next l hl =>
    split at hl
    · simp at hl
    · obtain rfl := Except.ok.inj hl
      simp [hd.top]

/-- Making a directory inside keeps the workspace prepared. Case split on whether the path leads to
the workspace itself or below it. -/
theorem Prepared.makeDirectory (hd : Prepared d₀ W mayLink d) (site : Site d₀ p W)
    (hq : Inside p mayLink q ps) {base : Location} (h : d.makeDirectory base q = .ok d') :
    Prepared d₀ W mayLink d' := by
  obtain ⟨l, -, hputs, rfl⟩ := Disk.makeDirectory_eq_ok h
  exact hd.put site hq hputs (by simp) (by simp)

/-- Whether or not it succeeds, making directories keeps a workspace prepared if making those above
does. -/
theorem Prepared.makeFrom_cons (hd : Prepared d₀ W mayLink d) (site : Site d₀ p W)
    (hq : Inside p mayLink q ps) {base : Location} {above : List Path}
    (habove : d.makeDirectory base q = .error .notFound →
      Prepared d₀ W mayLink (d.makeFrom base above).2) :
    Prepared d₀ W mayLink (d.makeFrom base (q :: above)).2 := by
  rw [Disk.makeFrom]
  split
  · exact hd
  · split
    · next d₁ hmake => exact hd.makeDirectory site hq hmake
    · next e hmake =>
      split
      · next hmissing =>
        subst hmissing
        have hd₁ := habove hmake
        split
        · next e d₁ hfrom => rwa [hfrom] at hd₁
        · next d₁ hfrom =>
          rw [hfrom] at hd₁
          split
          · next d₂ hagain => exact hd₁.makeDirectory site hq hagain
          · exact hd₁
      · exact hd

/-- **Making a directory with what is missing above it never leaves the workspace.** The parents
are tried one after the other, and the workspace is there. -/
theorem Prepared.makeFrom (hd : Prepared d₀ W mayLink d) (site : Site d₀ p W)
    (hq : Inside p mayLink q ps) (base : Location) (fuel : Nat) :
    Prepared d₀ W mayLink (d.makeFrom base (q :: q.parents fuel)).2 := by
  induction fuel generalizing q ps with
  | zero =>
    refine hd.makeFrom_cons site hq fun _ => ?_
    rw [Path.parents, Disk.makeFrom]
    exact hd
  | succ fuel ih =>
    refine hd.makeFrom_cons site hq fun hmissing => ?_
    rw [Path.parents]
    split
    · rw [Disk.makeFrom]
      exact hd
    · next r hr =>
      by_cases hdots : ∀ part ∈ ps, part = ['.']
      · exact absurd hmissing (hd.makeDirectory_ne_notFound site hq hdots base)
      · push Not at hdots
        obtain ⟨ps', hr'⟩ := hq.parent site hdots hr
        exact ih hr'

end

-- ---------------------------------------------------------------------------
-- Copying a tree
-- ---------------------------------------------------------------------------

/-- A list of entries in which names can be spelled, and nothing lies below a link. -/
structure Tidy (items : List Disk.Item) : Prop where
  spelled : ∀ item ∈ items, ∀ name ∈ item.names, Spelled name
  link_last : ∀ names, ⟨names, .link⟩ ∈ items → names ≠ [] → ∀ item ∈ items,
    names <+: item.names → item = ⟨names, .link⟩

/-- The walk over a tree of a lawful disk gives tidy items: what is below the top is there with its
names, and nothing is listed below a link. -/
theorem tidy_tree {d : Disk} (hd : d.Lawful) (base : Location) (p : Path) :
    Tidy (d.tree base p) := by
  obtain ⟨top, htop⟩ := d.exists_top base p
  refine ⟨fun item hitem => ?_, fun names hlink hne item hitem hbelow => ?_⟩
  · by_cases hnames : item.names = []
    · simp [hnames]
    · obtain ⟨e, he, -⟩ := htop item hitem hnames
      exact hd.spelled_below (by rw [he]; rfl)
  · obtain ⟨e, he, hkind⟩ := htop _ hlink hne
    obtain ⟨rest, hrest⟩ := hbelow
    have hnames : item.names ≠ [] := by simp [← hrest, hne]
    obtain ⟨e', he', hkind'⟩ := htop item hitem hnames
    rw [← hrest, ← List.append_assoc] at he'
    by_cases hnil : rest = []
    · rw [hnil, List.append_nil, he] at he'
      obtain rfl := Option.some.inj he'
      rw [hnil, List.append_nil] at hrest
      calc item = ⟨item.names, item.kind⟩ := rfl
        _ = ⟨names, .link⟩ := by rw [← hrest, hkind', ← hkind]
    · have hdir := hd.directory_above hnil (by rw [he']; rfl)
      rw [he] at hdir
      obtain rfl := Option.some.inj hdir
      simp [Disk.kind] at hkind

/-- Where links may be in a workspace once a tree was copied: where the tree has links, but not on
the way to its top. -/
def MayLink (dep : List Text) (items : List Disk.Item) (n : Location) : Prop :=
  n ∉ passed [] dep ∧
    ∃ names, names ≠ [] ∧ ⟨names, .link⟩ ∈ items ∧ n = onwards [] dep ++ names

section

variable {d₀ : Disk} {p : Path} {W : Location} {dep : Text} {items : List Disk.Item}

/-- The target of an entry of the tree lies inside. The dependency directory does not climb above
its start, and the names of the entry go down from where it leads. -/
theorem inside_item (hp : p.isAbsolute = true) (hdep : Path.isAbsolute ⟨dep⟩ = false)
    (hstays : staysBelow [] (Path.parts ⟨dep⟩) = true) (hitems : Tidy items) {item : Disk.Item}
    (hitem : item ∈ items) : Inside p (MayLink (Path.parts ⟨dep⟩) items)
      ((p.join ⟨dep⟩).join ⟨Text.join ['/'] item.names⟩) (Path.parts ⟨dep⟩ ++ item.names) := by
  have hspelled := hitems.spelled item hitem
  refine ⟨Path.isAbsolute_join (Path.isAbsolute_join hp _) _, ?_, ?_, ?_⟩
  · rw [Path.parts_join _ (Path.isAbsolute_ofNames hspelled), Path.parts_join _ hdep,
      Path.parts_ofNames hspelled, List.append_assoc]
  · rw [Disk.staysBelow_append, hstays, Disk.staysBelow_names _ hspelled]
    rfl
  · intro c hc ⟨hway, names, hne, hlink, heq⟩
    rw [Disk.passed_append, List.mem_append] at hc
    rcases hc with hc | hc
    · exact hway hc
    · -- below a link of the tree nothing else is
      obtain ⟨above, below, hnames, hbelow, rfl⟩ := Disk.mem_passed_names hspelled hc
      obtain rfl := List.append_cancel_left heq
      have hsame := hitems.link_last above hlink hne item hitem ⟨below, hnames.symm⟩
      rw [hsame] at hnames
      exact hbelow (by simpa using hnames)

theorem onwards_item (hitems : Tidy items) {item : Disk.Item} (hitem : item ∈ items)
    (way : List Text) : onwards [] (way ++ item.names) = onwards [] way ++ item.names := by
  rw [Disk.onwards_append, Disk.onwards_names _ (hitems.spelled item hitem)]

/-- A file or a link that was put somewhere is not the top of the tree. -/
theorem names_ne_nil_of_puts {d : Disk} {followLast : Bool} {base l : Location} {e : Entry}
    {top : Path} (htop : top.parts ≠ []) {names : List Text} (he : e ≠ .directory)
    (h : Puts d followLast base (top.join ⟨Text.join ['/'] names⟩) l e) : names ≠ [] := by
  rintro rfl
  have hslash := h.no_slash he
  rw [Text.join, Path.splitSlash_join_nil htop] at hslash
  exact absurd hslash (by simp)

/-- The machine's operations, with programs run in some other way. -/
def hostWith (launch : Machine → Launch → Except IoError Child × Machine) : Host Machine :=
  { Machine.host with launch }

/-- A property of the disk is kept by a change if it holds of the disk after a success. After a
failure the disk is the same. -/
theorem change_keeps {P : Disk → Prop} {m : Machine} (hm : P m.disk)
    {result : Except IoError Disk} (h : ∀ d', result = .ok d' → P d') :
    P (m.change result).2.disk := by
  cases result with
  | ok d' => exact h d' rfl
  | error e => exact hm

/-- **Copying an entry of a tree keeps a workspace prepared.** One case for each kind of entry; a
failed attempt changes nothing, except that directories may have been made. -/
theorem Prepared.perform {m : Machine}
    (hd : Prepared d₀ W (MayLink (Path.parts ⟨dep⟩) items) m.disk) (site : Site d₀ p W)
    (hdep : Path.isAbsolute ⟨dep⟩ = false) (hstays : staysBelow [] (Path.parts ⟨dep⟩) = true)
    (hitems : Tidy items) {launch : Machine → Launch → Except IoError Child × Machine}
    {source : Path} {step : CopyStep}
    (hstep : step ∈ treeSteps source (p.join ⟨dep⟩) items) :
    Prepared d₀ W (MayLink (Path.parts ⟨dep⟩) items) (step.perform (hostWith launch) m).2.disk := by
  obtain ⟨item, hitem, rfl⟩ := List.mem_map.mp hstep
  have hinside := inside_item site.absolute hdep hstays hitems hitem
  have honwards := onwards_item hitems hitem (Path.parts ⟨dep⟩)
  have htop : (p.join ⟨dep⟩).parts ≠ [] := by
    obtain ⟨-, -, name, -, hlast, -⟩ := site.way
    rw [Path.parts_join p hdep]
    exact List.append_ne_nil_of_left_ne_nil (List.ne_nil_of_mem (List.mem_of_getLast? hlast)) _
  rw [CopyStep.perform]
  split
  · exact hd.makeFrom site hinside m.directory _
  · next hkind =>
    refine change_keeps hd fun d' hcopy => ?_
    obtain ⟨l, target, hputs, rfl⟩ := Disk.copyLink_eq_ok hcopy
    refine hd.put site hinside hputs (by simp) fun _ _ hnew => ?_
    rw [honwards] at hnew ⊢
    -- a link is put only at the place of an item that is listed as one
    have hne := names_ne_nil_of_puts htop (by simp) hputs
    refine ⟨fun hway => hnew ?_, item.names, hne, ?_, rfl⟩
    · rw [Disk.passed_append]
      exact List.mem_append_left _ hway
    · rw [← hkind]
      exact hitem
  · next hkind =>
    refine change_keeps hd fun d' hcopy => ?_
    obtain ⟨l, bytes, mode, hputs, rfl⟩ := Disk.copyFile_eq_ok hcopy
    refine hd.put site hinside hputs (fun _ => ?_) (by simp)
    rw [honwards]
    -- and no file is listed at the place of a link
    rintro ⟨-, names, hne, hlink, heq⟩
    obtain rfl := List.append_cancel_left heq
    have hsame := hitems.link_last _ hlink hne item hitem (List.prefix_refl _)
    rw [hsame] at hkind
    exact absurd hkind (by simp)
  · exact hd

end

-- ---------------------------------------------------------------------------
-- Files at the top
-- ---------------------------------------------------------------------------

/-- The files that are put at the top of a workspace. -/
def written : List String := descriptions ++ [Prelude.fileName, programName]

theorem spelled_written : ∀ name ∈ written, Spelled name.toList := by decide

/-- A prepared workspace in which the files at the top can be written, since no link is there. -/
def Ready (d₀ : Disk) (W : Location) (d : Disk) : Prop :=
  ∃ mayLink, Prepared d₀ W mayLink d ∧ ¬ mayLink [] ∧ ∀ name ∈ written, ¬ mayLink [name.toList]

section

variable {d₀ d d' : Disk} {p : Path} {W : Location}

/-- A prepared workspace is ready for the fixed files if none of them was copied as a link. -/
theorem Prepared.ready {dep : List Text} {items : List Disk.Item}
    (hd : Prepared d₀ W (MayLink dep items) d)
    (h : onwards [] dep = [] → ∀ name ∈ written, ⟨[name.toList], .link⟩ ∉ items) :
    Ready d₀ W d := by
  refine ⟨_, hd, ?_, ?_⟩
  · rintro ⟨-, names, hne, -, heq⟩
    exact hne (List.append_eq_nil_iff.mp heq.symm).2
  · rintro name hname ⟨-, names, hne, hlink, heq⟩
    -- one name is not enough for a place below another one
    rcases List.append_eq_singleton_iff.mp heq.symm with ⟨htop, rfl⟩ | ⟨-, hnil⟩
    · exact h htop name hname hlink
    · exact hne hnil

/-- Putting a fixed file keeps the workspace ready, since it goes to its own place. -/
theorem Ready.put (hd : Ready d₀ W d) (site : Site d₀ p W) {name : String} (hname : name ∈ written)
    {base l : Location} {bytes : Bytes} {mode : Bool}
    (h : Puts d true base (p.child name) l (.file bytes mode)) :
    Ready d₀ W (d.insert l (.file bytes mode)) := by
  obtain ⟨mayLink, hd, htop, hfiles⟩ := hd
  have hspelled : ∀ part ∈ [name.toList], Spelled part := by
    simpa using spelled_written name hname
  have honwards : onwards [] [name.toList] = [name.toList] := Disk.onwards_names [] hspelled
  have hinside : Inside p mayLink (p.child name) [name.toList] := by
    refine ⟨Path.isAbsolute_join site.absolute _, ?_, Disk.staysBelow_names _ hspelled, ?_⟩
    · have hparts := Path.parts_ofNames hspelled
      exact (Path.parts_join p (Path.isAbsolute_ofNames hspelled)).trans (by rw [hparts])
    · simpa [Disk.passed] using htop
  refine ⟨mayLink, hd.put site hinside h (fun _ => ?_) (by simp), htop, hfiles⟩
  rw [honwards]
  exact hfiles name hname

end

end Workspace

end Sandscript
