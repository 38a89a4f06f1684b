import Sandscript.Proofs.WorkspaceFrame

/-!
# Reaching into a workspace

Paths into a workspace lead down along names, with dots between the names perhaps. As long as there
are directories or nothing on the way, it can be said what each operation does with such a path:
making a directory makes what is missing above it too, and a file or a link can be put where the
directory above it is there. A dot at the end is another matter, since it asks for a directory that
is there already.

* `Walks.way` — the way to a directory stays the same on a disk that has more, unless it takes more
  links than may be followed.
* `Grown` — the one disk has directories that the other lacks, on the way to a place.
* `locate_of_parent`, `locate_of_missing` — where a path below a workspace leads.
* `makeFrom_below` — making a directory below a workspace succeeds, and makes only what is missing
  on the way to it.
* `makeFrom_dotted` — if the path ends with a dot, all but the directory itself is made.
-/

namespace Sandscript

namespace Disk

open Sandscript.Path (Spelled)

-- ---------------------------------------------------------------------------
-- Disks that have more
-- ---------------------------------------------------------------------------

/-- The second disk has all that the first one has. -/
def Extends (d d' : Disk) : Prop := ∀ l e, d.get? l = some e → d'.get? l = some e

/-- A path leads to a location, however many links are on the way there. A link at its end is not
followed. -/
def LeadsTo (d : Disk) (base : Location) (p : Path) (l : Location) : Prop :=
  ∃ links, d.walk false links (if p.isAbsolute then [] else base) p.parts = .ok l

/-- A link that may not be followed any more ends a walk. -/
theorem walk_link_zero {d : Disk} {followLast : Bool} {at_ : Location} {step : Text}
    {target : Path} {rest : List Text} (hdir : d.get? at_ = some .directory)
    (hdown : GoesDown step) (hlink : d.get? (at_ ++ [step]) = some (.link target))
    (hne : rest ≠ []) : d.walk followLast 0 at_ (step :: rest) = .error .tooManyLinks := by
  rw [walk_goesDown hdir hdown, hlink]
  dsimp only
  rw [if_neg (by simp [hne])]

/-- A dot in the middle of a path stays where it is, if there is a directory. -/
theorem walk_dot {d : Disk} {followLast : Bool} {links : Nat} {at_ : Location}
    (hdir : d.get? at_ = some .directory) (rest : List Text) :
    d.walk followLast links at_ (['.'] :: rest) = d.walk followLast links at_ rest := by
  rw [walk, hdir]
  rfl

/-- **The way to a directory** is the same on all disks that have more, for any number of links that
may be followed. The one thing that can come between is that the way takes more links than that. -/
theorem Walks.way {d : Disk} {links : Nat} {a l : Location} {ps : List Text}
    (h : Walks d false links a ps l) (hdir : d.get? l = some .directory) (budget : Nat) :
    (∃ left, ∀ d', Extends d d' → ∀ followLast rest,
      d'.walk followLast budget a (ps ++ rest) = d'.walk followLast left l rest) ∨
    ∀ followLast rest, d.walk followLast budget a (ps ++ rest) = .error .tooManyLinks := by
  -- each step is the same for all budgets, except that a link takes one away
  induction h generalizing budget with
  | done => exact Or.inl ⟨budget, fun d' _ followLast rest => rfl⟩
  | stay hat _ ih =>
    rcases ih hdir budget with ⟨left, hway⟩ | hshort
    · refine Or.inl ⟨left, fun d' hmore followLast rest => ?_⟩
      rw [List.cons_append, walk_dot (hmore _ _ hat), hway d' hmore]
    · refine Or.inr fun followLast rest => ?_
      rw [List.cons_append, walk_dot hat, hshort]
  | up hat _ ih =>
    rcases ih hdir budget with ⟨left, hway⟩ | hshort
    · refine Or.inl ⟨left, fun d' hmore followLast rest => ?_⟩
      rw [List.cons_append, walk, hmore _ _ hat]
      exact hway d' hmore followLast rest
    · refine Or.inr fun followLast rest => ?_
      rw [List.cons_append, walk, hat]
      exact hshort followLast rest
  | halt _ _ hend =>
    -- nothing halts at a directory
    rcases hend with hnone | ⟨target, hlink, -⟩
    · exact absurd (hnone.symm.trans hdir) (by simp)
    · exact absurd (hlink.symm.trans hdir) (by simp)
  | @follow links at_ l step after target hat hdown hlink hmust _ ih =>
    have hne : after ≠ [] := by simpa using hmust
    have hgo : ∀ rest, after ++ rest ≠ [] := List.append_ne_nil_of_left_ne_nil hne
    cases budget with
    | zero =>
      refine Or.inr fun followLast rest => ?_
      rw [List.cons_append, walk_link_zero hat hdown hlink (hgo rest)]
    | succ budget =>
      rcases ih hdir budget with ⟨left, hway⟩ | hshort
      · refine Or.inl ⟨left, fun d' hmore followLast rest => ?_⟩
        rw [List.cons_append, walk_link (hmore _ _ hat) hdown (hmore _ _ hlink)
          (Or.inl (hgo rest)), ← List.append_assoc, hway d' hmore]
      · refine Or.inr fun followLast rest => ?_
        rw [List.cons_append, walk_link hat hdown hlink (Or.inl (hgo rest)), ← List.append_assoc,
          hshort]
  | @down links at_ l step after e hat hdown hentry hnot _ ih =>
    rcases ih hdir budget with ⟨left, hway⟩ | hshort
    · refine Or.inl ⟨left, fun d' hmore followLast rest => ?_⟩
      rw [List.cons_append, walk_entry (hmore _ _ hat) hdown (hmore _ _ hentry) hnot,
        hway d' hmore]
    · refine Or.inr fun followLast rest => ?_
      rw [List.cons_append, walk_entry hat hdown hentry hnot, hshort]

/-- Where a walk goes on, there is a directory, and every walk that starts so gets there, with the
same number of links left. The first steps may pass links, and then the rest goes on from where
these lead. -/
theorem Walks.directory_before {d : Disk} {followLast : Bool} {links : Nat} {a l : Location}
    {ps rest : List Text} (h : Walks d followLast links a (ps ++ rest) l) (hne : rest ≠ []) :
    ∃ left c, left ≤ links ∧ d.get? c = some .directory ∧
      ∀ more, d.walk true links a (ps ++ more) = d.walk true left c more := by
  generalize hall : ps ++ rest = all at h
  induction h generalizing ps with
  | done => exact absurd (List.append_eq_nil_iff.mp hall).2 hne
  | @stay links at_ l after hat _ ih =>
    cases ps with
    | nil => exact ⟨links, at_, Nat.le_refl _, hat, fun _ => rfl⟩
    | cons step ps =>
      obtain ⟨rfl, hrest⟩ := List.cons.inj hall
      obtain ⟨left, c, hle, hdir, hway⟩ := ih hrest
      refine ⟨left, c, hle, hdir, fun more => ?_⟩
      rw [List.cons_append, walk, hat]
      exact hway more
  | @up links at_ l after hat _ ih =>
    cases ps with
    | nil => exact ⟨links, at_, Nat.le_refl _, hat, fun _ => rfl⟩
    | cons step ps =>
      obtain ⟨rfl, hrest⟩ := List.cons.inj hall
      obtain ⟨left, c, hle, hdir, hway⟩ := ih hrest
      refine ⟨left, c, hle, hdir, fun more => ?_⟩
      rw [List.cons_append, walk, hat]
      exact hway more
  | @halt links at_ step hat _ _ =>
    cases ps with
    | nil => exact ⟨links, at_, Nat.le_refl _, hat, fun _ => rfl⟩
    | cons first ps => exact absurd (List.append_eq_nil_iff.mp (List.cons.inj hall).2).2 hne
  | @follow links at_ l step after target hat hdown hlink _ _ ih =>
    cases ps with
    | nil => exact ⟨links + 1, at_, Nat.le_refl _, hat, fun _ => rfl⟩
    | cons first ps =>
      obtain ⟨rfl, hrest⟩ := List.cons.inj hall
      -- the walk goes on along the target of the link, with one link less
      obtain ⟨left, c, hle, hdir, hway⟩ := @ih (steps target ++ ps) (by
        rw [← hrest]
        exact List.append_assoc ..)
      refine ⟨left, c, Nat.le_succ_of_le hle, hdir, fun more => ?_⟩
      rw [List.cons_append, walk_link hat hdown hlink (Or.inr rfl), ← List.append_assoc]
      exact hway more
  | @down links at_ l step after e hat hdown hentry hnot _ ih =>
    cases ps with
    | nil => exact ⟨links, at_, Nat.le_refl _, hat, fun _ => rfl⟩
    | cons first ps =>
      obtain ⟨rfl, hrest⟩ := List.cons.inj hall
      obtain ⟨left, c, hle, hdir, hway⟩ := ih hrest
      refine ⟨left, c, hle, hdir, fun more => ?_⟩
      rw [List.cons_append, walk_entry hat hdown hentry hnot]
      exact hway more

/-- Only names that are not too long are steps of a walk, since the disk refuses the others. So
every name of a path that leads somewhere can be the name of an entry. -/
theorem Walks.fits {d : Disk} {followLast : Bool} {links : Nat} {a l : Location} {ps : List Text}
    (h : Walks d followLast links a ps l) {step : Text} (hstep : step ∈ ps) (hname : Spelled step) :
    GoesDown step := by
  induction h with
  | done => exact absurd hstep List.not_mem_nil
  | stay _ _ ih =>
    rcases List.mem_cons.mp hstep with rfl | hstep
    · exact absurd rfl hname.2.2.1
    · exact ih hstep
  | up _ _ ih =>
    rcases List.mem_cons.mp hstep with rfl | hstep
    · exact absurd rfl hname.2.2.2
    · exact ih hstep
  | halt _ hdown _ =>
    rw [List.mem_singleton.mp hstep]
    exact hdown
  | follow _ hdown _ _ _ ih =>
    rcases List.mem_cons.mp hstep with rfl | hstep
    · exact hdown
    · exact ih (List.mem_append_right _ hstep)
  | down _ hdown _ _ _ ih =>
    rcases List.mem_cons.mp hstep with rfl | hstep
    · exact hdown
    · exact ih hstep

-- ---------------------------------------------------------------------------
-- Down along names
-- ---------------------------------------------------------------------------

/-- A walk past directories comes to the place that its names say. Dots between the names make no
difference. -/
theorem walk_down {d : Disk} {followLast : Bool} {links : Nat} {a : Location}
    {ps names : List Text} (hnames : ps.filter (· != ['.']) = names)
    (hps : ∀ name ∈ names, GoesDown name)
    (hdirs : ∀ above, above <+: names → d.get? (a ++ above) = some .directory) (rest : List Text) :
    d.walk followLast links a (ps ++ rest) = d.walk followLast links (a ++ names) rest := by
  subst hnames
  induction ps generalizing a with
  | nil => rw [List.filter_nil, List.append_nil, List.nil_append]
  | cons step ps ih =>
    have hat : d.get? a = some .directory := by simpa using hdirs [] List.nil_prefix
    by_cases hdot : step = ['.']
    · subst hdot
      rw [List.filter_cons_of_neg (by simp)] at hps hdirs ⊢
      rw [List.cons_append, walk_dot hat, ih hps hdirs]
    · rw [List.filter_cons_of_pos (by simpa using hdot)] at hps hdirs ⊢
      have hname := hdirs [step] (List.cons_prefix_cons.mpr ⟨rfl, List.nil_prefix⟩)
      rw [List.cons_append, walk_into hat (hps step (List.mem_cons_self ..)) hname, ih]
      · rw [List.append_assoc, List.singleton_append]
      · exact fun other hother => hps other (List.mem_cons_of_mem _ hother)
      · intro above habove
        rw [List.append_assoc, List.singleton_append]
        exact hdirs (step :: above) (List.cons_prefix_cons.mpr ⟨rfl, habove⟩)

/-- The last step of a walk, where it does not lead to a link that is followed. -/
theorem walk_last {d : Disk} {followLast : Bool} {links : Nat} {parent : Location} {name : Text}
    (hparent : d.get? parent = some .directory) (hname : GoesDown name)
    (hlast : followLast = true → d.NoLink (parent ++ [name])) :
    d.walk followLast links parent [name] = .ok (parent ++ [name]) := by
  rw [walk_goesDown hparent hname]
  rcases hentry : d.get? (parent ++ [name]) with _ | _ | _ | target
  · rfl
  · rw [walk]
  · rw [walk]
  · cases followLast with
    | true => exact absurd hentry (hlast rfl target)
    | false => rfl

/-- On the way to a place there are directories or nothing. -/
def Clear (d : Disk) (a : Location) (ps : List Text) : Prop :=
  ∀ above, above <+: ps → d.get? (a ++ above) = none ∨ d.get? (a ++ above) = some .directory

theorem Clear.of_append {d : Disk} {a : Location} {ps more : List Text}
    (h : Clear d a (ps ++ more)) : Clear d a ps :=
  fun above habove => h above (habove.trans (List.prefix_append ..))

/-- A walk that goes on where nothing is fails. Up to there it passes directories only, dots
included, so that it is not stopped before by anything else. -/
theorem walk_missing {d : Disk} {followLast : Bool} {links : Nat} {a : Location}
    {ps names : List Text} (hnames : ps.filter (· != ['.']) = names)
    (hat : d.get? a = some .directory) (hps : ∀ name ∈ names, GoesDown name)
    (hclear : Clear d a names) (hmissing : d.get? (a ++ names) = none) {rest : List Text}
    (hne : rest ≠ []) : d.walk followLast links a (ps ++ rest) = .error .notFound := by
  subst hnames
  induction ps generalizing a with
  | nil =>
    rw [List.filter_nil, List.append_nil, hat] at hmissing
    exact absurd hmissing (by simp)
  | cons step ps ih =>
    by_cases hdot : step = ['.']
    · subst hdot
      rw [List.filter_cons_of_neg (by simp)] at hps hclear hmissing
      rw [List.cons_append, walk_dot hat]
      exact ih hat hps hclear hmissing
    · rw [List.filter_cons_of_pos (by simpa using hdot)] at hps hclear hmissing
      have hname := hps step (List.mem_cons_self ..)
      rcases hclear [step] (List.cons_prefix_cons.mpr ⟨rfl, List.nil_prefix⟩) with hnone | hdir
      · rw [List.cons_append, walk_goesDown hat hname, hnone]
        dsimp only
        rw [if_neg (by simp [hne])]
      · rw [List.cons_append, walk_into hat hname hdir]
        refine ih hdir (fun other hother => hps other (List.mem_cons_of_mem _ hother)) ?_ ?_
        · intro above habove
          rw [List.append_assoc, List.singleton_append]
          exact hclear (step :: above) (List.cons_prefix_cons.mpr ⟨rfl, habove⟩)
        · rwa [List.append_assoc, List.singleton_append]

-- ---------------------------------------------------------------------------
-- What is made on the way
-- ---------------------------------------------------------------------------

/-- The second disk has what the first one has, and directories on the way from one place down to
another that the first one lacks. -/
def Grown (d d' : Disk) (a : Location) (ps : List Text) : Prop :=
  ∀ l, d'.get? l = d.get? l ∨
    (d.get? l = none ∧ d'.get? l = some .directory ∧ ∃ above, above ≠ [] ∧ above <+: ps ∧
      l = a ++ above)

namespace Grown

variable {d d' : Disk} {a : Location} {ps : List Text}

theorem refl (d : Disk) (a : Location) (ps : List Text) : Grown d d a ps := fun _ => Or.inl rfl

/-- Making directories adds places and changes none. -/
theorem has_more (h : Grown d d' a ps) : Extends d d' := by
  intro l e hl
  rcases h l with heq | ⟨hnone, -⟩
  · rw [heq, hl]
  · exact absurd (hnone.symm.trans hl) (by simp)

/-- Whatever is made lies at or below the place where the making starts. -/
theorem sameOutside (h : Grown d d' a ps) : SameOutside a d d' := by
  intro l hl
  rcases h l with heq | ⟨-, -, above, -, -, rfl⟩
  · exact heq
  · exact absurd (List.prefix_append ..) hl

theorem of_prefix {more : List Text} (h : Grown d d' a ps) (hmore : ps <+: more) :
    Grown d d' a more := by
  intro l
  rcases h l with heq | ⟨hnone, hdir, above, hne, habove, hl⟩
  · exact Or.inl heq
  · exact Or.inr ⟨hnone, hdir, above, hne, habove.trans hmore, hl⟩

/-- One more directory. -/
theorem insert {name : Text} (h : Grown d d' a ps) (hnew : d.get? (a ++ ps ++ [name]) = none) :
    Grown d (d'.insert (a ++ ps ++ [name]) .directory) a (ps ++ [name]) := by
  intro l
  by_cases hl : l = a ++ ps ++ [name]
  · subst hl
    refine Or.inr ⟨hnew, get?_insert_self _ (by simp) _, ps ++ [name], by simp, List.prefix_refl _,
      by simp⟩
  · rw [get?_insert_of_ne _ hl]
    exact h.of_prefix (List.prefix_append ..) l

end Grown

/-- Making directories succeeds exactly if the making of all parents does, with the same disk. -/
theorem makeDirectories_eq_ok {d d' : Disk} {base : Location} {p : Path} :
    d.makeDirectories base p = .ok d' ↔ d.makeAll base p = (.ok (), d') := by
  rw [makeDirectories]
  rcases d.makeAll base p with ⟨e | _, disk⟩
  · simp [Except.map]
  · simp [Except.map]

end Disk

namespace Workspace

open Disk (SameOutside GoesDown Walks Clear Grown)
open Sandscript.Path (Spelled)

-- ---------------------------------------------------------------------------
-- Below a workspace
-- ---------------------------------------------------------------------------

/-- A disk on which a workspace stands: outside it is as before, and all is lawful. -/
structure Stands (d₀ : Disk) (W : Location) (d : Disk) : Prop where
  same : SameOutside W d₀ d
  top : d.get? W = some .directory
  lawful : d.Lawful

/-- A path that goes on from another one down along names, with dots between them perhaps. -/
structure Below (p q : Path) (ps : List Text) : Prop where
  absolute : q.isAbsolute = true
  clean : '\x00' ∉ q.text
  parts_eq : ∃ way, q.parts = p.parts ++ way ∧ way.filter (· != ['.']) = ps
  spelled : ∀ name ∈ ps, Spelled name
  goesDown : ∀ name ∈ ps, GoesDown name

section

variable {d₀ d : Disk} {p q : Path} {W : Location} {ps : List Text} {name : Text}

/-- Above a directory of the workspace there are directories, up to the workspace itself. -/
theorem Stands.above (hd : Stands d₀ W d) (h : d.get? (W ++ ps) = some .directory) :
    ∀ above, above <+: ps → d.get? (W ++ above) = some .directory := by
  rintro above ⟨below, rfl⟩
  by_cases hne : below = []
  · subst hne
    rwa [List.append_nil] at h
  · rw [← List.append_assoc] at h
    exact hd.lawful.directory_above hne (by rw [h]; rfl)

theorem zero_notMem_splitSlash (h : '\x00' ∉ q.text) : '\x00' ∉ (Disk.splitSlash q).1.text := by
  obtain ⟨slashes, htext, -⟩ := Path.splitSlash_append q
  intro hin
  exact h (by rw [htext]; exact List.mem_append_left _ hin)

/-- The last name of a path that does not end with a dot is its last part. -/
theorem Below.parts_concat (hq : Below p q (ps ++ [name])) (hend : ¬ q.EndsInDot) :
    ∃ front, q.parts = p.parts ++ (front ++ [name]) ∧ front.filter (· != ['.']) = ps := by
  obtain ⟨way, hparts, hway⟩ := hq.parts_eq
  rcases List.eq_nil_or_concat way with rfl | ⟨front, last, rfl⟩
  · exact absurd hway.symm (by simp)
  · rw [List.concat_eq_append] at hparts hway
    have hlast : last ≠ ['.'] := by
      rintro rfl
      exact hend (by rw [Path.EndsInDot, hparts, ← List.append_assoc, List.getLast?_concat])
    rw [List.filter_append, List.filter_cons_of_pos (by simpa using hlast)] at hway
    obtain ⟨hfront, hsame⟩ := List.append_inj' hway rfl
    exact ⟨front, by rw [hparts, List.singleton_inj.mp hsame], hfront⟩

/-- A path that ends with a dot has all its names before it. -/
theorem Below.parts_dotted (hq : Below p q (ps ++ [name])) (hend : q.EndsInDot) :
    ∃ front, q.parts = p.parts ++ (front ++ [['.']]) ∧
      front.filter (· != ['.']) = ps ++ [name] := by
  obtain ⟨way, hparts, hway⟩ := hq.parts_eq
  rcases List.eq_nil_or_concat way with rfl | ⟨front, last, rfl⟩
  · exact absurd hway.symm (by simp)
  · rw [List.concat_eq_append] at hparts hway
    rw [Path.EndsInDot, hparts, ← List.append_assoc, List.getLast?_concat] at hend
    obtain rfl := Option.some.inj hend
    rw [List.filter_append, List.filter_cons_of_neg (by simp), List.filter_nil,
      List.append_nil] at hway
    exact ⟨front, hparts, hway⟩

/-- A path below a workspace leads on from there. -/
theorem locate_below (site : Site d₀ p W) (hd : Stands d₀ W d) (hq : Below p q ps)
    {way : List Text} (hway : q.parts = p.parts ++ way) :
    ∃ left, ∀ followLast base,
      d.locate followLast base (Disk.splitSlash q).1 = d.walk followLast left W way := by
  obtain ⟨left, henter⟩ := site.enter hd.same hd.top
  refine ⟨left, fun followLast base => ?_⟩
  rw [Disk.locate_of_clean (Path.isAbsolute_splitSlash hq.absolute)
    (zero_notMem_splitSlash hq.clean), Path.steps_splitSlash, hway, henter]

/-- Where the directory above is there, the path leads to its place. -/
theorem locate_of_parent (site : Site d₀ p W) (hd : Stands d₀ W d) (hq : Below p q (ps ++ [name]))
    (hend : ¬ q.EndsInDot) (hparent : d.get? (W ++ ps) = some .directory) {followLast : Bool}
    (hlast : followLast = true → d.NoLink (W ++ ps ++ [name])) (base : Location) :
    d.locate followLast base (Disk.splitSlash q).1 = .ok (W ++ ps ++ [name]) := by
  obtain ⟨front, hparts, hfront⟩ := hq.parts_concat hend
  obtain ⟨left, hlocate⟩ := locate_below site hd hq hparts
  have hdown := fun other hother => hq.goesDown other (List.mem_append_left [name] hother)
  have hname := hq.goesDown name (by simp)
  rw [hlocate, Disk.walk_down hfront hdown (hd.above hparent),
    Disk.walk_last hparent hname hlast]

/-- Where it is missing, the path leads nowhere. -/
theorem locate_of_missing (site : Site d₀ p W) (hd : Stands d₀ W d)
    (hq : Below p q (ps ++ [name])) (hend : ¬ q.EndsInDot) (hclear : Clear d W ps)
    (hmissing : d.get? (W ++ ps) = none) (followLast : Bool) (base : Location) :
    d.locate followLast base (Disk.splitSlash q).1 = .error .notFound := by
  obtain ⟨front, hparts, hfront⟩ := hq.parts_concat hend
  obtain ⟨left, hlocate⟩ := locate_below site hd hq hparts
  have hdown := fun other hother => hq.goesDown other (List.mem_append_left [name] hother)
  rw [hlocate]
  exact Disk.walk_missing hfront hd.top hdown hclear hmissing (by simp)

/-- A directory below a workspace is seen as one. -/
theorem isDirectory_below (site : Site d₀ p W) (hd : Stands d₀ W d) (hq : Below p q ps)
    (hdir : d.get? (W ++ ps) = some .directory) (base : Location) :
    d.isDirectory base q = true := by
  obtain ⟨left, henter⟩ := site.enter hd.same hd.top
  obtain ⟨tail, hsteps, htail⟩ := Path.exists_steps q
  obtain ⟨way, hparts, hway⟩ := hq.parts_eq
  have hlocate : d.locate true base q = .ok (W ++ ps) := by
    rw [Disk.locate_of_clean hq.absolute hq.clean, hsteps, hparts, List.append_assoc, henter,
      Disk.walk_down hway hq.goesDown (hd.above hdir), walk_dots hdir htail]
  unfold Disk.isDirectory Disk.find
  rw [hlocate]
  dsimp only
  rw [hdir]

/-- A dot behind a place where nothing is leads nowhere, and no directory is seen there. -/
theorem locate_dotted_of_missing (site : Site d₀ p W) (hd : Stands d₀ W d)
    (hq : Below p q (ps ++ [name])) (hend : q.EndsInDot) (hclear : Clear d W (ps ++ [name]))
    (hmissing : d.get? (W ++ (ps ++ [name])) = none) (base : Location) :
    d.locate false base (Disk.splitSlash q).1 = .error .notFound ∧
    d.isDirectory base q = false := by
  obtain ⟨front, hparts, hfront⟩ := hq.parts_dotted hend
  constructor
  · obtain ⟨left, hlocate⟩ := locate_below site hd hq hparts
    rw [hlocate]
    exact Disk.walk_missing hfront hd.top hq.goesDown hclear hmissing (by simp)
  · obtain ⟨left, henter⟩ := site.enter hd.same hd.top
    obtain ⟨tail, hsteps, -⟩ := Path.exists_steps q
    have hlocate : d.locate true base q = .error .notFound := by
      rw [Disk.locate_of_clean hq.absolute hq.clean, hsteps, hparts, List.append_assoc, henter,
        List.append_assoc, Disk.walk_missing hfront hd.top hq.goesDown hclear hmissing (by simp)]
    unfold Disk.isDirectory Disk.find
    rw [hlocate]

/-- The parent of a path below a workspace lacks the last name, and does not end with a dot. So it
is a path below the workspace as well, or that of the workspace itself. -/
theorem Below.parent (hq : Below p q (ps ++ [name])) (site : Site d₀ p W) :
    ∃ r, q.parent? = some r ∧ Below p r ps ∧ ¬ r.EndsInDot := by
  obtain ⟨way, hway, hnames⟩ := hq.parts_eq
  have hqnames : q.names = p.parts.filter (· != ['.']) ++ (ps ++ [name]) := by
    rw [Path.names_eq, hway, List.filter_append, hnames]
  rcases hparent : q.parent? with _ | r
  · rw [Path.names_of_orphan hq.absolute hparent] at hqnames
    exact absurd hqnames.symm (by simp)
  · obtain ⟨hr, dots, last, dots', hparts, -⟩ := Path.parts_parent hq.absolute hparent
    obtain ⟨-, final, hfinal⟩ := Path.names_parent hq.absolute hparent
    have hrnames : r.parts.filter (· != ['.']) = p.parts.filter (· != ['.']) ++ ps := by
      rw [hqnames, ← List.append_assoc, Path.names_eq r] at hfinal
      exact (List.append_inj' hfinal rfl).1.symm
    refine ⟨r, rfl, ⟨hr, fun hin => hq.clean (Path.mem_text_parent hq.absolute hparent hin), ?_,
      fun other hother => hq.spelled other (List.mem_append_left _ hother),
      fun other hother => hq.goesDown other (List.mem_append_left _ hother)⟩,
      Path.not_endsInDot_parent hq.absolute hparent⟩
    rw [hway, List.append_eq_append_iff] at hparts
    rcases hparts with ⟨more, hmore, -⟩ | ⟨more, hmore, -⟩
    · rw [hmore, List.filter_append] at hrnames
      exact ⟨more, hmore, List.append_cancel_left hrnames⟩
    · -- the parent of the path does not stand above the workspace, which does not end with a dot
      rw [hmore, List.filter_append, List.append_assoc, eq_comm, List.append_right_eq_self,
        List.append_eq_nil_iff] at hrnames
      obtain ⟨hdots, rfl⟩ := hrnames
      rcases List.eq_nil_or_concat more with rfl | ⟨before, part, rfl⟩
      · exact ⟨[], by rw [hmore, List.append_nil, List.append_nil], rfl⟩
      · rw [List.concat_eq_append] at hmore hdots
        rw [← List.append_assoc] at hmore
        rw [List.filter_eq_nil_iff] at hdots
        exact absurd (by simpa using hdots part (by simp)) (site.last_ne_dot hmore)

/-- Making one directory: it is made if nothing is there. -/
theorem makeDirectory_below (site : Site d₀ p W) (hd : Stands d₀ W d)
    (hq : Below p q (ps ++ [name])) (hend : ¬ q.EndsInDot)
    (hparent : d.get? (W ++ ps) = some .directory) (base : Location) :
    d.makeDirectory base q =
      if (d.get? (W ++ ps ++ [name])).isSome then .error .alreadyExists
      else .ok (d.insert (W ++ ps ++ [name]) .directory) := by
  rw [Disk.makeDirectory, locate_of_parent site hd hq hend hparent (by simp) base]

/-- A disk on which the workspace stands still has it when directories were made in it. -/
theorem Stands.of_grown {d' : Disk} (hd : Stands d₀ W d) (h : Grown d d' W ps)
    (hlawful : d'.Lawful) : Stands d₀ W d' :=
  ⟨hd.same.trans h.sameOutside, h.has_more _ _ hd.top, hlawful⟩

/-- A path below the workspace is not empty, because the path of the workspace is absolute. -/
theorem Below.text_ne_nil (hq : Below p q ps) : ¬ q.text.isEmpty = true := by
  obtain ⟨body, hbody⟩ := Path.isAbsolute_iff.mp hq.absolute
  simp [hbody]

/-- What is there already is left as it is, even if the path ends with a dot. -/
theorem makeFrom_of_exists (site : Site d₀ p W) (hd : Stands d₀ W d) (hq : Below p q ps)
    (hdir : d.get? (W ++ ps) = some .directory) (base : Location) (above : List Path) :
    d.makeFrom base (q :: above) = (.ok (), d) := by
  obtain ⟨way, hparts, hway⟩ := hq.parts_eq
  obtain ⟨left, hlocate⟩ := locate_below site hd hq hparts
  have hmake : d.makeDirectory base q = .error .alreadyExists := by
    rw [Disk.makeDirectory, hlocate, ← List.append_nil way,
      Disk.walk_down hway hq.goesDown (hd.above hdir), Disk.walk]
    dsimp only
    rw [hdir]
    rfl
  rw [Disk.makeFrom, if_neg hq.text_ne_nil, hmake]
  dsimp only
  rw [if_neg (by simp), if_pos (isDirectory_below site hd hq hdir base)]

/-- Directories that are made on the way do not lie below its end. -/
theorem get?_below_grown {d' : Disk} (hgrown : Grown d d' W ps)
    (h : d.get? (W ++ ps ++ [name]) = none) : d'.get? (W ++ ps ++ [name]) = none := by
  rcases hgrown (W ++ ps ++ [name]) with heq | ⟨-, -, above, -, habove, heq⟩
  · rw [heq, h]
  · have hlength := habove.length_le
    rw [List.append_assoc] at heq
    rw [← List.append_cancel_left heq, List.length_append, List.length_singleton] at hlength
    omega

/-- Where the directory above is there, one directory is made or none. -/
theorem makeFrom_of_parent (site : Site d₀ p W) (hd : Stands d₀ W d)
    (hq : Below p q (ps ++ [name])) (hend : ¬ q.EndsInDot) (hclear : Clear d W (ps ++ [name]))
    (hparent : d.get? (W ++ ps) = some .directory) (base : Location) (above : List Path) :
    ∃ d', d.makeFrom base (q :: above) = (.ok (), d') ∧ Grown d d' W (ps ++ [name]) ∧ d'.Lawful ∧
      d'.get? (W ++ (ps ++ [name])) = some .directory := by
  have hname := hq.spelled name (by simp)
  have hmake := makeDirectory_below site hd hq hend hparent base
  rcases hclear (ps ++ [name]) (List.prefix_refl _) with hnew | hdir
  · rw [← List.append_assoc] at hnew
    refine ⟨d.insert (W ++ ps ++ [name]) .directory, ?_, (Grown.refl d W ps).insert hnew, ?_, ?_⟩
    · rw [Disk.makeFrom, if_neg hq.text_ne_nil, hmake, hnew]
      rfl
    · exact hd.lawful.insert_over hparent hname (by rw [hnew]; simp) _
    · rw [← List.append_assoc]
      exact Disk.get?_insert_self _ (by simp) _
  · exact ⟨d, makeFrom_of_exists site hd hq hdir base above, Grown.refl d W _, hd.lawful, hdir⟩

/-- Where the directory above is missing, the attempt fails with this, the directories above are
made, and then the attempt is made again and succeeds. -/
theorem makeFrom_of_missing (site : Site d₀ p W) (hd : Stands d₀ W d)
    (hq : Below p q (ps ++ [name])) (hend : ¬ q.EndsInDot) (hclear : Clear d W ps)
    (hmissing : d.get? (W ++ ps) = none) {base : Location} {above : List Path} {d₁ : Disk}
    (hfrom : d.makeFrom base above = (.ok (), d₁)) (hgrown : Grown d d₁ W ps)
    (hlawful : d₁.Lawful) (hdir : d₁.get? (W ++ ps) = some .directory) :
    ∃ d', d.makeFrom base (q :: above) = (.ok (), d') ∧ Grown d d' W (ps ++ [name]) ∧ d'.Lawful ∧
      d'.get? (W ++ (ps ++ [name])) = some .directory := by
  have hbelow : d.get? (W ++ ps ++ [name]) = none :=
    hd.lawful.none_below hmissing (List.prefix_append ..)
  have hnew := get?_below_grown hgrown hbelow
  have hmake : d.makeDirectory base q = .error .notFound := by
    rw [Disk.makeDirectory, locate_of_missing site hd hq hend hclear hmissing]
  refine ⟨d₁.insert (W ++ ps ++ [name]) .directory, ?_, hgrown.insert hbelow, ?_, ?_⟩
  · rw [Disk.makeFrom, if_neg hq.text_ne_nil, hmake]
    dsimp only
    rw [if_pos rfl, hfrom]
    dsimp only
    rw [makeDirectory_below site (hd.of_grown hgrown hlawful) hq hend hdir, hnew]
    rfl
  · exact hlawful.insert_over hdir (hq.spelled name (by simp)) (by rw [hnew]; simp) _
  · rw [← List.append_assoc]
    exact Disk.get?_insert_self _ (by simp) _

/-- **Making a directory below a workspace, with what is missing above it.** It succeeds where only
directories are in the way, and makes nothing else. -/
theorem makeFrom_below (site : Site d₀ p W) (hd : Stands d₀ W d) (hq : Below p q ps)
    (hend : ¬ q.EndsInDot) (hclear : Clear d W ps) (base : Location) {fuel : Nat}
    (hfuel : ps.length ≤ fuel) :
    ∃ d', d.makeFrom base (q :: q.parents fuel) = (.ok (), d') ∧ Grown d d' W ps ∧ d'.Lawful ∧
      d'.get? (W ++ ps) = some .directory := by
  induction ps using List.reverseRecOn generalizing q fuel with
  | nil =>
    -- the workspace is there already
    have htop : d.get? (W ++ []) = some .directory := by rw [List.append_nil, hd.top]
    exact ⟨d, makeFrom_of_exists site hd hq htop base _, Grown.refl d W [], hd.lawful, htop⟩
  | append_singleton ps name ih =>
    rcases hclear ps (List.prefix_append ..) with hmissing | hparent
    · obtain ⟨r, hr, hrbelow, hrend⟩ := hq.parent site
      rw [List.length_append, List.length_singleton] at hfuel
      obtain ⟨fuel, rfl⟩ : ∃ n, fuel = n + 1 := ⟨fuel - 1, by omega⟩
      obtain ⟨d₁, hfrom, hgrown, hlawful, hdir⟩ :=
        ih hrbelow hrend hclear.of_append (Nat.le_of_succ_le_succ hfuel)
      rw [Path.parents, hr]
      exact makeFrom_of_missing site hd hq hend hclear.of_append hmissing hfrom hgrown hlawful hdir
    · exact makeFrom_of_parent site hd hq hend hclear hparent base _

/-- **Where the path ends with a dot**, the directory must be there. If it is not, those above it
are made, and then the attempt fails. -/
theorem makeFrom_dotted (site : Site d₀ p W) (hd : Stands d₀ W d) (hq : Below p q (ps ++ [name]))
    (hend : q.EndsInDot) (hclear : Clear d W (ps ++ [name])) (base : Location) {fuel : Nat}
    (hfuel : ps.length ≤ fuel) :
    d.get? (W ++ (ps ++ [name])) = some .directory ∧
        d.makeFrom base (q :: q.parents (fuel + 1)) = (.ok (), d) ∨
    d.get? (W ++ (ps ++ [name])) = none ∧ ∃ d',
      d.makeFrom base (q :: q.parents (fuel + 1)) = (.error .notFound, d') ∧ Grown d d' W ps ∧
        d'.Lawful := by
  rcases hclear (ps ++ [name]) (List.prefix_refl _) with hmissing | hdir
  · obtain ⟨r, hr, hrbelow, hrend⟩ := hq.parent site
    obtain ⟨d₁, hfrom, hgrown, hlawful, -⟩ :=
      makeFrom_below site hd hrbelow hrend hclear.of_append base hfuel
    have hstill : d₁.get? (W ++ (ps ++ [name])) = none := by
      rw [← List.append_assoc] at hmissing ⊢
      exact get?_below_grown hgrown hmissing
    have hclear₁ : Clear d₁ W (ps ++ [name]) := by
      intro above habove
      rcases hgrown (W ++ above) with heq | ⟨-, hdir, -⟩
      · rw [heq]
        exact hclear above habove
      · exact Or.inr hdir
    obtain ⟨hlocate, -⟩ := locate_dotted_of_missing site hd hq hend hclear hmissing base
    obtain ⟨hlocate₁, hnot⟩ := locate_dotted_of_missing site (hd.of_grown hgrown hlawful) hq hend
      hclear₁ hstill base
    refine Or.inr ⟨hmissing, d₁, ?_, hgrown, hlawful⟩
    rw [Path.parents, hr, Disk.makeFrom, if_neg hq.text_ne_nil, Disk.makeDirectory, hlocate]
    dsimp only
    rw [if_pos rfl, hfrom]
    dsimp only
    rw [Disk.makeDirectory, hlocate₁, hnot]
    rfl
  · exact Or.inl ⟨hdir, makeFrom_of_exists site hd hq hdir base _⟩

/-- A path has at most one part more than it has characters. So the list of its ancestors, which is
cut off at this length, reaches up to the workspace. -/
theorem Below.length_le (hq : Below p q ps) : ps.length ≤ q.text.length + 1 := by
  obtain ⟨way, hparts, hway⟩ := hq.parts_eq
  calc ps.length ≤ way.length := by
        rw [← hway]
        exact List.length_filter_le ..
    _ ≤ q.parts.length := by
        rw [hparts, List.length_append]
        omega
    _ ≤ (Text.split '/' q.text).length := List.length_filter_le ..
    _ = q.text.count '/' + 1 := Text.length_split q.text
    _ ≤ q.text.length + 1 := Nat.succ_le_succ List.count_le_length

/-- Making all directories of a path below the workspace succeeds if nothing is in the way and the
path does not end in a dot. Then only the directories on the way were added. -/
theorem makeAll_below (site : Site d₀ p W) (hd : Stands d₀ W d) (hq : Below p q ps)
    (hend : ¬ q.EndsInDot) (hclear : Clear d W ps) (base : Location) :
    ∃ d', d.makeAll base q = (.ok (), d') ∧ Grown d d' W ps ∧ d'.Lawful ∧
      d'.get? (W ++ ps) = some .directory :=
  makeFrom_below site hd hq hend hclear base hq.length_le

/-- A path with no names below a workspace, and without a dot at its end, is that of the
workspace. -/
theorem Below.parts_nil (hq : Below p q []) (hend : ¬ q.EndsInDot) : q.parts = p.parts := by
  obtain ⟨way, hparts, hway⟩ := hq.parts_eq
  rcases List.eq_nil_or_concat way with rfl | ⟨front, last, rfl⟩
  · rw [hparts, List.append_nil]
  · rw [List.concat_eq_append] at hparts hway
    have hlast : last = ['.'] := by simpa using List.filter_eq_nil_iff.mp hway last (by simp)
    rw [hlast] at hparts
    exact absurd (by rw [Path.EndsInDot, hparts, ← List.append_assoc, List.getLast?_concat]) hend

/-- The parents of a path below a workspace are below it too, or there already. This is what a
machine that makes only some of the directories may have added. -/
theorem Below.ancestor (hq : Below p q (ps ++ [name])) (site : Site d₀ p W) (hd : Stands d₀ W d)
    (base : Location) : ∀ r ∈ q.ancestors, r = q ∨
      (∃ above, above <+: ps ++ [name] ∧ Below p r above ∧ ¬ r.EndsInDot) ∨
        d.isPresent base r = true := by
  -- going up, one comes to the workspace, and then to what its path starts with
  have hway : ∀ r ∈ q.ancestors, r = q ∨
      (∃ above, above <+: ps ++ [name] ∧ Below p r above ∧ ¬ r.EndsInDot) ∨
      r.isAbsolute = true ∧ '\x00' ∉ r.text ∧ ∃ rest, rest ≠ [] ∧ p.parts = r.parts ++ rest := by
    refine Path.of_mem_ancestors (Or.inl rfl) fun r r' hr hparent => ?_
    rcases hr with rfl | ⟨above, habove, hr, hend⟩ | ⟨hr, hclean, rest, hne, hparts⟩
    · obtain ⟨r'', hr'', hbelow, hend⟩ := hq.parent site
      obtain rfl := Option.some.inj (hr''.symm.trans hparent)
      exact Or.inr (Or.inl ⟨ps, List.prefix_append .., hbelow, hend⟩)
    · rcases List.eq_nil_or_concat above with rfl | ⟨front, last, rfl⟩
      · obtain ⟨hr', dots, last, dots', hparts, -⟩ := Path.parts_parent hr.absolute hparent
        refine Or.inr (Or.inr ⟨hr',
          fun hin => hr.clean (Path.mem_text_parent hr.absolute hparent hin),
          dots ++ last :: dots', by simp, ?_⟩)
        rw [← hparts, hr.parts_nil hend]
      · rw [List.concat_eq_append] at habove hr
        obtain ⟨r'', hr'', hbelow, hend'⟩ := hr.parent site
        obtain rfl := Option.some.inj (hr''.symm.trans hparent)
        exact Or.inr (Or.inl ⟨front, (List.prefix_append ..).trans habove, hbelow, hend'⟩)
    · obtain ⟨hr', dots, last, dots', hparts', -⟩ := Path.parts_parent hr hparent
      refine Or.inr (Or.inr ⟨hr', fun hin => hclean (Path.mem_text_parent hr hparent hin),
        (dots ++ last :: dots') ++ rest, by simp, ?_⟩)
      rw [hparts, hparts', List.append_assoc]
  intro r hr
  rcases hway r hr with hsame | hbelow | ⟨hr, hclean, rest, hne, hparts⟩
  · exact Or.inl hsame
  · exact Or.inr (Or.inl hbelow)
  · refine Or.inr (Or.inr ?_)
    obtain ⟨left, henter⟩ := site.enter hd.same hd.top
    -- the path of the workspace passes this one, so there is a directory
    have hwalk : d.walk false Disk.linkLimit [] (r.parts ++ rest) = .ok W := by
      rw [← hparts, ← List.append_nil p.parts, henter, Disk.walk]
    obtain ⟨left', c, -, hdir, hthere⟩ := (Disk.walks_of_walk hwalk).directory_before hne
    obtain ⟨tail, hsteps, htail⟩ := Path.exists_steps r
    have hlocate : d.locate true base r = .ok c := by
      rw [Disk.locate_of_clean hr hclean, hsteps, hthere, walk_dots hdir htail]
    unfold Disk.isPresent Disk.find
    rw [hlocate]
    dsimp only
    rw [hdir]
    rfl

end

end Workspace

end Sandscript
