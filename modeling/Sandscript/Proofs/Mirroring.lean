import Mathlib
import Sandscript.Proofs.Stages
import Sandscript.Proofs.TreeCopies
import Sandscript.Proofs.TreeListing

/-!
# What mirroring may lose

Before a program is run, the project's dependencies are copied into the workspace, entry by entry in
the order of a listing, and then the files that describe the project. Each operation may fail, and
one that fails may have done a part of its work. A directory that could not be made makes what it
holds fail as well.

All this is made known by warnings, except for one thing. Whether there are dependencies at all is
found out by a look at their directory, and a look that fails is taken for the answer that there are
none.

* `attempted` — one step: the copies of other entries stay, and the entry is copied or the step
  fails.
* `Progress.step`, `Progress.run` — each entry tried so far is copied or named by a warning, and it
  is copied unless something is wrong with it or with a directory above it.
* `Described.put` — the descriptions take the place of no copy.
* `ended`, `ended_unseen` — what has come of it, if the directory was seen and if it was not.
* `copyProject_mirrors` — where the look succeeds, what is lost is named, and a failure touches
  nothing but what lies below; where it fails, everything is lost and nothing is named.
* `dependencies_lost_unnoticed` — a look that fails because of too many links.
-/

namespace Sandscript

namespace Workspace

open Disk (Extends GoesDown kind)
open Sandscript.Path (Spelled)

-- ---------------------------------------------------------------------------
-- Operations that may fail
-- ---------------------------------------------------------------------------

/-- Some of the directories that a path asks for have been made. -/
def MadeSome (m : Machine) (p : Path) (m' : Machine) : Prop :=
  m' = m ∨ ∃ q disk, q ∈ p.ancestors ∧ m.disk.isPresent m.directory q = false ∧
    m.disk.makeDirectories m.directory q = .ok disk ∧ m' = { m with disk }

/-- A file may have been opened for writing, and something written to it. -/
def WroteSome (m : Machine) (p : Path) (m' : Machine) : Prop :=
  m' = m ∨ ∃ l executable bytes mode,
    m.disk.openForWriting m.directory p = .ok (l, executable) ∧
      m' = { m with disk := m.disk.insert l (.file bytes mode) }

/-- The operations of a machine in memory, each of which may fail at any time. One that fails may
have done a part of its work. A look at a directory that fails is answered in the same way as one
that finds none. -/
structure Unreliable (host : Host Machine) : Prop where
  isDirectory : ∀ m p, host.isDirectory m p = Machine.host.isDirectory m p ∨
    host.isDirectory m p = false
  makeDirectories : ∀ m p, host.makeDirectories m p = Machine.host.makeDirectories m p ∨
    ∃ e m', MadeSome m p m' ∧ host.makeDirectories m p = (.error e, m')
  copyLink : ∀ m p q, host.copyLink m p q = Machine.host.copyLink m p q ∨
    ∃ e, host.copyLink m p q = (.error e, m)
  copyFile : ∀ m p q, host.copyFile m p q = Machine.host.copyFile m p q ∨
    ∃ e m', WroteSome m q m' ∧ host.copyFile m p q = (.error e, m')

/-- Something is wrong with an entry of a tree: it could not be read, or the step that copies it is
not always done. -/
def Hindered (host : Host Machine) (source target : Path) (items : List Disk.Item)
    (names : List Text) : Prop :=
  ∃ item ∈ items, item.names = names ∧ (item.isRead = false ∨
    ∃ m, (entryStep source target item).perform host m ≠
      (entryStep source target item).perform Machine.host m)

/-- The warnings that a step leads to. -/
def CopyStep.warnings (step : CopyStep) : Except IoError Unit → List CopyWarning
  | .ok _ => []
  | .error e => [⟨step.source, e.message⟩]

/-- Copying goes on after a step, whatever comes of it. -/
theorem copyAll_cons {σ : Type} (attempt : CopyStep → σ → Except IoError Unit × σ)
    (step : CopyStep) (steps : List CopyStep) (m : σ) :
    copyAll attempt (step :: steps) m =
      (step.warnings (attempt step m).1 ++ (copyAll attempt steps (attempt step m).2).1,
        (copyAll attempt steps (attempt step m).2).2) := by
  rw [copyAll]
  dsimp only
  cases (attempt step m).1 with
  | ok => rfl
  | error => rfl

/-- A warning names the source of a step. -/
theorem source_of_warning {σ : Type} {attempt : CopyStep → σ → Except IoError Unit × σ}
    {steps : List CopyStep} {m : σ} {w : CopyWarning} (h : w ∈ (copyAll attempt steps m).1) :
    ∃ step ∈ steps, w.path = step.source := by
  induction steps generalizing m with
  | nil => exact absurd h List.not_mem_nil
  | cons step steps ih =>
    rw [copyAll_cons, List.mem_append] at h
    rcases h with hhere | hlater
    · refine ⟨step, List.mem_cons_self .., ?_⟩
      unfold CopyStep.warnings at hhere
      split at hhere
      · exact absurd hhere List.not_mem_nil
      · rw [List.mem_singleton.mp hhere]
    · obtain ⟨other, hother, hpath⟩ := ih hlater
      exact ⟨other, List.mem_cons_of_mem _ hother, hpath⟩

namespace Mirroring

variable {c : Mirroring} {d : Disk} {m : Machine} {names above : List Text} {name : Text}
  {e : Entry}

-- ---------------------------------------------------------------------------
-- One step
-- ---------------------------------------------------------------------------

/-- A copy that stands stays when the disk only grows, which is how later entries leave the earlier
copies alone. -/
theorem Copied.of_more {d' : Disk} (h : c.Copied d names) (hmore : Extends d d') :
    c.Copied d' names := by
  obtain ⟨e, hentry, hcopy⟩ := h
  exact ⟨e, hentry, hmore _ _ hcopy⟩

/-- Putting another entry of the tree leaves a copy as it is: the two have different places below
the workspace. -/
theorem Copied.insert {other : List Text} (h : c.Copied d other) (hne : other ≠ names)
    (e : Entry) : c.Copied (d.insert (c.W ++ (c.way ++ names)) e) other := by
  obtain ⟨e', hentry, hcopy⟩ := h
  exact ⟨e', hentry, by rw [Disk.get?_insert_of_ne _ (by simpa using hne), hcopy]⟩

/-- Putting the entry of the tree at its place is what copying it means. -/
theorem copied_insert (h : c.tree? names = some e) :
    c.Copied (d.insert (c.W ++ (c.way ++ names)) e) names :=
  ⟨e, h, Disk.get?_insert_self _ (by simp [c.site.ne_nil]) _⟩

/-- If the entry above has a copy, this copy is a directory, since something is below it in the
tree. So a copy has a place to go to as soon as the directory above it was copied. -/
theorem Copied.parent (h : c.Copied d above) (hentry : c.tree? (above ++ [name]) = some e) :
    d.get? (c.W ++ (c.way ++ above)) = some .directory := by
  obtain ⟨e', hentry', hcopy⟩ := h
  rwa [← (tree?_above (by simp) hentry).symm.trans hentry'] at hcopy

variable (c) in
/-- What an attempt to copy an entry comes to. -/
structure Attempted (host : Host Machine) (m : Machine) (item : Disk.Item) : Prop where
  filled : c.Filled ((c.step item).perform host m).2
  keeps : ∀ other, other ≠ item.names → c.Copied m.disk other →
    c.Copied ((c.step item).perform host m).2.disk other
  reported : c.Copied ((c.step item).perform host m).2.disk item.names ∨
    ∃ e, ((c.step item).perform host m).1 = .error e
  /-- Where the machine does what it should and the directory above is copied, the entry is, too.
  The top has no directory above, and is left out if its path ends with a dot. -/
  reached : (c.step item).perform host m = (c.step item).perform Machine.host m →
    (item.names = [] → ¬ Path.EndsInDot ⟨c.dep⟩) →
    (∀ above name, item.names = above ++ [name] → c.Copied m.disk above) →
    c.Copied ((c.step item).perform host m).2.disk item.names

/-- An attempt is what it is on the machine in memory if the step does the same as there. -/
theorem attempted_of_eq {host : Host Machine} {item : Disk.Item}
    (h : c.Attempted Machine.host m item)
    (heq : (c.step item).perform host m = (c.step item).perform Machine.host m) :
    c.Attempted host m item := by
  refine ⟨?_, ?_, ?_, fun _ => ?_⟩ <;> rw [heq]
  · exact h.filled
  · exact h.keeps
  · exact h.reported
  · exact h.reached rfl

/-- An attempt at which the machine fails. It must not have spoiled anything; what it would have
come to without the failure is known. -/
theorem attempted_of_failure {host : Host Machine} {m' : Machine} {item : Disk.Item}
    {cause : IoError} (h : c.Attempted Machine.host m item)
    (hanswer : (c.step item).perform host m = (.error cause, m')) (hfilled : c.Filled m')
    (hkeeps : ∀ other, other ≠ item.names → c.Copied m.disk other → c.Copied m'.disk other) :
    c.Attempted host m item := by
  refine ⟨?_, ?_, ?_, fun heq htop habove => ?_⟩
  · rwa [hanswer]
  · rwa [hanswer]
  · rw [hanswer]
    exact Or.inr ⟨cause, rfl⟩
  · rw [heq]
    exact h.reached rfl htop habove

/-- Copying a directory makes it with all its parents, and what was made stays on the disk also when
the last part fails. -/
theorem perform_directory (names : List Text) (m : Machine) :
    (c.step ⟨names, .directory⟩).perform Machine.host m =
      ((m.disk.makeAll m.directory (c.target names)).1,
        { m with disk := (m.disk.makeAll m.directory (c.target names)).2 }) := rfl

/-- An attempt at a directory: it is made with all that is missing above it. -/
theorem attempted_directory (hm : c.Filled m) (hseen : c.Seen)
    (h : c.tree? names = some .directory) (hend : ¬ (c.target names).EndsInDot) :
    c.Attempted Machine.host m ⟨names, .directory⟩ := by
  obtain ⟨disk, hmake, hmore, hfilled, hdir⟩ :=
    hm.makeDirectories h (target_below hseen h) hend (List.prefix_refl _)
  have hanswer : (c.step ⟨names, .directory⟩).perform Machine.host m =
      (.ok (), { m with disk }) := by
    rw [perform_directory, hmake]
  have hcopied : c.Copied disk names := ⟨.directory, h, hdir⟩
  refine ⟨?_, ?_, ?_, ?_⟩ <;> rw [hanswer]
  · exact hfilled
  · exact fun other _ hother => hother.of_more hmore
  · exact Or.inl hcopied
  · exact fun _ _ _ => hcopied

/-- An attempt at the top of a tree whose path ends with a dot. The directories above are made, and
then the attempt fails unless the top is there already, so it is named by a warning. -/
theorem attempted_top (hm : c.Filled m) (hseen : c.Seen) (hend : Path.EndsInDot ⟨c.dep⟩) :
    c.Attempted Machine.host m ⟨[], .directory⟩ := by
  have hanswer := c.perform_directory [] m
  rcases hm.makeTop hseen hend with ⟨hdir, hmake⟩ | ⟨-, disk, hmake, hmore, hfilled⟩
  · rw [hmake] at hanswer
    have hcopied : c.Copied m.disk [] := ⟨.directory, c.tree?_nil, by rw [List.append_nil, hdir]⟩
    refine ⟨?_, ?_, ?_, fun _ htop => absurd hend (htop rfl)⟩ <;> rw [hanswer]
    · exact hm
    · exact fun other _ hother => hother
    · exact Or.inl hcopied
  · rw [hmake] at hanswer
    refine ⟨?_, ?_, ?_, fun _ htop => absurd hend (htop rfl)⟩ <;> rw [hanswer]
    · exact hfilled
    · exact fun other _ hother => hother.of_more hmore
    · exact Or.inr ⟨_, rfl⟩

/-- An attempt that changes nothing, since the entry is there already or cannot be. -/
theorem attempted_of_unchanged {item : Disk.Item} {cause : IoError} (hm : c.Filled m)
    (hanswer : (c.step item).perform Machine.host m = (.error cause, m))
    (h : (∀ above name, item.names = above ++ [name] → c.Copied m.disk above) →
      c.Copied m.disk item.names) : c.Attempted Machine.host m item := by
  refine ⟨?_, ?_, ?_, ?_⟩ <;> rw [hanswer]
  · exact hm
  · exact fun other _ hother => hother
  · exact Or.inr ⟨cause, rfl⟩
  · exact fun _ _ habove => h habove

/-- An attempt that fails for the lack of the directory above. -/
theorem attempted_of_missing {k : Disk.Kind} {cause : IoError} (hm : c.Filled m)
    (h : c.tree? (above ++ [name]) = some e)
    (hmissing : m.disk.get? (c.W ++ (c.way ++ above)) = none)
    (hanswer : (c.step ⟨above ++ [name], k⟩).perform Machine.host m = (.error cause, m)) :
    c.Attempted Machine.host m ⟨above ++ [name], k⟩ := by
  refine attempted_of_unchanged hm hanswer fun habove => ?_
  have hparent := (habove above name rfl).parent h
  exact absurd (hmissing.symm.trans hparent) (by simp)

/-- An attempt that puts the entry in its place. -/
theorem attempted_of_insert {k : Disk.Kind} (hm : c.Filled m)
    (h : c.tree? (above ++ [name]) = some e) (he : e ≠ .directory)
    (hparent : m.disk.get? (c.W ++ (c.way ++ above)) = some .directory)
    (hanswer : (c.step ⟨above ++ [name], k⟩).perform Machine.host m =
      (.ok (), { m with disk := m.disk.insert (c.W ++ (c.way ++ (above ++ [name]))) e })) :
    c.Attempted Machine.host m ⟨above ++ [name], k⟩ := by
  refine ⟨?_, ?_, ?_, ?_⟩ <;> rw [hanswer]
  · exact hm.insert h he hparent (Or.inl rfl)
  · exact fun other hne hother => hother.insert hne e
  · exact Or.inl (copied_insert h)
  · exact fun _ _ _ => copied_insert h

/-- An attempt at a link. If the directory above has no copy it fails; and if something is in its
place already, that is the link, since nothing else fits there. -/
theorem attempted_link (hm : c.Filled m) (hseen : c.Seen) {pointee : Path}
    (h : c.tree? (above ++ [name]) = some (.link pointee)) :
    c.Attempted Machine.host m ⟨above ++ [name], .link⟩ := by
  have hstep : (c.step ⟨above ++ [name], .link⟩).perform Machine.host m =
      m.change (m.disk.copyLink m.directory (entryPath c.source (above ++ [name]))
        (c.target (above ++ [name]))) := rfl
  rcases hm.parent_cases h with hmissing | hparent
  · rw [hm.copyLink_of_missing hseen h hmissing] at hstep
    exact attempted_of_missing hm h hmissing hstep
  · rw [hm.copyLink hseen h hparent] at hstep
    rcases hplace : m.disk.get? (c.W ++ (c.way ++ (above ++ [name]))) with _ | e
    · rw [hplace] at hstep
      exact attempted_of_insert hm h (by simp) hparent hstep
    · -- only this link can be there
      rw [hplace] at hstep
      obtain ⟨e', hentry, halike⟩ := fits_tree (hm.fits _ _ hplace)
      obtain rfl := Option.some.inj (h.symm.trans hentry)
      rcases halike with rfl | ⟨-, hkind⟩
      · exact attempted_of_unchanged hm hstep fun _ => ⟨_, h, hplace⟩
      · exact absurd hkind (by simp [kind])

/-- An attempt at a file, which replaces what was in its place. -/
theorem attempted_file (hm : c.Filled m) (hseen : c.Seen) {bytes : Bytes} {mode : Bool}
    (h : c.tree? (above ++ [name]) = some (.file bytes mode)) :
    c.Attempted Machine.host m ⟨above ++ [name], .file⟩ := by
  have hstep : (c.step ⟨above ++ [name], .file⟩).perform Machine.host m =
      m.change (m.disk.copyFile m.directory (entryPath c.source (above ++ [name]))
        (c.target (above ++ [name]))) := rfl
  rcases hm.parent_cases h with hmissing | hparent
  · rw [hm.copyFile_of_missing hseen h hmissing] at hstep
    exact attempted_of_missing hm h hmissing hstep
  · rw [hm.copyFile hseen h hparent] at hstep
    exact attempted_of_insert hm h (by simp) hparent hstep

/-- Making only some of the directories that a directory of the tree needs spoils nothing. Each of
them is a directory of the way or of the tree, and that is what may stand at its place. -/
theorem filled_of_madeSome (hm : c.Filled m) (hseen : c.Seen)
    (h : c.tree? names = some .directory) {m' : Machine}
    (hsome : MadeSome m (c.target names) m') : c.Filled m' ∧ Extends m.disk m'.disk := by
  rcases hsome with rfl | ⟨q, disk, hq, hmissing, hmake, rfl⟩
  · exact ⟨hm, fun _ _ h => h⟩
  · rw [Disk.makeDirectories_eq_ok] at hmake
    have hbelow := target_below hseen h
    -- a path without a dot at its end is made with all that is missing above it
    have hplain : ∀ r ps, ps <+: c.way ++ names → Below c.workspace r ps → ¬ r.EndsInDot → r = q →
        c.Filled { m with disk } ∧ Extends m.disk disk := by
      rintro r ps hps hbelow hend rfl
      obtain ⟨disk', hmake', hmore, hfilled, -⟩ := hm.makeDirectories h hbelow hend hps
      obtain ⟨-, rfl⟩ := Prod.mk.inj (hmake.symm.trans hmake')
      exact ⟨hfilled, hmore⟩
    obtain ⟨front, last, hway⟩ :=
      (List.eq_nil_or_concat (c.way ++ names)).resolve_left (by simp [way, c.way_ne])
    rw [List.concat_eq_append] at hway
    rcases (hway ▸ hbelow).ancestor c.site hm.toStands m.directory q hq with
      rfl | ⟨ps, hps, hqbelow, hend⟩ | hpresent
    · by_cases hend : (c.target names).EndsInDot
      · -- the attempt at the whole path succeeds only if there is nothing to make
        obtain ⟨rfl, hdot⟩ := (endsInDot_target (names_spelled h)).mp hend
        rcases hm.makeTop hseen hdot with ⟨-, hmake'⟩ | ⟨-, disk', hmake', -⟩
        · obtain ⟨-, rfl⟩ := Prod.mk.inj (hmake.symm.trans hmake')
          exact ⟨hm, fun _ _ h => h⟩
        · exact absurd (Prod.mk.inj (hmake.symm.trans hmake')).1 (by simp)
      · exact hplain _ _ (List.prefix_refl _) hbelow hend rfl
    · exact hplain q ps (hway ▸ hps) hqbelow hend rfl
    · exact absurd (hmissing.symm.trans hpresent) (by simp)

/-- Writing only some of a file spoils nothing but its own copy. -/
theorem filled_of_wroteSome (hm : c.Filled m) (hseen : c.Seen) {bytes : Bytes} {mode : Bool}
    (h : c.tree? (above ++ [name]) = some (.file bytes mode)) {m' : Machine}
    (hsome : WroteSome m (c.target (above ++ [name])) m') :
    c.Filled m' ∧ ∀ other, other ≠ above ++ [name] → c.Copied m.disk other →
      c.Copied m'.disk other := by
  rcases hsome with rfl | ⟨l, executable, bytes', mode', hopen, rfl⟩
  · exact ⟨hm, fun _ _ h => h⟩
  · rcases hm.parent_cases h with hmissing | hparent
    · rw [hm.openForWriting_of_missing hseen h hmissing] at hopen
      exact absurd hopen (by simp)
    · obtain ⟨executable', hopen'⟩ := hm.openForWriting hseen h hparent
      obtain ⟨rfl, -⟩ := Prod.mk.inj (Except.ok.inj (hopen.symm.trans hopen'))
      exact ⟨hm.insert h (by simp) hparent (Or.inr ⟨rfl, rfl⟩),
        fun other hne hother => hother.insert hne _⟩

/-- **One step.** Whatever the machine does when it is to copy an entry, the copies of the others
stay; the entry is copied or the step fails, and it fails for no other reason than that the machine
does not do it or the directory above is missing. -/
theorem attempted {host : Host Machine} (hhost : Unreliable host) (hm : c.Filled m)
    (hseen : c.Seen) (h : c.tree? names = some e) : c.Attempted host m ⟨names, kind e⟩ := by
  cases e with
  | directory =>
    have hdone : c.Attempted Machine.host m ⟨names, .directory⟩ := by
      by_cases hend : (c.target names).EndsInDot
      · obtain ⟨rfl, hdot⟩ := (endsInDot_target (names_spelled h)).mp hend
        exact attempted_top hm hseen hdot
      · exact attempted_directory hm hseen h hend
    rcases hhost.makeDirectories m (c.target names) with heq | ⟨cause, m', hsome, heq⟩
    · exact attempted_of_eq hdone heq
    · obtain ⟨hfilled, hmore⟩ := filled_of_madeSome hm hseen h hsome
      exact attempted_of_failure hdone heq hfilled fun other _ hother => hother.of_more hmore
  | link pointee =>
    obtain ⟨above, name, rfl⟩ := eq_concat h (by simp)
    have hdone := attempted_link hm hseen h
    rcases hhost.copyLink m (entryPath c.source (above ++ [name])) (c.target (above ++ [name]))
      with heq | ⟨cause, heq⟩
    · exact attempted_of_eq hdone heq
    · exact attempted_of_failure hdone heq hm fun other _ hother => hother
  | file bytes mode =>
    obtain ⟨above, name, rfl⟩ := eq_concat h (by simp)
    have hdone := attempted_file hm hseen h
    rcases hhost.copyFile m (entryPath c.source (above ++ [name])) (c.target (above ++ [name]))
      with heq | ⟨cause, m', hsome, heq⟩
    · exact attempted_of_eq hdone heq
    · obtain ⟨hfilled, hkeeps⟩ := filled_of_wroteSome hm hseen h hsome
      exact attempted_of_failure hdone heq hfilled hkeeps

-- ---------------------------------------------------------------------------
-- All steps
-- ---------------------------------------------------------------------------

variable (c) in
/-- An entry is named by one of some warnings. -/
def Named (warnings : List CopyWarning) (names : List Text) : Prop :=
  ∃ w ∈ warnings, w.path = entryPath c.source names

variable (c) in
/-- Something is wrong with an entry or with a directory above it. -/
def Hit (host : Host Machine) (items : List Disk.Item) (names : List Text) : Prop :=
  ∃ above, above <+: names ∧
    Hindered host c.source (c.workspace.join ⟨c.dep⟩) items above

theorem Named.append {warnings : List CopyWarning} (h : c.Named warnings names)
    (more : List CopyWarning) : c.Named (warnings ++ more) names := by
  obtain ⟨w, hw, hpath⟩ := h
  exact ⟨w, List.mem_append_left _ hw, hpath⟩

/-- A failed step names its entry, whatever else has been named before. -/
theorem named_of_error {item : Disk.Item} {result : Except IoError Unit} {cause : IoError}
    (h : result = .error cause) (warnings : List CopyWarning) :
    c.Named (warnings ++ (c.step item).warnings result) item.names := by
  subst h
  exact ⟨_, List.mem_append_right _ (List.mem_singleton.mpr rfl), rfl⟩

variable (c) in
/-- How far copying has come: the first of the entries listed have been tried. -/
structure Progress (host : Host Machine) (items done : List Disk.Item)
    (warnings : List CopyWarning) (m : Machine) : Prop where
  filled : c.Filled m
  reported : ∀ item ∈ done,
    item.isRead = true ∧ c.Copied m.disk item.names ∨ c.Named warnings item.names
  reached : ¬ Path.EndsInDot ⟨c.dep⟩ → ∀ item ∈ done, item.isRead = true →
    c.Copied m.disk item.names ∨ c.Hit host items item.names
  /-- With a dot at the end of its path, the top is lost at once. -/
  dotted : Path.EndsInDot ⟨c.dep⟩ →
    (m.disk = c.start ∧ ∀ item ∈ done, item.isRead = false) ∨ c.Named warnings []

section

variable {host : Host Machine} {items done after : List Disk.Item} {item : Disk.Item}
  {warnings : List CopyWarning}

/-- One more entry has been tried. What was said of the entries before stays, as their copies are
kept and warnings are only added; what is said of the new one is given by the three hypotheses about
it. -/
theorem Progress.concat (h : c.Progress host items done warnings m) {m' : Machine}
    {more : List CopyWarning} (hfilled : c.Filled m')
    (hkeeps : ∀ other, other ≠ item.names → c.Copied m.disk other → c.Copied m'.disk other)
    (hreported : item.isRead = true ∧ c.Copied m'.disk item.names ∨
      c.Named (warnings ++ more) item.names)
    (hreached : ¬ Path.EndsInDot ⟨c.dep⟩ →
      c.Copied m'.disk item.names ∨ c.Hit host items item.names)
    (hdotted : Path.EndsInDot ⟨c.dep⟩ → m.disk = c.start → (∀ item ∈ done, item.isRead = false) →
      (m'.disk = c.start ∧ item.isRead = false) ∨ c.Named (warnings ++ more) []) :
    c.Progress host items (done ++ [item]) (warnings ++ more) m' := by
  refine ⟨hfilled, fun x hx => ?_, fun hend x hx hread => ?_, fun hend => ?_⟩
  · rcases List.mem_append.mp hx with hold | hnew
    · rcases h.reported x hold with ⟨hread, hcopied⟩ | hnamed
      · by_cases hsame : x.names = item.names
        · rw [hsame]
          exact hreported.imp_left fun hnow => ⟨hread, hnow.2⟩
        · exact Or.inl ⟨hread, hkeeps x.names hsame hcopied⟩
      · exact Or.inr (hnamed.append more)
    · rw [List.mem_singleton.mp hnew]
      exact hreported
  · rcases List.mem_append.mp hx with hold | hnew
    · by_cases hsame : x.names = item.names
      · rw [hsame]
        exact hreached hend
      · exact (h.reached hend x hold hread).imp_left (hkeeps x.names hsame)
    · rw [List.mem_singleton.mp hnew]
      exact hreached hend
  · rcases h.dotted hend with ⟨hstart, hunread⟩ | hnamed
    · refine (hdotted hend hstart hunread).imp_left fun hnow => ⟨hnow.1, fun x hx => ?_⟩
      rcases List.mem_append.mp hx with hold | hnew
      · exact hunread x hold
      · rw [List.mem_singleton.mp hnew]
        exact hnow.2
    · exact Or.inr (hnamed.append more)

/-- An entry with which nothing is wrong, nor with a directory above it, gets its copy: these
directories have been tried before. -/
theorem Progress.copied_or_hit (hlists : c.start.Lists c.D items)
    (hitems : items = done ++ item :: after) (h : c.Progress host items done warnings m)
    (hread : item.isRead = true) (htry : c.Attempted host m item)
    (hend : ¬ Path.EndsInDot ⟨c.dep⟩) :
    c.Copied ((c.step item).perform host m).2.disk item.names ∨ c.Hit host items item.names := by
  by_cases hfaithful : (c.step item).perform host m = (c.step item).perform Machine.host m
  · by_cases hhit : c.Hit host items item.names
    · exact Or.inr hhit
    · refine Or.inl (htry.reached hfaithful (fun _ => hend) fun above name hnames => ?_)
      have habove := hlists.ordered done item after hitems hread above name hnames
      rcases h.reached hend _ habove rfl with hcopied | ⟨other, hother, hwrong⟩
      · exact hcopied
      · refine absurd ⟨other, ?_, hwrong⟩ hhit
        rw [hnames]
        exact hother.trans (List.prefix_append ..)
  · exact Or.inr ⟨item.names, List.prefix_refl _, item, by simp [hitems], rfl,
      Or.inr ⟨m, hfaithful⟩⟩

/-- In a workspace that is still empty, the top of a tree whose path ends with a dot is not made. -/
theorem top_fails (hhost : Unreliable host) (hm : c.Filled m) (hseen : c.Seen)
    (hend : Path.EndsInDot ⟨c.dep⟩) (hstart : m.disk = c.start) :
    ∃ cause, ((c.step ⟨[], .directory⟩).perform host m).1 = .error cause := by
  rcases hhost.makeDirectories m (c.target []) with heq | ⟨cause, m', -, heq⟩
  · rcases hm.makeTop hseen hend with ⟨hdir, -⟩ | ⟨-, disk, hmake, -⟩
    · -- nothing is below a new workspace
      rw [hstart] at hdir
      obtain ⟨hnil, -⟩ := start_under (List.prefix_append ..) hdir
      exact absurd (List.append_right_eq_self.mp hnil) c.way_ne
    · refine ⟨.notFound, ?_⟩
      have hanswer := c.perform_directory [] m
      rw [hmake] at hanswer
      exact congrArg Prod.fst (heq.trans hanswer)
  · exact ⟨cause, congrArg Prod.fst heq⟩

/-- The first entry that was read is the top, since every other one has a directory before it. -/
theorem eq_top_of_first (hlists : c.start.Lists c.D items) (hitems : items = done ++ item :: after)
    (hread : item.isRead = true) (hunread : ∀ item ∈ done, item.isRead = false) :
    item = ⟨[], .directory⟩ := by
  obtain ⟨e, hentry, hkind⟩ := hlists.there item (by simp [hitems]) hread
  have hnil : item.names = [] := by
    rcases List.eq_nil_or_concat item.names with hnil | ⟨above, name, hnames⟩
    · exact hnil
    · rw [List.concat_eq_append] at hnames
      have habove := hlists.ordered done item after hitems hread above name hnames
      exact absurd (hunread _ habove) (by simp [Disk.Item.isRead])
  have htop : c.tree? item.names = some e := hentry
  rw [hnil, tree?_nil] at htop
  obtain rfl := Option.some.inj htop
  calc item = ⟨item.names, item.kind⟩ := rfl
    _ = ⟨[], .directory⟩ := by rw [hnil, hkind]; rfl

/-- **One more step** of copying, whatever the machine does. -/
theorem Progress.step (hhost : Unreliable host) (hseen : c.Seen)
    (hlists : c.start.Lists c.D items) (hitems : items = done ++ item :: after)
    (h : c.Progress host items done warnings m) :
    c.Progress host items (done ++ [item])
      (warnings ++ (c.step item).warnings ((c.step item).perform host m).1)
      ((c.step item).perform host m).2 := by
  have hitem : item ∈ items := by simp [hitems]
  by_cases hread : item.isRead = true
  · have htry : c.Attempted host m item := by
      obtain ⟨e, hentry, hkind⟩ := hlists.there item hitem hread
      have hsame : item = ⟨item.names, kind e⟩ := by rw [← hkind]
      rw [hsame]
      exact attempted hhost h.filled hseen hentry
    refine h.concat htry.filled htry.keeps ?_ (h.copied_or_hit hlists hitems hread htry) ?_
    · rcases htry.reported with hcopied | ⟨cause, hcause⟩
      · exact Or.inl ⟨hread, hcopied⟩
      · exact Or.inr (named_of_error hcause warnings)
    · intro hend hstart hunread
      obtain rfl := eq_top_of_first hlists hitems hread hunread
      obtain ⟨cause, hcause⟩ := top_fails hhost h.filled hseen hend hstart
      exact Or.inr (named_of_error hcause warnings)
  · -- of an entry that could not be read nothing is copied
    rw [Bool.not_eq_true] at hread
    obtain ⟨cause, hcause⟩ := Disk.exists_cause hread
    have hanswer : (c.step item).perform host m = (.error cause, m) := by
      rw [CopyStep.perform, show (c.step item).kind = .unread cause from hcause]
    rw [hanswer]
    exact h.concat h.filled (fun _ _ hcopied => hcopied) (Or.inr (named_of_error rfl warnings))
      (fun _ => Or.inr ⟨item.names, List.prefix_refl _, item, hitem, rfl, Or.inl hread⟩)
      (fun _ hstart _ => Or.inl ⟨hstart, hread⟩)

/-- **All steps**, from those that are done on. -/
theorem Progress.run (hhost : Unreliable host) (hseen : c.Seen)
    (hlists : c.start.Lists c.D items) (hitems : items = done ++ after)
    (h : c.Progress host items done warnings m) :
    c.Progress host items items
      (warnings ++ (copyAll (CopyStep.perform host) (after.map c.step) m).1)
      (copyAll (CopyStep.perform host) (after.map c.step) m).2 := by
  induction after generalizing done warnings m with
  | nil =>
    rw [List.append_nil] at hitems
    subst hitems
    simpa [copyAll] using h
  | cons item after ih =>
    have hnext := ih (by rw [hitems, List.append_assoc, List.singleton_append])
      (h.step hhost hseen hlists hitems)
    rw [List.map_cons, copyAll_cons]
    rwa [List.append_assoc] at hnext

/-- In the end, the top of a tree whose path ends with a dot is named by a warning. -/
theorem Progress.named_top (hlists : c.start.Lists c.D items)
    (h : c.Progress host items items warnings m) (hend : Path.EndsInDot ⟨c.dep⟩) :
    c.Named warnings [] := by
  rcases hlists.complete [] .directory c.tree?_nil with hitem | ⟨above, cause, habove, hitem⟩
  · rcases h.dotted hend with ⟨-, hunread⟩ | hnamed
    · exact absurd (hunread _ hitem) (by simp [Disk.isRead_kind])
    · exact hnamed
  · rw [List.prefix_nil.mp habove] at hitem
    rcases h.reported _ hitem with ⟨hread, -⟩ | hnamed
    · exact absurd hread (by simp [Disk.Item.isRead])
    · exact hnamed

end

-- ---------------------------------------------------------------------------
-- Descriptions
-- ---------------------------------------------------------------------------

/-- The names of the two descriptions go down one step, like every name that a disk may hold. -/
theorem description_fits : ∀ name ∈ descriptions,
    GoesDown name.toList ∧ '\x00' ∉ name.toList := by
  have hfits : ∀ name ∈ descriptions, (name.toList ≠ ['.'] ∧ name.toList ≠ ['.', '.'] ∧
      (Utf8.encode name.toList).length ≤ Disk.nameLimit) ∧ '\x00' ∉ name.toList := by decide
  intro name hname
  obtain ⟨⟨hdot, hdots, hlength⟩, hclean⟩ := hfits name hname
  exact ⟨⟨hdot, hdots, hlength⟩, hclean⟩

/-- A description stands in the directory itself: its path has one more part. -/
theorem parts_child {name : String} (hname : name ∈ descriptions) (p : Path) :
    (p.child name).parts = p.parts ++ [name.toList] := by
  have hspelled : ∀ part ∈ [name.toList], Spelled part := by
    simpa using spelled_written name (List.mem_append_left _ hname)
  exact Path.parts_join_names p hspelled

theorem description_end {name : String} (hname : name ∈ descriptions) (p : Path) :
    ¬ (p.child name).EndsInDot := by
  rw [Path.EndsInDot, parts_child hname, List.getLast?_concat, Option.some.injEq]
  exact (spelled_written name (List.mem_append_left _ hname)).2.2.1

/-- The path of a description in the workspace leads there. -/
theorem description_below {name : String} (hname : name ∈ descriptions) :
    Below c.workspace (c.workspace.child name) ([] ++ [name.toList]) := by
  have hspelled : ∀ part ∈ [name.toList], Spelled part := by
    simpa using spelled_written name (List.mem_append_left _ hname)
  obtain ⟨hdown, hclean⟩ := description_fits name hname
  refine ⟨Path.isAbsolute_join c.site.absolute _, fun hin => ?_,
    ⟨_, Path.parts_join_names c.workspace hspelled, Path.filter_names hspelled⟩, hspelled,
    by simpa using hdown⟩
  rcases Path.mem_text_join hin with hin | hin | hin
  · exact c.clean hin
  · exact absurd hin (by decide)
  · exact hclean hin

variable (c) in
/-- A disk on which the workspace has got descriptions as well, and keeps the copies that it had. -/
structure Described (d d' : Disk) : Prop extends Stands c.before c.W d' where
  held : ∀ n e, d'.get? (c.W ++ n) = some e →
    d.get? (c.W ++ n) = some e ∨ kind e = .file ∧ ∃ name ∈ descriptions, n = [name.toList]
  keeps : ∀ names, c.Copied d names → c.Copied d' names

/-- Before the first description is copied the disk is described by itself. -/
theorem Filled.described (hm : c.Filled m) : c.Described m.disk m.disk :=
  ⟨hm.toStands, fun _ _ he => Or.inl he, fun _ hcopied => hcopied⟩

/-- Only the top of the tree can be directly in the workspace. -/
theorem eq_nil_of_single (h : c.way ++ names = [name]) : names = [] := by
  rcases List.append_eq_singleton_iff.mp h with ⟨hway, -⟩ | ⟨-, hnames⟩
  · exact absurd hway c.way_ne
  · exact hnames

/-- Directly below the workspace there is at most a directory: either it leads to the copy of the
tree, or it is the top of that copy. -/
theorem fits_single (h : c.Fits [name] e) : e = .directory := by
  rcases h with ⟨-, hdir⟩ | ⟨names, e', hnames, hentry, halike⟩
  · exact hdir
  · rw [eq_nil_of_single hnames.symm, tree?_nil] at hentry
    exact eq_directory_of_alike (Option.some.inj hentry ▸ halike)

/-- A description takes the place of no copy, and of no directory that leads to one. It goes
directly below the workspace, where only directories lead to the copies, and it is not written over
a directory. -/
theorem Described.put {d' : Disk} (hd : c.Described m.disk d') (hm : c.Filled m) {name : String}
    (hname : name ∈ descriptions) {base l : Location} {bytes : Bytes} {mode : Bool}
    (hputs : Disk.Puts d' true base (c.workspace.child name) l (.file bytes mode)) :
    c.Described m.disk (d'.insert l (.file bytes mode)) := by
  -- there is no link at the place, neither from the tree nor from a description
  have hlast : true = true → d'.NoLink (c.W ++ [] ++ [name.toList]) := by
    intro _ target hlink
    rw [List.append_nil] at hlink
    rcases hd.held _ _ hlink with hold | ⟨hkind, -⟩
    · exact absurd (fits_single (hm.fits _ _ hold)) (by simp)
    · exact absurd hkind (by simp [kind])
  have htop : d'.get? (c.W ++ []) = some .directory := by rw [List.append_nil, hd.top]
  have hfound := locate_of_parent c.site hd.toStands (description_below hname)
    (description_end hname _) htop hlast base
  obtain rfl := Except.ok.inj (hputs.found.symm.trans hfound)
  have hover := hputs.not_directory
  rw [List.append_nil] at hover ⊢
  have hspelled := spelled_written name (List.mem_append_left _ hname)
  refine ⟨⟨?_, ?_, ?_⟩, fun n e he => ?_, fun names hcopied => ?_⟩
  · exact hd.same.trans (Disk.sameOutside_insert _ (List.prefix_append ..) _)
  · rw [Disk.get?_insert_of_ne _ (by simp), hd.top]
  · exact hd.lawful.insert_over hd.top hspelled hover _
  · by_cases hn : n = [name.toList]
    · subst hn
      rw [Disk.get?_insert_self _ (by simp)] at he
      obtain rfl := Option.some.inj he
      exact Or.inr ⟨rfl, name, hname, rfl⟩
    · rw [Disk.get?_insert_of_ne _ (by simpa using hn)] at he
      exact hd.held n e he
  · obtain ⟨e, hentry, hcopy⟩ := hd.keeps names hcopied
    refine ⟨e, hentry, ?_⟩
    -- the copy at the place itself could only be the top, which is a directory
    rw [Disk.get?_insert_of_ne _ fun heq => hover ?_, hcopy]
    rw [eq_nil_of_single (List.append_cancel_left heq), tree?_nil] at hentry
    rw [← heq, hcopy, ← hentry]

/-- Copying a description keeps all that was copied. -/
theorem Described.copyFile {host : Host Machine} (hhost : Unreliable host) {m' : Machine}
    (hm : c.Filled m) (hm' : c.Described m.disk m'.disk) {name : String}
    (hname : name ∈ descriptions) (source : Path) :
    c.Described m.disk (host.copyFile m' source (c.workspace.child name)).2.disk := by
  rcases hhost.copyFile m' source (c.workspace.child name) with heq | ⟨cause, m'', hsome, heq⟩
  · rw [heq]
    refine change_keeps hm' fun d' hcopy => ?_
    obtain ⟨l, bytes, mode, hputs, rfl⟩ := Disk.copyFile_eq_ok hcopy
    exact hm'.put hm hname hputs
  · rw [heq]
    rcases hsome with rfl | ⟨l, executable, bytes, mode, hopen, rfl⟩
    · exact hm'
    · exact hm'.put hm hname (Disk.puts_of_openForWriting hopen bytes mode)

/-- Copying the descriptions keeps all that was copied. -/
theorem Filled.descriptions {host : Host Machine} (hhost : Unreliable host) (hm : c.Filled m)
    (root : Path) : c.Described m.disk (copyAll (CopyStep.perform host)
      (descriptionSteps host m c.workspace root) m).2.disk := by
  refine copyAll_keeps (P := fun m' : Machine => c.Described m.disk m'.disk)
    (fun step hstep m' hm' => ?_) hm.described
  obtain ⟨name, hname, rfl⟩ := List.mem_map.mp hstep
  exact Described.copyFile hhost hm hm' (List.mem_filter.mp hname).1 _

-- ---------------------------------------------------------------------------
-- The end
-- ---------------------------------------------------------------------------

variable (c) in
/-- What has come of copying a tree and descriptions. -/
structure Ended (host : Host Machine) (items : List Disk.Item) (warnings : List CopyWarning)
    (d : Disk) : Prop where
  reported : ∀ item ∈ items,
    item.isRead = true ∧ c.Copied d item.names ∨ c.Named warnings item.names
  reached : ¬ Path.EndsInDot ⟨c.dep⟩ → ∀ item ∈ items, item.isRead = true →
    c.Copied d item.names ∨ c.Hit host items item.names
  dotted : Path.EndsInDot ⟨c.dep⟩ → c.Named warnings []

variable (c) in
/-- What a workspace is like afterwards: it stands, and holds what belongs there. -/
structure Tidied (d : Disk) : Prop extends Stands c.before c.W d where
  fits : ∀ n e, d.get? (c.W ++ n) = some e →
    c.Fits n e ∨ kind e = .file ∧ ∃ name ∈ descriptions, n = [name.toList]

/-- After the descriptions were copied, the workspace still holds nothing but the way, the tree and
the descriptions. -/
theorem Described.tidied {d' : Disk} (hd : c.Described m.disk d') (hm : c.Filled m) :
    c.Tidied d' :=
  ⟨hd.toStands, fun n e he => (hd.held n e he).imp_left (hm.fits n e)⟩

section

variable {host : Host Machine} {items : List Disk.Item} {warnings : List CopyWarning}

/-- A tree that was seen has been copied as far as possible. The steps are those of the listing, the
invariant is carried through them, and the descriptions that are copied afterwards keep what was
reached. -/
theorem ended (hhost : Unreliable host) (hdisk : m.disk = c.start) (hbase : m.directory = c.base)
    (hlook : host.isDirectory m c.source = true)
    (hlists : c.start.Lists c.D (host.tree m c.source)) :
    c.Ended host (host.tree m c.source) (copyProject host c.workspace c.root c.dep m).1
        (copyProject host c.workspace c.root c.dep m).2.disk ∧
      c.Tidied (copyProject host c.workspace c.root c.dep m).2.disk := by
  -- the machine does not claim to see what is not there
  have hseen : c.Seen := by
    rcases hhost.isDirectory m c.source with heq | hfailed
    · rw [Seen, ← hdisk, ← hbase]
      exact heq.symm.trans hlook
    · exact absurd (hfailed.symm.trans hlook) (by simp)
  have hsteps : dependencySteps host m c.workspace c.root c.dep =
      (host.tree m c.source).map c.step := by
    have hthere : host.isDirectory m (c.root.join ⟨c.dep⟩) = true := hlook
    rw [dependencySteps, if_pos hthere]
    exact treeSteps_eq _ _ _
  have hstart : c.Progress host (host.tree m c.source) [] [] m :=
    ⟨filled_start hdisk hbase, by simp, by simp, fun _ => Or.inl ⟨hdisk, by simp⟩⟩
  have htree := hstart.run hhost hseen hlists rfl
  rw [List.nil_append] at htree
  have hdescribed := htree.filled.descriptions hhost c.root
  rw [copyProject, hsteps]
  dsimp only
  refine ⟨⟨fun item hitem => ?_, fun hend item hitem hread => ?_, fun hend => ?_⟩,
    hdescribed.tidied htree.filled⟩
  · rcases htree.reported item hitem with ⟨hread, hcopied⟩ | hnamed
    · exact Or.inl ⟨hread, hdescribed.keeps _ hcopied⟩
    · exact Or.inr (hnamed.append _)
  · exact (htree.reached hend item hitem hread).imp_left (hdescribed.keeps _)
  · exact (htree.named_top hlists hend).append _

/-- The parts of the path by which an entry is named: those of the project root, of the dependency
directory as it is spelled, and the names of the entry. -/
theorem parts_entryPath (h : ∀ name ∈ names, Spelled name) :
    (entryPath c.source names).parts = c.root.parts ++ (Path.parts ⟨c.dep⟩ ++ names) := by
  rw [entryPath]
  split
  · next hempty =>
    rw [source, Path.parts_join _ c.relative, List.isEmpty_iff.mp hempty, List.append_nil]
  · rw [Path.parts_join_names _ h, source, Path.parts_join _ c.relative, List.append_assoc]

/-- A tree that was not seen is not copied, and no warning says so. The steps are those of the
descriptions alone. The one exception is a tree that is taken for a description. -/
theorem ended_unseen (hhost : Unreliable host) (hdisk : m.disk = c.start)
    (hbase : m.directory = c.base) (hlook : host.isDirectory m c.source = false) :
    c.Tidied (copyProject host c.workspace c.root c.dep m).2.disk ∧
    ((∀ name ∈ Workspace.descriptions, c.way ≠ [name.toList]) → ∀ names e,
      c.tree? names = some e →
        (copyProject host c.workspace c.root c.dep m).2.disk.get? (c.W ++ (c.way ++ names)) = none ∧
          ¬ c.Named (copyProject host c.workspace c.root c.dep m).1 names) := by
  have hm := filled_start hdisk hbase
  have hdescribed := hm.descriptions hhost c.root
  have hsteps : dependencySteps host m c.workspace c.root c.dep = [] := by
    have hnot : ¬ host.isDirectory m (c.root.join ⟨c.dep⟩) = true := by
      rw [Bool.not_eq_true]
      exact hlook
    rw [dependencySteps, if_neg hnot]
  rw [copyProject, hsteps, copyAll]
  dsimp only
  rw [List.nil_append]
  refine ⟨hdescribed.tidied hm, fun hother names e hentry => ⟨?_, ?_⟩⟩
  · -- all that is in the workspace was there before, or is a description
    by_contra hsome
    obtain ⟨e', he'⟩ := Option.ne_none_iff_exists'.mp hsome
    rcases hdescribed.held _ _ he' with hold | ⟨-, name, hname, hsingle⟩
    · rw [hdisk] at hold
      obtain ⟨hnil, -⟩ := start_under (List.prefix_append ..) hold
      have hboth := List.append_eq_nil_iff.mp (List.append_right_eq_self.mp hnil)
      exact c.way_ne hboth.1
    · rw [eq_nil_of_single hsingle, List.append_nil] at hsingle
      exact hother name hname hsingle
  · rintro ⟨w, hw, hpath⟩
    -- every warning is about a description of the root, and this is not in the tree
    obtain ⟨step, hstep, hsource⟩ := source_of_warning hw
    obtain ⟨name, hname, rfl⟩ := List.mem_map.mp hstep
    have hname := (List.mem_filter.mp hname).1
    have hparts := congrArg Path.parts (hpath.symm.trans hsource)
    rw [parts_entryPath (names_spelled hentry)] at hparts
    have hsame := List.append_cancel_left (hparts.trans (parts_child hname c.root))
    have hsingle : c.way ++ names = [name.toList] := by
      have hfilter := congrArg (List.filter (· != ['.'])) hsame
      rw [List.filter_append, Path.filter_names (names_spelled hentry), ← Path.names_eq,
        List.filter_cons_of_pos (by
          simpa using (spelled_written name (List.mem_append_left _ hname)).2.2.1)] at hfilter
      exact hfilter
    rw [eq_nil_of_single hsingle, List.append_nil] at hsingle
    exact hother name hname hsingle

namespace Ended

/-- Each entry is copied, or it or a directory above it is named by a warning. -/
theorem copied_or_named (h : c.Ended host items warnings d) (hlists : c.start.Lists c.D items)
    (hentry : c.tree? names = some e) :
    d.get? (c.W ++ (c.way ++ names)) = some e ∨
      ∃ above, above <+: names ∧ c.Named warnings above := by
  rcases hlists.complete names e hentry with hitem | ⟨above, cause, habove, hitem⟩
  · rcases h.reported _ hitem with ⟨-, e', hentry', hcopy⟩ | hnamed
    · rw [hentry.symm.trans hentry']
      exact Or.inl hcopy
    · exact Or.inr ⟨names, List.prefix_refl _, hnamed⟩
  · rcases h.reported _ hitem with ⟨hread, -⟩ | hnamed
    · exact absurd hread (by simp [Disk.Item.isRead])
    · exact Or.inr ⟨above, habove, hnamed⟩

/-- An entry is copied unless something is wrong with it or with a directory above it. -/
theorem copied_of_unhindered (h : c.Ended host items warnings d)
    (hlists : c.start.Lists c.D items) (hend : ¬ Path.EndsInDot ⟨c.dep⟩)
    (hentry : c.tree? names = some e)
    (hnone : ∀ above, above <+: names →
      ¬ Hindered host c.source (c.workspace.join ⟨c.dep⟩) items above) :
    d.get? (c.W ++ (c.way ++ names)) = some e := by
  rcases hlists.complete names e hentry with hitem | ⟨above, cause, habove, hitem⟩
  · rcases h.reached hend _ hitem (Disk.isRead_kind names e) with ⟨e', hentry', hcopy⟩ | hhit
    · rw [hentry.symm.trans hentry']
      exact hcopy
    · obtain ⟨above, habove, hhindered⟩ := hhit
      exact absurd hhindered (hnone above habove)
  · exact absurd ⟨_, hitem, rfl, Or.inl rfl⟩ (hnone above habove)

end Ended

namespace Tidied

/-- What the workspace holds: copies, the directories that lead to them, and descriptions. -/
theorem holds (h : c.Tidied d) {n : Location} (hn : (d.get? (c.W ++ n)).isSome) :
    n <+: c.way ∨ (∃ names, n = c.way ++ names ∧ (c.tree? names).isSome) ∨
      ∃ name ∈ descriptions, n = [name.toList] := by
  obtain ⟨e, he⟩ := Option.isSome_iff_exists.mp hn
  rcases h.fits n e he with (⟨hway, -⟩ | ⟨names, e', hnames, hentry, -⟩) | ⟨-, hname⟩
  · exact Or.inl hway
  · exact Or.inr (Or.inl ⟨names, hnames, by rw [hentry]; rfl⟩)
  · exact Or.inr (Or.inr hname)

/-- Outside the workspace nothing has changed. -/
theorem outside (h : c.Tidied d) {l : Location} (hl : ¬ c.W <+: l) :
    d.get? l = c.start.get? l := by
  have hstart := Disk.sameOutside_insert c.before (List.prefix_refl c.W) .directory
  exact (h.same l hl).trans (hstart l hl).symm

/-- What the tree does not have is not at its place in the workspace either. -/
theorem none_of_none (h : c.Tidied d) (hentry : c.tree? names = none) :
    d.get? (c.W ++ (c.way ++ names)) = none := by
  by_contra hsome
  have hne : names ≠ [] := by
    rintro rfl
    exact absurd (tree?_nil.symm.trans hentry) (by simp)
  rcases h.holds (Option.isSome_iff_ne_none.mpr hsome) with
    hway | ⟨other, heq, hother⟩ | ⟨name, -, heq⟩
  · have hlength := hway.length_le
    rw [List.length_append] at hlength
    exact hne (List.length_eq_zero_iff.mp (by omega))
  · rw [← List.append_cancel_left heq, hentry] at hother
    exact absurd hother (by simp)
  · exact hne (eq_nil_of_single heq)

end Tidied

end

end Mirroring

/-- **What mirroring may lose.** A project has a dependency directory at `D`, reached by a relative
path of names with any number of dots between them, and a new workspace at `W` lies outside it. Any
operation may fail. What is listed of the tree has directories before what they hold.

If the look at the directory succeeds, each entry of the tree has an equal one in the workspace, or
a warning names it or a directory above it. It has an equal one unless something is wrong with the
entry itself or with a directory above it, and if nothing is wrong anywhere, the copy is the same
tree. These two need a path that does not end with a dot: if it does, the top cannot be made at
first, and a warning names it.

If the look fails, which is also so when there are too many links on the way, no entry is copied and
no warning names one. A directory that is called like a description is left out here.

In any case the workspace holds copies, the directories that lead to them, and descriptions, and
outside it nothing changes, in particular not the tree. -/
theorem copyProject_mirrors {host : Host Machine} (hhost : Unreliable host) {m₀ m : Machine}
    (hlawful : m₀.disk.Lawful) (hstorable : m₀.disk.Storable) {parent workspace root : Path}
    (hmade : m₀.makeWorkspace parent = (.ok workspace, m)) {W D : Location}
    (hW : m.disk.find false m.directory workspace = .ok (W, .directory)) {dep : Text}
    (hrelative : Path.isAbsolute ⟨dep⟩ = false) (hne : Path.names ⟨dep⟩ ≠ [])
    (hspelled : ∀ name ∈ Path.names ⟨dep⟩, Spelled name)
    (hD : m.disk.LeadsTo m.directory (root.join ⟨dep⟩) D)
    (htop : m.disk.get? D = some .directory) (hapart : ¬ D <+: W)
    (hlists : host.isDirectory m (root.join ⟨dep⟩) = true →
      m.disk.Lists D (host.tree m (root.join ⟨dep⟩))) :
    let source := root.join ⟨dep⟩
    let result := copyProject host workspace root dep m
    let copy := fun names => result.2.disk.get? (W ++ (Path.names ⟨dep⟩ ++ names))
    let named := fun names => ∃ w ∈ result.1, w.path = entryPath source names
    let hindered := Hindered host source (workspace.join ⟨dep⟩) (host.tree m source)
    (host.isDirectory m source = true →
      (∀ names e, m.disk.get? (D ++ names) = some e →
        copy names = some e ∨ ∃ above, above <+: names ∧ named above) ∧
      (¬ Path.EndsInDot ⟨dep⟩ →
        (∀ names e, m.disk.get? (D ++ names) = some e →
          (∀ above, above <+: names → ¬ hindered above) → copy names = some e) ∧
        ((∀ names, ¬ hindered names) → ∀ names, copy names = m.disk.get? (D ++ names))) ∧
      (Path.EndsInDot ⟨dep⟩ → named [])) ∧
    (host.isDirectory m source = false →
      (∀ name ∈ descriptions, Path.names ⟨dep⟩ ≠ [name.toList]) →
      ∀ names e, m.disk.get? (D ++ names) = some e → copy names = none ∧ ¬ named names) ∧
    (∀ n, (result.2.disk.get? (W ++ n)).isSome →
      n <+: Path.names ⟨dep⟩ ∨
        (∃ names, n = Path.names ⟨dep⟩ ++ names ∧ (m.disk.get? (D ++ names)).isSome) ∨
          ∃ name ∈ descriptions, n = [name.toList]) ∧
    (∀ l, ¬ W <+: l → result.2.disk.get? l = m.disk.get? l) ∧
    ∀ names, result.2.disk.get? (D ++ names) = m.disk.get? (D ++ names) := by
  obtain ⟨W', site, hdisk, hmadeLawful⟩ := makeWorkspace_eq_ok hlawful hmade
  have hlocate := (Disk.find_eq_ok hW).1
  obtain rfl : W = W' := by
    refine site.eq_of_locate ?_ hlocate
    rw [hdisk]
    exact Disk.sameOutside_insert _ (List.prefix_refl _) _
  rw [hdisk] at hD htop hmadeLawful hlists
  -- the hypotheses as one record, over which the rest is proved
  let c : Mirroring :=
    { before := m₀.disk, base := m.directory, workspace, root, dep, W, D, site
      lawful := hlawful, storable := hstorable, made := hmadeLawful
      clean := (Disk.text_of_locate hlocate).2
      relative := hrelative, way_ne := hne, way_spelled := hspelled, leads := hD, top := htop
      apart := hapart }
  have htidied : c.Tidied (copyProject host workspace root dep m).2.disk := by
    rcases hlook : host.isDirectory m (root.join ⟨dep⟩) with _ | _
    · exact (Mirroring.ended_unseen (c := c) hhost hdisk rfl hlook).1
    · exact (Mirroring.ended (c := c) hhost hdisk rfl hlook (hlists hlook)).2
  intro source result copy named hindered
  rw [hdisk]
  refine ⟨fun hlook => ?_, fun hlook => (Mirroring.ended_unseen (c := c) hhost hdisk rfl hlook).2,
    fun n => htidied.holds, fun l => htidied.outside,
    fun names => htidied.outside (Mirroring.not_under names)⟩
  have hended := (Mirroring.ended (c := c) hhost hdisk rfl hlook (hlists hlook)).1
  refine ⟨fun names e => hended.copied_or_named (hlists hlook), fun hend => ⟨fun names e =>
    hended.copied_of_unhindered (hlists hlook) hend, fun hnone names => ?_⟩, hended.dotted⟩
  -- nothing is in the copy that is not in the tree
  rcases hentry : c.tree? names with _ | e
  · exact (htidied.none_of_none hentry).trans hentry.symm
  · exact (hended.copied_of_unhindered (hlists hlook) hend hentry fun above _ =>
      hnone above).trans hentry.symm

namespace FaultySample

def texts (names : List String) : List Text := names.map String.toList

/-- A project whose dependencies hold a file that cannot be read to its end. -/
def disk : Disk :=
  ⟨[(texts ["tmp"], .directory), (texts ["app"], .directory),
    (texts ["app", "package.json"], .file [123, 125] false),
    (texts ["app", "pkg"], .directory), (texts ["app", "pkg", "lib"], .directory),
    (texts ["app", "pkg", "lib", "a.js"], .file [49] false),
    (texts ["app", "pkg", "lib", "x"], .directory),
    (texts ["app", "pkg", "lib", "x", "b.js"], .file [50] true),
    (texts ["app", "pkg", "lib", "x", "c"], .link (.ofString "../a.js"))]⟩

/-- The machine before there is a workspace. -/
def machine : Machine := { disk }

/-- The place of the workspace. -/
def place : Location := texts ["tmp", "fenrir-0-xxxxx0"]

/-- The machine with the workspace. -/
def started : Machine := { disk := disk.insert place .directory, issued := 1 }

/-- Copying the file stops when its copy was opened. -/
def faulty : Host Machine :=
  { Machine.host with
    copyFile := fun m p q =>
      if p = .ofString "/app/pkg/./lib/x/b.js" then
        match m.disk.openForWriting m.directory q with
        | .ok (l, _) => (.error .denied, { m with disk := m.disk.insert l (.file [] false) })
        | .error e => (.error e, m)
      else Machine.host.copyFile m p q }

/-- The host that fails now and then is one of those the theorem is about. -/
theorem unreliable_faulty : Unreliable faulty := by
  refine ⟨fun _ _ => Or.inl rfl, fun _ _ => Or.inl rfl, fun _ _ _ => Or.inl rfl, fun m p q => ?_⟩
  by_cases hp : p = .ofString "/app/pkg/./lib/x/b.js"
  · right
    simp only [faulty, if_pos hp]
    split
    · next l executable hopen =>
      exact ⟨.denied, _, Or.inr ⟨l, executable, [], false, hopen, rfl⟩, rfl⟩
    · next e _ => exact ⟨e, m, Or.inl rfl, rfl⟩
  · exact Or.inl (if_neg hp)

theorem lawful_disk : disk.Lawful := Disk.lawful_of_entries (by decide)

theorem storable_disk : disk.Storable := by
  refine Disk.storable_of_entries (by decide) ?_
  simp [disk]
  decide

/-- The path of the dependencies, with a dot in it. -/
def source : Path := (Path.ofString "/app").join ⟨"pkg/./lib".toList⟩

/-- What comes of copying the project. -/
def result : List CopyWarning × Machine :=
  copyProject faulty place.toPath (.ofString "/app") "pkg/./lib".toList started

/-- Nothing is wrong with any other entry. -/
theorem eq_of_hindered {names : List Text}
    (h : Hindered faulty source (place.toPath.join ⟨"pkg/./lib".toList⟩)
      (faulty.tree started source) names) : names = texts ["x", "b.js"] := by
  have hitems : faulty.tree started source =
      [⟨[], .directory⟩, ⟨texts ["a.js"], .file⟩, ⟨texts ["x"], .directory⟩,
        ⟨texts ["x", "b.js"], .file⟩, ⟨texts ["x", "c"], .link⟩] := by cbv
  have hall : (faulty.tree started source).all Disk.Item.isRead = true := by
    rw [hitems]
    decide
  obtain ⟨item, hitem, rfl, hread | ⟨m, hstep⟩⟩ := h
  · exact absurd ((List.all_eq_true.mp hall item hitem).symm.trans hread) (by simp)
  · rw [hitems] at hitem
    simp only [List.mem_cons, List.not_mem_nil, or_false] at hitem
    rcases hitem with rfl | rfl | rfl | rfl | rfl
    · exact absurd rfl hstep
    · exact absurd rfl hstep
    · exact absurd rfl hstep
    · rfl
    · exact absurd rfl hstep

end FaultySample

open FaultySample

/-- A file cannot be copied. A warning names it or a directory above it, the link beside it is
copied, and the project stays as it is. -/
theorem copyProject_mirrors_faulty :
    machine.makeWorkspace (.ofString "/tmp") = (.ok place.toPath, started) ∧
    faulty.isDirectory started source = true ∧
    disk.get? (texts ["app", "pkg", "lib", "x", "b.js"]) = some (.file [50] true) ∧
    (result.2.disk.get? (place ++ texts ["pkg", "lib", "x", "b.js"]) = some (.file [50] true) ∨
      ∃ above, above <+: texts ["x", "b.js"] ∧
        ∃ w ∈ result.1, w.path = entryPath source above) ∧
    result.2.disk.get? (place ++ texts ["pkg", "lib", "x", "c"]) =
      some (.link (.ofString "../a.js")) ∧
    ∀ names, result.2.disk.get? (texts ["app", "pkg", "lib"] ++ names) =
      started.disk.get? (texts ["app", "pkg", "lib"] ++ names) := by
  have hmade : machine.makeWorkspace (.ofString "/tmp") = (.ok place.toPath, started) := by cbv
  have hW : started.disk.find false started.directory place.toPath = .ok (place, .directory) := by
    cbv
  have hfound : started.disk.find false started.directory source =
      .ok (texts ["app", "pkg", "lib"], .directory) := by cbv
  have hD : started.disk.LeadsTo started.directory source (texts ["app", "pkg", "lib"]) :=
    ⟨0, by cbv⟩
  have hlook : faulty.isDirectory started source = true := by cbv
  obtain ⟨-, -, -, hlawful⟩ := makeWorkspace_eq_ok lawful_disk hmade
  obtain ⟨hseen, -, -, -, hsame⟩ := copyProject_mirrors unreliable_faulty lawful_disk
    storable_disk hmade hW (by decide) (by decide) (by decide) hD (by decide) (by decide)
    fun _ => Disk.lists_tree hlawful hfound
  obtain ⟨hnamed, hplain, -⟩ := hseen hlook
  refine ⟨hmade, hlook, by decide, hnamed (texts ["x", "b.js"]) _ (by decide),
    (hplain (by decide)).1 (texts ["x", "c"]) _ (by decide) ?_, hsame⟩
  intro above habove hwrong
  rw [eq_of_hindered hwrong] at habove
  exact absurd habove (by decide)

namespace LinkedSample

/-- A project with a link to itself. -/
def disk : Disk :=
  ⟨[(texts ["tmp"], .directory), (texts ["app"], .directory),
    (texts ["app", "l"], .link (.ofString ".")), (texts ["app", "lib"], .directory),
    (texts ["app", "lib", "index.js"], .file [49] false)]⟩

def machine : Machine := { disk }

/-- The machine with a workspace. -/
def started : Machine := { disk := disk.insert place .directory, issued := 1 }

/-- The dependencies, given by a path that takes one link more than may be followed. -/
def dep : Text := (List.replicate (Disk.linkLimit + 1) "l/".toList).flatten ++ "lib".toList

end LinkedSample

/-- **Dependencies may be lost unnoticed.** The directory is there and holds a file, and nothing is
wrong but that the look at it fails. It is not copied, and there is no warning. -/
theorem dependencies_lost_unnoticed :
    LinkedSample.machine.makeWorkspace (.ofString "/tmp") =
      (.ok place.toPath, LinkedSample.started) ∧
    LinkedSample.started.disk.LeadsTo [] ((Path.ofString "/app").join ⟨LinkedSample.dep⟩)
      (texts ["app", "lib"]) ∧
    LinkedSample.started.disk.get? (texts ["app", "lib", "index.js"]) =
      some (.file [49] false) ∧
    (copyProject Machine.host place.toPath (.ofString "/app") LinkedSample.dep
      LinkedSample.started).1 = [] ∧
    (copyProject Machine.host place.toPath (.ofString "/app") LinkedSample.dep
      LinkedSample.started).2.disk.get?
        (place ++ (Path.names ⟨LinkedSample.dep⟩ ++ texts ["index.js"])) = none := by
  refine ⟨by cbv, ⟨Disk.linkLimit + 1, by cbv⟩, by decide, by cbv, by cbv⟩

end Workspace

end Sandscript
