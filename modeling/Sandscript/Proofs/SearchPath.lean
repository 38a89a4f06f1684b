import Sandscript.Proofs.Cutting
import Sandscript.Proofs.Stages

/-!
# The search path

The host looks for modules in the workspace's dependencies, in the project's, and in what was handed
down, in this order. The three are written into one text with colons between them, and the host cuts
this text at its colons again. Nothing is lost or moved on the way: a directory that holds a colon
would be cut in two, and is refused; what was handed down was cut at its colons before, so nothing
in it can be refused.

* `Text.cutAt_iff` — cutting a text finds the only pieces that make it.
* `exists_searchPath_iff` — only the two directories can be refused.
* `split_of_searchPath` — what is joined is read back.
* `Execution.runIn_of_searchPath` — a run whose directories are refused ends there.
* `searchPath_order` — what the host reads from the search path.
-/

namespace Sandscript

-- ---------------------------------------------------------------------------
-- Pieces of a text
-- ---------------------------------------------------------------------------

namespace Text

/-- The pieces that a text consists of, with a separator between them and none in them. -/
structure CutAt (sep : Char) (t : Text) (pieces : List Text) : Prop where
  ne_nil : pieces ≠ []
  plain : ∀ piece ∈ pieces, sep ∉ piece
  joined : join [sep] pieces = t

theorem CutAt.split_eq {sep : Char} {t : Text} {pieces : List Text} (h : CutAt sep t pieces) :
    split sep t = pieces := by
  rw [← h.joined, split_join h.ne_nil, flatMap_split_of_notMem h.plain]

/-- **Cutting a text finds its pieces**, and there are no others. -/
theorem cutAt_iff {sep : Char} {t : Text} {pieces : List Text} :
    CutAt sep t pieces ↔ split sep t = pieces := by
  refine ⟨CutAt.split_eq, ?_⟩
  rintro rfl
  exact ⟨split_ne_nil sep t, fun _ => notMem_of_mem_split, join_split sep t⟩

end Text

open Text (CutAt)

/-- The entries of the search path that was handed down: the pieces of its variable between colons,
and none if the variable is absent or empty. -/
def Environment.HandsDown (env : Environment) (entries : List Text) : Prop :=
  match env.get? searchPathVar with
  | none => entries = []
  | some value => if value = [] then entries = [] else CutAt ':' value entries

namespace Workspace

-- ---------------------------------------------------------------------------
-- Joining entries
-- ---------------------------------------------------------------------------

/-- Joining succeeds exactly if no entry has the separator in it. -/
theorem joinSearchPath_eq_ok_iff {entries : List Text} {t : Text} :
    joinSearchPath entries = .ok t ↔
      (∀ entry ∈ entries, ':' ∉ entry) ∧ Text.join [':'] entries = t := by
  unfold joinSearchPath
  split
  · next hany =>
    obtain ⟨entry, hentry, hcolon⟩ := List.any_eq_true.mp hany
    refine ⟨fun h => (by cases h), fun h => ?_⟩
    exact absurd (by simpa using hcolon) (h.1 entry hentry)
  · next hnone =>
    have hplain : ∀ entry ∈ entries, ':' ∉ entry := by
      intro entry hentry hcolon
      exact hnone (List.any_eq_true.mpr ⟨entry, hentry, by simpa using hcolon⟩)
    exact ⟨fun h => ⟨hplain, Except.ok.inj h⟩, fun h => congrArg Except.ok h.2⟩

theorem eq_of_joinSearchPath {entries : List Text} {e : IoError}
    (h : joinSearchPath entries = .error e) : e = .separatorInEntry := by
  unfold joinSearchPath at h
  split at h
  · exact (Except.error.inj h).symm
  · cases h

-- ---------------------------------------------------------------------------
-- What was handed down
-- ---------------------------------------------------------------------------

/-- The entries that are joined behind the directories. -/
def handedDown (inherited : Option Text) : List Text :=
  match inherited with
  | some t => splitSearchPath t
  | none => []

/-- The entries that are handed down come from a cut, so they have no separator. -/
theorem plain_handedDown (inherited : Option Text) :
    ∀ entry ∈ handedDown inherited, ':' ∉ entry := by
  intro entry hentry
  cases inherited with
  | none => exact absurd hentry List.not_mem_nil
  | some t => exact Text.notMem_of_mem_split hentry

/-- What is handed down is what the environment says, an unset and an empty search path included. -/
theorem handsDown_handedDown (env : Environment) :
    env.HandsDown (handedDown env.inheritedSearchPath?) := by
  unfold Environment.HandsDown Environment.inheritedSearchPath? Environment.getNonempty?
  cases env.get? Environment.searchPathVar with
  | none => rfl
  | some value =>
    cases value with
    | nil => rfl
    | cons c value => exact Text.cutAt_iff.mpr rfl

-- ---------------------------------------------------------------------------
-- The whole search path
-- ---------------------------------------------------------------------------

section
variable {workspace root : Path} {dependencyDir : Text} {inherited : Option Text}

/-- The search path is the dependency directory of the workspace, then that of the project, and then
what is handed down. -/
theorem searchPath_eq : searchPath workspace root dependencyDir inherited =
    joinSearchPath ((workspace.join ⟨dependencyDir⟩).text :: (root.join ⟨dependencyDir⟩).text ::
      handedDown inherited) := by
  cases inherited <;> rfl

/-- Only the two directories can be refused. -/
theorem exists_searchPath_iff :
    (∃ t, searchPath workspace root dependencyDir inherited = .ok t) ↔
      ':' ∉ (workspace.join ⟨dependencyDir⟩).text ∧ ':' ∉ (root.join ⟨dependencyDir⟩).text := by
  constructor
  · rintro ⟨t, ht⟩
    rw [searchPath_eq, joinSearchPath_eq_ok_iff] at ht
    exact ⟨ht.1 _ (by simp), ht.1 _ (by simp)⟩
  · rintro ⟨hworkspace, hroot⟩
    refine ⟨_, searchPath_eq.trans (joinSearchPath_eq_ok_iff.mpr ⟨?_, rfl⟩)⟩
    exact List.forall_mem_cons.mpr ⟨hworkspace,
      List.forall_mem_cons.mpr ⟨hroot, plain_handedDown inherited⟩⟩

/-- A program that cuts its search path gets the entries back, in this order. -/
theorem split_of_searchPath {t : Text}
    (h : searchPath workspace root dependencyDir inherited = .ok t) :
    splitSearchPath t = (workspace.join ⟨dependencyDir⟩).text ::
      (root.join ⟨dependencyDir⟩).text :: handedDown inherited := by
  rw [searchPath_eq, joinSearchPath_eq_ok_iff] at h
  exact Text.CutAt.split_eq ⟨by simp, h.1, h.2⟩

end

end Workspace

/-- A run whose search path cannot be written ends before its program is started. The copying and
the writing of the program come first, so the failure is that of the search path if these succeed.
-/
theorem Execution.runIn_of_searchPath {σ : Type} {host : Host σ} {env : Environment} {job : Job}
    {workspace : Path} {s : Session σ} {e : IoError}
    (hwritten : (writeProgram host job.program workspace
      (copied host job workspace s).machine).1 = .ok ())
    (hrefused : Workspace.searchPath workspace job.root job.dependencyDir
      env.inheritedSearchPath? = .error e) :
    (runIn host env job workspace s).1 = .error (.noWorkspace e) := by
  have hprepare : (prepare host env job workspace s).1 = .error e := by
    unfold prepare Session.act
    rcases hwrite : writeProgram host job.program workspace
      (copied host job workspace s).machine with ⟨e' | _, m⟩
    · rw [hwrite] at hwritten
      cases hwritten
    · dsimp only
      rw [hrefused]
  rcases runIn_cases host env job workspace s with ⟨e', s', hfailed, hrun⟩ | ⟨_, _, _, _, hok, -⟩
  · rw [hfailed] at hprepare
    rw [hrun, Except.error.inj hprepare]
  · rw [hok] at hprepare
    cases hprepare

open Workspace (searchPath splitSearchPath)

/-- **What the host reads from the search path**: the workspace's dependencies, the project's, and
then what was handed down, entry by entry. There is a search path exactly if no colon is in the two
directories. Otherwise, whatever was handed down, the workspace counts as one that could not be
prepared. -/
theorem searchPath_order (workspace root : Path) (dependencyDir : Text) (env : Environment) :
    ((∃ t, searchPath workspace root dependencyDir env.inheritedSearchPath? = .ok t) ↔
      ':' ∉ (workspace.join ⟨dependencyDir⟩).text ∧ ':' ∉ (root.join ⟨dependencyDir⟩).text) ∧
    (∀ t, searchPath workspace root dependencyDir env.inheritedSearchPath? = .ok t →
      ∃ handed, env.HandsDown handed ∧
        splitSearchPath t = (workspace.join ⟨dependencyDir⟩).text ::
          (root.join ⟨dependencyDir⟩).text :: handed) ∧
    (∀ e, searchPath workspace root dependencyDir env.inheritedSearchPath? = .error e →
      e = .separatorInEntry ∧
      ∀ {σ : Type} (host : Host σ) (job : Job) (s : Session σ), job.root = root →
        job.dependencyDir = dependencyDir →
        (Execution.writeProgram host job.program workspace
          (Execution.copied host job workspace s).machine).1 = .ok () →
        (Execution.runIn host env job workspace s).1 = .error (.noWorkspace e)) := by
  refine ⟨Workspace.exists_searchPath_iff, fun t ht => ?_, fun e he => ⟨?_, ?_⟩⟩
  · exact ⟨_, Workspace.handsDown_handedDown env, Workspace.split_of_searchPath ht⟩
  · rw [Workspace.searchPath_eq] at he
    exact Workspace.eq_of_joinSearchPath he
  · rintro σ host job s rfl rfl hwritten
    exact Execution.runIn_of_searchPath hwritten he

namespace SearchPathSample

/-- A variable with entries that are empty, repeated and last. -/
def env : Environment where
  vars := [(Environment.searchPathVar, ":/lib::/lib:".toList)]
  currentDir := .ofString "/app"

/-- A machine on which every operation succeeds and none changes anything. -/
def host : Host Unit where
  isFile _ _ := true
  isDirectory _ _ := false
  isPresent _ _ := false
  readFile _ _ := .ok []
  tree _ _ := []
  makeWorkspace _ p := (.ok p, ())
  makeDirectories _ _ := (.ok (), ())
  copyLink _ _ _ := (.ok (), ())
  copyFile _ _ _ := (.ok (), ())
  writeFile _ _ _ := (.ok (), ())
  removeTree _ _ := (.ok (), ())
  launch _ _ := (.ok ⟨[], [], .exited 0⟩, ())

/-- A job whose dependencies are in a directory with a colon in its name. -/
def job : Job where
  program := Program.emit []
  root := .ofString "/app"
  runtime := .ofString "/bin/node"
  limitMs := none
  dependencyDir := "a:b".toList
  debug := false
  workspaceParent := .ofString "/tmp"

end SearchPathSample

open SearchPathSample in
/-- Empty and repeated entries are handed on as they are, and a colon in the name of the directory
ends a run. -/
theorem searchPath_order_empty_entries :
    (∃ t handed, searchPath (.ofString "/tmp/w") (.ofString "/app") "lib".toList
        env.inheritedSearchPath? = .ok t ∧ env.HandsDown handed ∧
      splitSearchPath t = "/tmp/w/lib".toList :: "/app/lib".toList :: handed) ∧
    env.HandsDown [[], "/lib".toList, [], "/lib".toList, []] ∧
    (Execution.runIn host env job (.ofString "/tmp/w")
      ⟨(), [], .unbounded, .unbounded⟩).1 = .error (.noWorkspace .separatorInEntry) := by
  obtain ⟨hexists, hread, -⟩ :=
    searchPath_order (.ofString "/tmp/w") (.ofString "/app") "lib".toList env
  obtain ⟨t, ht⟩ := hexists.mpr (by decide)
  obtain ⟨handed, hdown, hsplit⟩ := hread t ht
  obtain ⟨-, -, hrefused⟩ := searchPath_order (.ofString "/tmp/w") job.root job.dependencyDir env
  obtain ⟨-, hends⟩ := hrefused .separatorInEntry (by decide)
  refine ⟨⟨t, handed, ht, hdown, hsplit⟩, Text.cutAt_iff.mpr (by decide), ?_⟩
  exact hends host job ⟨(), [], .unbounded, .unbounded⟩ rfl rfl rfl

end Sandscript
