import Sandscript.Proofs.DiskFrame

/-!
# Listings of a tree

A tree is copied in the order of a listing. Which order that is does not matter, as long as a
directory comes before what it holds. A listing may lack what could not be read, but it says where.

* `Lists` — a listing of the tree below a place.
* `lists_tree` — the tree at a directory, as a disk gives it, is a listing of this kind in which all
  is read.
-/

namespace Sandscript

namespace Disk

/-- The entry could be read. -/
def Item.isRead (item : Item) : Bool :=
  match item.kind with
  | .unread _ => false
  | _ => true

/-- A listing of the tree below a location. -/
structure Lists (d : Disk) (top : Location) (items : List Item) : Prop where
  there : ∀ item ∈ items, item.isRead = true →
    ∃ e, d.get? (top ++ item.names) = some e ∧ item.kind = kind e
  /-- What is not listed lies at or below a place that could not be read. -/
  complete : ∀ names e, d.get? (top ++ names) = some e →
    ⟨names, kind e⟩ ∈ items ∨ ∃ above cause, above <+: names ∧ ⟨above, .unread cause⟩ ∈ items
  /-- A directory comes before what it holds. -/
  ordered : ∀ before item after, items = before ++ item :: after → item.isRead = true →
    ∀ above name, item.names = above ++ [name] → ⟨above, .directory⟩ ∈ before

theorem exists_cause {item : Item} (h : item.isRead = false) :
    ∃ cause, item.kind = .unread cause := by
  unfold Item.isRead at h
  split at h
  · next cause hcause => exact ⟨cause, hcause⟩
  · simp at h

theorem isRead_kind (names : List Text) (e : Entry) : Item.isRead ⟨names, kind e⟩ = true := by
  cases e with
  | file => rfl
  | directory => rfl
  | link => rfl

-- ---------------------------------------------------------------------------
-- Nothing is left out
-- ---------------------------------------------------------------------------

section

variable {d : Disk} {l : Location} {top : List Text}

/-- What is directly below a place is among the names that the disk lists there. -/
theorem mem_names {name : Text} {e : Entry} (h : d.get? (l ++ [name]) = some e) :
    name ∈ d.names l := by
  have hentry := mem_entries (by simp) h
  have hbelow : l.isPrefixOf? (l ++ [name]) = some [name] := by
    rw [List.isPrefixOf?_eq_some_iff_append_eq]
  rw [names, List.mem_mergeSort, List.mem_filterMap]
  exact ⟨_, hentry, by simp only [hbelow]⟩

theorem le_foldl_max (lengths : List Nat) (start : Nat) :
    start ≤ lengths.foldl max start ∧ ∀ n ∈ lengths, n ≤ lengths.foldl max start := by
  induction lengths generalizing start with
  | nil => exact ⟨le_refl start, fun n hn => absurd hn List.not_mem_nil⟩
  | cons first lengths ih =>
    obtain ⟨hstart, hrest⟩ := ih (max start first)
    rw [List.foldl_cons]
    refine ⟨by omega, fun n hn => ?_⟩
    rcases List.mem_cons.mp hn with rfl | hn
    · omega
    · exact hrest n hn

/-- No location of a disk is longer than its depth. -/
theorem length_le_depth {e : Entry} (h : d.get? l = some e) : l.length ≤ d.depth := by
  by_cases hne : l = []
  · simp [hne]
  · exact (le_foldl_max _ 0).2 _ (List.mem_map.mpr ⟨_, mem_entries hne h, rfl⟩)

/-- Whatever is below a location is listed, if the depth suffices. By induction on the depth: the
first name is listed as one of the location, and above an entry there are directories. -/
theorem mem_itemsBelow_of_get? (hd : d.Lawful) {below : List Text} {e : Entry} {depth : Nat}
    (hne : below ≠ []) (h : d.get? (l ++ below) = some e) (hdepth : below.length ≤ depth) :
    ⟨top ++ below, kind e⟩ ∈ d.itemsBelow l top depth := by
  induction depth generalizing l top below with
  | zero => exact absurd (List.length_eq_zero_iff.mp (Nat.le_zero.mp hdepth)) hne
  | succ depth ih =>
    obtain ⟨name, rest, rfl⟩ := List.exists_cons_of_ne_nil hne
    rw [itemsBelow, List.mem_flatMap]
    by_cases hrest : rest = []
    · subst hrest
      refine ⟨name, mem_names h, ?_⟩
      rw [h]
      cases e with
      | file => exact List.mem_singleton.mpr rfl
      | directory => exact List.mem_cons_self ..
      | link => exact List.mem_singleton.mpr rfl
    · rw [List.append_cons] at h
      have hdir := hd.directory_above hrest (by rw [h]; rfl)
      refine ⟨name, mem_names hdir, ?_⟩
      rw [hdir]
      dsimp only
      rw [List.append_cons top name rest]
      exact List.mem_cons_of_mem _ (ih hrest h (Nat.le_of_succ_le_succ hdepth))

-- ---------------------------------------------------------------------------
-- The order
-- ---------------------------------------------------------------------------

/-- Each entry comes after the directory that holds it, or this is the top. -/
def ParentsFirst (top : List Text) (items : List Item) : Prop :=
  ∀ before item after, items = before ++ item :: after →
    ∀ above name, item.names = above ++ [name] → above = top ∨ ⟨above, .directory⟩ ∈ before

/-- Two lists with parents first make one. -/
theorem ParentsFirst.append {items items' : List Item} (h : ParentsFirst top items)
    (h' : ParentsFirst top items') : ParentsFirst top (items ++ items') := by
  intro before item after heq above name hnames
  rcases List.append_eq_append_iff.mp heq with ⟨more, rfl, hmore⟩ | ⟨more, rfl, hmore⟩
  · exact (h' more item after hmore above name hnames).imp_right (List.mem_append_right _)
  · cases more with
    | nil =>
      have hfirst := h' [] item after hmore.symm above name hnames
      exact hfirst.imp_right fun hin => absurd hin List.not_mem_nil
    | cons first more =>
      obtain ⟨rfl, -⟩ := List.cons.inj hmore
      exact h before item more rfl above name hnames

/-- The subtrees of several names, one after another, have their parents first if each has. -/
theorem ParentsFirst.flatMap {f : Text → List Item} {names : List Text}
    (h : ∀ name ∈ names, ParentsFirst top (f name)) : ParentsFirst top (names.flatMap f) := by
  induction names with
  | nil =>
    intro before item after heq
    exact absurd heq.symm (by simp)
  | cons name names ih =>
    rw [List.flatMap_cons]
    exact (h name (List.mem_cons_self ..)).append
      (ih fun other hother => h other (List.mem_cons_of_mem _ hother))

/-- An entry directly below the top may come first. -/
theorem ParentsFirst.cons {name : Text} {k : Kind} {items : List Item}
    (h : ∀ before item after, items = before ++ item :: after → ∀ above last,
      item.names = above ++ [last] →
        above = top ∨ ⟨above, .directory⟩ ∈ (⟨top ++ [name], k⟩ : Item) :: before) :
    ParentsFirst top (⟨top ++ [name], k⟩ :: items) := by
  intro before item after heq above last hnames
  cases before with
  | nil =>
    obtain ⟨rfl, -⟩ := List.cons.inj heq
    exact Or.inl (List.append_inj' hnames rfl).1.symm
  | cons first before =>
    obtain ⟨rfl, hrest⟩ := List.cons.inj heq
    exact h before item after hrest above last hnames

/-- The walk lists a directory before what is in it, at every depth. -/
theorem parentsFirst_itemsBelow (d : Disk) (l : Location) (top : List Text) (depth : Nat) :
    ParentsFirst top (d.itemsBelow l top depth) := by
  induction depth generalizing l top with
  | zero =>
    intro before item after heq
    exact absurd heq.symm (by simp [itemsBelow])
  | succ depth ih =>
    rw [itemsBelow]
    refine ParentsFirst.flatMap fun name _ => ?_
    split
    · intro before item after heq
      exact absurd heq.symm (by simp)
    · dsimp only
      split
      · refine ParentsFirst.cons fun before item after heq above last hnames => Or.inr ?_
        rcases ih (l ++ [name]) (top ++ [name]) before item after heq above last hnames with
          rfl | hin
        · exact List.mem_cons_self ..
        · exact List.mem_cons_of_mem _ hin
      · refine ParentsFirst.cons fun before item after heq => ?_
        exact absurd heq.symm (by simp)

/-- **The tree at a directory is a listing of what is below it.** The listing goes deeper than any
entry of the disk, so nothing is left out at its end. -/
theorem lists_tree (hd : d.Lawful) {base : Location} {p : Path}
    (h : d.find false base p = .ok (l, .directory)) : d.Lists l (d.tree base p) := by
  have hdir := (find_eq_ok h).2
  rw [tree, h]
  refine ⟨fun item hitem _ => ?_, fun names e he => Or.inl ?_, ?_⟩
  · rcases List.mem_cons.mp hitem with rfl | hitem
    · exact ⟨.directory, by rw [List.append_nil, hdir], rfl⟩
    · obtain ⟨below, e, hnames, he, hkind⟩ := mem_itemsBelow hitem
      exact ⟨e, by rw [hnames, List.nil_append, he], hkind⟩
  · by_cases hne : names = []
    · rw [hne, List.append_nil, hdir] at he
      rw [hne, ← Option.some.inj he]
      exact List.mem_cons_self ..
    · have hlength := length_le_depth he
      rw [List.length_append] at hlength
      exact List.mem_cons_of_mem _ (mem_itemsBelow_of_get? hd hne he (by omega))
  · -- the top is listed first, and below it parents come first
    intro before item after heq _ above name hnames
    cases before with
    | nil =>
      obtain ⟨rfl, -⟩ := List.cons.inj heq
      exact absurd hnames (by simp)
    | cons first before =>
      obtain ⟨rfl, hrest⟩ := List.cons.inj heq
      rcases parentsFirst_itemsBelow d l [] _ before item after hrest above name hnames with
        rfl | hin
      · exact List.mem_cons_self ..
      · exact List.mem_cons_of_mem _ hin

end

end Disk

end Sandscript
