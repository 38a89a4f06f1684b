import Mathlib.Data.List.GetD
import Sandscript.Proofs.Utf8Reading
import Sandscript.Sink

/-!
# Shared buffers

A handle shows everything that was written to its store, and several handles and streams may write
to one store. Which of them do is settled by what was done before: a stream shares the store of the
handle that it was captured with, and a handle that is cloned shares its store with the clone. A
`History` is what was done, step by step. It holds the number of handles in its type, so that no
step can refer to a handle that is not there.

Sharing (`History.Shares`) and the data that was written (`History.through`) are said of the history
alone. The store that a writer writes to is where the two meet:

* `shares_iff` — writers share exactly if they write to the same store;
* `getD_stores` — a store holds what was written through its writers, in order;
* `contents_shared` — hence what a handle shows.
-/

namespace Sandscript

namespace Buffers

-- ---------------------------------------------------------------------------
-- Histories
-- ---------------------------------------------------------------------------

/-- What can be written through: one of the two streams, or one of `n` handles. -/
inductive Writer (n : Nat) where
  | stream (s : Stream)
  | handle (h : Fin n)
deriving DecidableEq, Repr

/-- A writer, once there is one more handle. -/
def Writer.later {n : Nat} : Writer n → Writer (n + 1)
  | .stream s => .stream s
  | .handle h => .handle h.castSucc

/-- The handle that came last. -/
def Writer.newest (n : Nat) : Writer (n + 1) := .handle (Fin.last n)

/-- A writer of a longer history is one of the history before or the handle that was made last. -/
theorem Writer.later_or_newest {n : Nat} (w : Writer (n + 1)) :
    (∃ u : Writer n, w = u.later) ∨ w = .newest n := by
  cases w with
  | stream s => exact Or.inl ⟨.stream s, rfl⟩
  | handle h =>
    induction h using Fin.lastCases with
    | last => exact Or.inr rfl
    | cast h => exact Or.inl ⟨.handle h, rfl⟩

/-- What was done with buffers since the two streams were captured, up to a point where there are
`n` handles. -/
inductive History : Nat → Type where
  | start : History 2
  | write {n : Nat} (past : History n) (w : Writer n) (data : Bytes) : History n
  | flush {n : Nat} (past : History n) (w : Writer n) : History n
  | clone {n : Nat} (past : History n) (h : Fin n) : History (n + 1)
  | add {n : Nat} (past : History n) : History (n + 1)

namespace History

/-- The buffers after all that was done. -/
def buffers {n : Nat} : History n → Buffers
  | start => captured
  | write past (.stream s) data => past.buffers.writeStream s data
  | write past (.handle h) data => past.buffers.write h data
  | flush past _ => past.buffers.flush
  | clone past h => past.buffers.clone h
  | add past => past.buffers.add

/-- The writers that share a store: a stream and the handle it was captured with, a handle and its
clones, and whatever follows from that. -/
inductive Shares : {n : Nat} → History n → Writer n → Writer n → Prop where
  | out : Shares start (.stream .out) (.handle 0)
  | err : Shares start (.stream .err) (.handle 1)
  | cloned {n : Nat} {past : History n} {h : Fin n} :
      Shares (clone past h) (Writer.handle h).later (.newest n)
  | written {n : Nat} {past : History n} {v : Writer n} {data : Bytes} {w w' : Writer n}
      (hpast : Shares past w w') : Shares (write past v data) w w'
  | flushed {n : Nat} {past : History n} {v w w' : Writer n}
      (hpast : Shares past w w') : Shares (flush past v) w w'
  | afterClone {n : Nat} {past : History n} {h : Fin n} {w w' : Writer n}
      (hpast : Shares past w w') : Shares (clone past h) w.later w'.later
  | afterAdd {n : Nat} {past : History n} {w w' : Writer n}
      (hpast : Shares past w w') : Shares (add past) w.later w'.later
  | refl {n : Nat} {past : History n} (w : Writer n) : Shares past w w
  | symm {n : Nat} {past : History n} {w w' : Writer n} (h : Shares past w w') : Shares past w' w
  | trans {n : Nat} {past : History n} {w w' w'' : Writer n} (h : Shares past w w')
      (h' : Shares past w' w'') : Shares past w w''

/-- The data that was written through some of the writers, in order. Writers of later on are asked
for as well: what was written before there was a handle was not written through it. -/
def through {n : Nat} : History n → (Writer n → Bool) → Bytes
  | start, _ => []
  | write past w data, p => past.through p ++ if p w then data else []
  | flush past _, p => past.through p
  | clone past _, p => past.through fun w => p w.later
  | add past, p => past.through fun w => p w.later

-- ---------------------------------------------------------------------------
-- The store of a writer
-- ---------------------------------------------------------------------------

/-- There is one handle for each that was made. -/
theorem length_handles {n : Nat} (past : History n) : past.buffers.handles.length = n := by
  induction past with
  | start => rfl
  | write past w data ih =>
    cases w with
    | stream s => exact ih
    | handle h =>
      rw [buffers, Buffers.write]
      split
      · exact ih
      · exact ih
  | flush past w ih => exact ih
  | clone past h ih =>
    rw [buffers, Buffers.clone, List.getElem?_eq_getElem (by omega)]
    simpa using ih
  | add past ih => simpa [buffers, Buffers.add] using ih

theorem handle_lt {n : Nat} (past : History n) (h : Fin n) :
    h.val < past.buffers.handles.length := by
  rw [length_handles]
  exact h.isLt

/-- A handle that is added leaves the others as they were. -/
theorem getD_handles_later {n : Nat} (past : History n) (h : Fin n) (store : Nat) :
    (past.buffers.handles ++ [store]).getD h.castSucc 0 = past.buffers.handles.getD h 0 :=
  List.getD_append _ _ _ _ (past.handle_lt h)

theorem getD_handles_newest {n : Nat} (past : History n) (store : Nat) :
    (past.buffers.handles ++ [store]).getD n 0 = store := by
  rw [List.getD_append_right _ _ _ _ (Nat.le_of_eq past.length_handles), length_handles,
    Nat.sub_self]
  rfl

/-- The store that a writer writes to. -/
def storeOf {n : Nat} (past : History n) : Writer n → Nat
  | .stream s => s.store
  | .handle h => past.buffers.handles.getD h 0

theorem handle_store {n : Nat} (past : History n) (h : Fin n) :
    past.buffers.handles[h.val]? = some (past.storeOf (.handle h)) := by
  rw [storeOf, List.getD_eq_getElem?_getD, List.getElem?_eq_getElem (past.handle_lt h)]
  rfl

/-- What a step does to the buffers. -/
theorem buffers_write {n : Nat} (past : History n) (w : Writer n) (data : Bytes) :
    (write past w data).buffers = past.buffers.append (past.storeOf w) data := by
  cases w with
  | stream s => rfl
  | handle h => rw [buffers, Buffers.write, handle_store]

/-- A clone adds a handle with the store of the one it is made of, and no store. -/
theorem buffers_clone {n : Nat} (past : History n) (h : Fin n) :
    (clone past h).buffers = { past.buffers with
      handles := past.buffers.handles ++ [past.storeOf (.handle h)] } := by
  rw [buffers, Buffers.clone, handle_store]

theorem storeOf_write {n : Nat} (past : History n) (v w : Writer n) (data : Bytes) :
    (write past v data).storeOf w = past.storeOf w := by
  cases w with
  | stream s => rfl
  | handle h => rw [storeOf, buffers_write, storeOf, append]

/-- A clone moves nobody to another store. -/
theorem storeOf_clone_later {n : Nat} (past : History n) (h : Fin n) (w : Writer n) :
    (clone past h).storeOf w.later = past.storeOf w := by
  cases w with
  | stream s => rfl
  | handle k =>
    show (clone past h).buffers.handles.getD k.castSucc 0 = past.buffers.handles.getD k 0
    rw [buffers_clone]
    exact past.getD_handles_later k _

theorem storeOf_clone_newest {n : Nat} (past : History n) (h : Fin n) :
    (clone past h).storeOf (.newest n) = past.storeOf (.handle h) := by
  show (clone past h).buffers.handles.getD n 0 = past.storeOf (.handle h)
  rw [buffers_clone]
  exact past.getD_handles_newest _

theorem storeOf_add_later {n : Nat} (past : History n) (w : Writer n) :
    (add past).storeOf w.later = past.storeOf w := by
  cases w with
  | stream s => rfl
  | handle k => exact past.getD_handles_later k _

theorem storeOf_add_newest {n : Nat} (past : History n) :
    (add past).storeOf (.newest n) = past.buffers.stores.length :=
  past.getD_handles_newest _

/-- Every writer has a store. By induction on the history: a step adds stores or leaves them, and a
new handle has an old store or the one that was added. -/
theorem storeOf_lt {n : Nat} (past : History n) (w : Writer n) :
    past.storeOf w < past.buffers.stores.length := by
  induction past with
  | start =>
    cases w with
    | stream s => cases s <;> decide
    | handle h =>
      revert h
      decide
  | write past v data ih =>
    rw [storeOf_write, buffers_write, append, List.length_modify]
    exact ih w
  | flush past v ih => exact ih w
  | clone past h ih =>
    rw [buffers_clone]
    obtain ⟨u, rfl⟩ | rfl := w.later_or_newest
    · rw [storeOf_clone_later]
      exact ih u
    · rw [storeOf_clone_newest]
      exact ih (.handle h)
  | add past ih =>
    rw [buffers, Buffers.add, List.length_append, List.length_singleton]
    obtain ⟨u, rfl⟩ | rfl := w.later_or_newest
    · rw [storeOf_add_later]
      exact Nat.lt_succ_of_lt (ih u)
    · rw [storeOf_add_newest]
      exact Nat.lt_succ_self _

-- ---------------------------------------------------------------------------
-- Sharing
-- ---------------------------------------------------------------------------

/-- Writers that share have one store. By induction on the history, with one case for each step that
made a handle. -/
theorem storeOf_eq_of_shares {n : Nat} {past : History n} {w w' : Writer n}
    (h : past.Shares w w') : past.storeOf w = past.storeOf w' := by
  induction h with
  | out => rfl
  | err => rfl
  | cloned => rw [storeOf_clone_later, storeOf_clone_newest]
  | written _ ih => rw [storeOf_write, storeOf_write, ih]
  | flushed _ ih => exact ih
  | afterClone _ ih => rw [storeOf_clone_later, storeOf_clone_later, ih]
  | afterAdd _ ih => rw [storeOf_add_later, storeOf_add_later, ih]
  | refl w => rfl
  | symm _ ih => exact ih.symm
  | trans _ _ ih ih' => exact ih.trans ih'

/-- At the start, a writer of a store shares it with the store's stream. -/
theorem shares_stream_start (w : Writer 2) :
    ∃ s : Stream, start.Shares w (.stream s) ∧ start.storeOf w = s.store := by
  cases w with
  | stream s => exact ⟨s, .refl _, rfl⟩
  | handle h =>
    obtain rfl | rfl : h = 0 ∨ h = 1 := by
      revert h
      decide
    · exact ⟨.out, .symm .out, rfl⟩
    · exact ⟨.err, .symm .err, rfl⟩

/-- Writers with one store share. A store is new when it is made, so that only clones can lead to it
again. The induction takes off the last step, and of the two writers at most one can be its handle.
-/
theorem shares_of_storeOf_eq {n : Nat} {past : History n} {w w' : Writer n}
    (h : past.storeOf w = past.storeOf w') : past.Shares w w' := by
  induction past with
  | start =>
    obtain ⟨s, hs, hstore⟩ := shares_stream_start w
    obtain ⟨s', hs', hstore'⟩ := shares_stream_start w'
    rw [hstore, hstore'] at h
    -- the two streams have stores of their own
    obtain rfl : s = s' := by
      revert h
      cases s <;> cases s' <;> decide
    exact hs.trans hs'.symm
  | write past v data ih =>
    rw [storeOf_write, storeOf_write] at h
    exact .written (ih h)
  | flush past v ih => exact .flushed (ih h)
  | clone past k ih =>
    -- the newest handle stands for the one that it was cloned from
    have hsource : ∀ w : Writer _, ∃ u : Writer _, (clone past k).Shares w u.later := by
      intro w
      obtain ⟨u, rfl⟩ | rfl := w.later_or_newest
      · exact ⟨u, .refl _⟩
      · exact ⟨.handle k, .symm .cloned⟩
    obtain ⟨u, hu⟩ := hsource w
    obtain ⟨u', hu'⟩ := hsource w'
    rw [storeOf_eq_of_shares hu, storeOf_eq_of_shares hu', storeOf_clone_later,
      storeOf_clone_later] at h
    exact hu.trans ((Shares.afterClone (ih h)).trans hu'.symm)
  | add past ih =>
    -- the newest handle is alone with its store
    obtain ⟨u, rfl⟩ | rfl := w.later_or_newest
    · obtain ⟨u', rfl⟩ | rfl := w'.later_or_newest
      · rw [storeOf_add_later, storeOf_add_later] at h
        exact .afterAdd (ih h)
      · rw [storeOf_add_later, storeOf_add_newest] at h
        exact absurd h (Nat.ne_of_lt (past.storeOf_lt u))
    · obtain ⟨u', rfl⟩ | rfl := w'.later_or_newest
      · rw [storeOf_add_later, storeOf_add_newest] at h
        exact absurd h.symm (Nat.ne_of_lt (past.storeOf_lt u'))
      · exact .refl _

/-- **Writers share exactly if they write to the same store.** -/
theorem shares_iff {n : Nat} {past : History n} {w w' : Writer n} :
    past.Shares w w' ↔ past.storeOf w = past.storeOf w' :=
  ⟨storeOf_eq_of_shares, shares_of_storeOf_eq⟩

instance {n : Nat} (past : History n) (w w' : Writer n) : Decidable (past.Shares w w') :=
  decidable_of_iff _ shares_iff.symm

-- ---------------------------------------------------------------------------
-- The data in a store
-- ---------------------------------------------------------------------------

/-- What was written to a store, in order. -/
def writtenTo {n : Nat} (past : History n) (store : Nat) : Bytes :=
  past.through fun w => past.storeOf w == store

/-- Appending to a store changes this one and no other. -/
theorem getD_modify_append (stores : List Bytes) {k : Nat} (hk : k < stores.length) (j : Nat)
    (data : Bytes) :
    (stores.modify k (· ++ data)).getD j [] =
      stores.getD j [] ++ if k = j then data else [] := by
  rw [List.getD_eq_getElem?_getD, List.getD_eq_getElem?_getD, List.getElem?_modify]
  split
  · next hkj =>
    subst hkj
    rw [List.getElem?_eq_getElem hk]
    rfl
  · simp

/-- **A store holds what was written to it**, in the order of the history. A write appends to one
store, and the other steps add an empty one or none. -/
theorem getD_stores {n : Nat} (past : History n) (store : Nat) :
    past.buffers.stores.getD store [] = past.writtenTo store := by
  induction past with
  | start =>
    show ([[], []] : List Bytes).getD store [] = []
    rcases store with _ | _ | store <;> rfl
  | write past v data ih =>
    rw [buffers_write, append, getD_modify_append _ (past.storeOf_lt v), ih]
    simp only [writtenTo, through, storeOf_write, beq_iff_eq]
  | flush past v ih => exact ih
  | clone past h ih =>
    rw [buffers_clone, ih]
    simp only [writtenTo, through, storeOf_clone_later]
  | add past ih =>
    have hold : (add past).buffers.stores.getD store [] = past.buffers.stores.getD store [] := by
      show (past.buffers.stores ++ [[]]).getD store [] = _
      rcases Nat.lt_or_ge store past.buffers.stores.length with hlt | hge
      · exact List.getD_append _ _ _ _ hlt
      · rw [List.getD_append_right _ _ _ _ hge, List.getD_eq_default _ _ hge]
        rcases store - past.buffers.stores.length with _ | k <;> rfl
    rw [hold, ih]
    simp only [writtenTo, through, storeOf_add_later]

/-- A handle shows what was written through all writers that share with it, in the order of the
history. -/
theorem contents_eq {n : Nat} (past : History n) (h : Fin n) :
    past.buffers.contents h =
      Utf8.decodeLossy (past.through fun w => past.Shares w (.handle h)) := by
  have hshared : (fun w => decide (past.Shares w (.handle h))) =
      fun w => past.storeOf w == past.storeOf (.handle h) := by
    funext w
    rw [Bool.eq_iff_iff, decide_eq_true_eq, shares_iff, beq_iff_eq]
  rw [Buffers.contents, handle_store, hshared]
  dsimp only
  rw [getD_stores]
  rfl

end History

open History (Shares)

/-- **What a handle shows** is what was written through the writers that share its store, in order
and read as one text, whether it was written before or after the handle was made. What others write
does not change it. So a text is read back, however its bytes were divided among them. -/
theorem contents_shared {n : Nat} (past : History n) (h : Fin n) :
    past.buffers.contents h =
      Utf8.decodeLossy (past.through fun w => past.Shares w (.handle h)) ∧
    (∀ w data, ¬ past.Shares w (.handle h) →
      (past.write w data).buffers.contents h = past.buffers.contents h) ∧
    ∀ t, (past.through fun w => past.Shares w (.handle h)) = Utf8.encode t →
      past.buffers.contents h = t := by
  refine ⟨past.contents_eq h, fun w data hother => ?_, fun t ht => ?_⟩
  · have hsame : ∀ v, (past.write w data).Shares v (.handle h) ↔ past.Shares v (.handle h) := by
      intro v
      rw [History.shares_iff, History.shares_iff, History.storeOf_write, History.storeOf_write]
    rw [History.contents_eq, History.contents_eq, History.through]
    simp only [hsame, hother, decide_false, Bool.false_eq_true, if_false, List.append_nil]
  · rw [past.contents_eq h, ht, Utf8.decodeLossy_encode]

/-- The three bytes of one character: the first is written to the stream, the second through a clone
that is made after it, and the third through the handle itself. In between, the handle of another
store is written through. -/
def splitCharacter : History 4 :=
  History.start
    |>.write (.stream .out) [0xE2]
    |>.clone 0
    |>.write (.handle 2) [0x82]
    |>.add
    |>.write (.handle 3) [0xFF]
    |>.write (.handle 0) [0xAC]

/-- The character is read back through the clone, and what the other handle writes does not change
it. -/
theorem contents_shared_split_character :
    ¬ splitCharacter.Shares (.handle 3) (.handle 2) ∧
    splitCharacter.buffers.contents 2 = ['€'] ∧
    (splitCharacter.write (.handle 3) [0x82, 0xAC]).buffers.contents 2 = ['€'] := by
  obtain ⟨-, hother, htext⟩ := contents_shared splitCharacter 2
  have halone : ¬ splitCharacter.Shares (.handle 3) (.handle 2) := by decide
  have hread : splitCharacter.buffers.contents 2 = ['€'] := htext ['€'] (by decide)
  exact ⟨halone, hread, (hother (.handle 3) [0x82, 0xAC] halone).trans hread⟩

end Buffers

end Sandscript
