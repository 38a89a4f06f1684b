import Mathlib.Data.List.Infix
import Sandscript.Proofs.Scanning

/-!
# The scanner's grouping is the only one

What the scanner should do with the lines of a script can be said without the scanner: cut them
into groups such that no group could have been closed earlier, and such that no group but the last
one is left open. `Grouping` says this by counting parentheses. There is only one such way to cut,
so the scanner is determined by it:

* `grouping_group` — the scanner's groups are a grouping of the lines;
* `Grouping.eq_group` — any grouping of the lines is the scanner's;
* `scan_unique_grouping` — the same for the statements of a script, with the mark that an open last
  statement gets.

Proofs about scanning a text that was put together from pieces need no induction along the scanner:
they give a grouping of the pieces (`map_text_scan_unlines`).
-/

namespace Sandscript

namespace Statement

open Text (lines unlines)

-- ---------------------------------------------------------------------------
-- Counting parentheses
-- ---------------------------------------------------------------------------

/-- More parentheses are opened than closed. -/
def IsOpen (ls : List Text) : Prop := ls.flatten.count ')' < ls.flatten.count '('

instance (ls : List Text) : Decidable (IsOpen ls) :=
  inferInstanceAs (Decidable (_ < _))

/-- The balance of a line counts its opening parentheses against its closing ones. -/
theorem balance_eq_count (t : Text) : balance t = (t.count '(' : Int) - t.count ')' := by
  induction t with
  | nil => rfl
  | cons c t ih =>
    rw [balance_cons, ih, weight]
    by_cases hopen : c = '('
    · subst hopen
      rw [if_pos rfl, List.count_cons_self, List.count_cons_of_ne (by decide)]
      omega
    · by_cases hclose : c = ')'
      · subst hclose
        rw [if_neg (by decide), if_pos rfl, List.count_cons_self,
          List.count_cons_of_ne (by decide)]
        omega
      · rw [if_neg hopen, if_neg hclose, List.count_cons_of_ne hopen,
          List.count_cons_of_ne hclose]
        omega

theorem balance_append (a b : Text) : balance (a ++ b) = balance a + balance b := by
  rw [balance_eq_count, balance_eq_count, balance_eq_count, List.count_append, List.count_append]
  omega

theorem depth_eq_balance (ls : List Text) : depth ls = balance ls.flatten := by
  induction ls with
  | nil => rfl
  | cons l ls ih => rw [depth_cons, ih, List.flatten_cons, balance_append]

theorem isOpen_iff {ls : List Text} : IsOpen ls ↔ 0 < depth ls := by
  rw [IsOpen, depth_eq_balance, balance_eq_count]
  omega

-- ---------------------------------------------------------------------------
-- Groups that stay open
-- ---------------------------------------------------------------------------

/-- After every line a parenthesis is open. -/
def StaysOpen (g : List Text) : Prop := ∀ p, p <+: g → p ≠ [] → 0 < depth p

theorem StaysOpen.openInside {g : List Text} (h : StaysOpen g) : OpenInside g :=
  fun p hp hne _ => h p hp hne

/-- A group that is open inside and also at its end is open after every line. -/
theorem OpenInside.staysOpen {g : List Text} (h : OpenInside g) (hopen : 0 < depth g) :
    StaysOpen g := by
  intro p hp hne
  by_cases hall : p = g
  · rw [hall]
    exact hopen
  · exact h p hp hne hall

theorem StaysOpen.of_prefix {g g' : List Text} (h : StaysOpen g) (hp : g' <+: g) : StaysOpen g' :=
  fun p hp' hne => h p (hp'.trans hp) hne

/-- A line that closes nothing leaves open what is open. -/
theorem StaysOpen.concat {g : List Text} (h : StaysOpen g) (hne : g ≠ []) {l : Text}
    (hl : 0 ≤ balance l) : StaysOpen (g ++ [l]) := by
  intro p hp hpne
  rcases List.prefix_concat_iff.mp hp with rfl | hp
  · have hopen := h g (List.prefix_refl g) hne
    rw [depth_append, depth_singleton]
    omega
  · exact h p hp hpne

/-- Lines that stay open are one group, which is left open at the end of the script. -/
theorem group_staysOpen {collected rest : List Text} (h : StaysOpen (collected ++ rest))
    (hne : collected ++ rest ≠ []) : group collected rest = [collected ++ rest] := by
  induction rest generalizing collected with
  | nil =>
    rw [List.append_nil] at hne ⊢
    rw [group, if_neg]
    rwa [List.isEmpty_iff]
  | cons l rest ih =>
    have hassoc : collected ++ l :: rest = collected ++ [l] ++ rest := by simp
    have hopen : 0 < depth (collected ++ [l]) := by
      apply h
      · rw [hassoc]
        exact List.prefix_append _ _
      · simp
    rw [group, if_pos hopen, hassoc]
    exact ih (hassoc ▸ h) (by simp)

/-- Lines that are open inside are one group, whether or not the last line closes it. -/
theorem group_openInside_self {g : List Text} (hne : g ≠ []) (h : OpenInside g) :
    group [] g = [g] := by
  rcases Int.lt_or_le 0 (depth g) with hopen | hended
  · exact group_staysOpen (h.staysOpen hopen) hne
  · have hblock : Block ([] ++ g) := ⟨hne, h, hended⟩
    have hcut := group_block hblock hne []
    rw [List.append_nil] at hcut
    exact hcut

-- ---------------------------------------------------------------------------
-- What the scanner looks at
-- ---------------------------------------------------------------------------

/-- The depth depends on the balances of the lines only, so lines that are rewritten with the same
balances have the same depths. -/
theorem depth_take_congr {g g' : List Text} (h : g'.map balance <+: g.map balance) {k : Nat}
    (hk : k ≤ g'.length) : depth (g'.take k) = depth (g.take k) := by
  refine depth_congr ?_
  obtain ⟨rest, hrest⟩ := h
  rw [List.map_take, List.map_take, ← hrest, List.take_append_of_le_length (by simpa using hk)]

/-- Whether lines stay open is a matter of their balances. -/
theorem StaysOpen.of_balances {g g' : List Text} (hg : StaysOpen g)
    (h : g'.map balance <+: g.map balance) : StaysOpen g' := by
  intro p hp hne
  have hlen : g'.length ≤ g.length := by simpa using h.length_le
  rw [List.prefix_iff_eq_take.mp hp, depth_take_congr h hp.length_le]
  refine hg _ (List.take_prefix _ _) ?_
  have hpos := List.length_pos_iff.mpr hne
  have hshort := hp.length_le
  rw [ne_eq, List.take_eq_nil_iff, not_or, ← List.length_eq_zero_iff]
  omega

/-- Whether lines are a block is a matter of their balances. So a block whose lines are rewritten
without touching a parenthesis is still a block. -/
theorem Block.of_balances {g g' : List Text} (hb : Block g)
    (h : g'.map balance = g.map balance) : Block g' := by
  have hpre : g'.map balance <+: g.map balance := h ▸ List.prefix_refl _
  have hlen : g'.length = g.length := by simpa using congrArg List.length h
  refine ⟨?_, ?_, ?_⟩
  · intro hnil
    rw [hnil] at hlen
    exact hb.nonempty (List.length_eq_zero_iff.mp hlen.symm)
  · intro p hp hne hproper
    have hshort : p.length < g'.length := by
      rcases Nat.lt_or_ge p.length g'.length with hlt | hge
      · exact hlt
      · exact absurd (hp.eq_of_length_le hge) hproper
    rw [List.prefix_iff_eq_take.mp hp, depth_take_congr hpre hp.length_le]
    refine hb.open_inside _ (List.take_prefix _ _) ?_ ?_
    · rw [ne_eq, List.take_eq_nil_iff, not_or]
      exact ⟨fun hzero => hne (List.length_eq_zero_iff.mp hzero), hb.nonempty⟩
    · intro hall
      have := congrArg List.length hall
      rw [List.length_take] at this
      omega
  · rw [depth_congr h]
    exact hb.ended

/-- A line that opens nothing is a statement of its own. -/
theorem block_singleton {l : Text} (h : balance l ≤ 0) : Block [l] := by
  refine ⟨by simp, fun p hp hne hproper => ?_, ?_⟩
  · rcases List.prefix_cons_iff.mp hp with hnil | ⟨q, rfl, hq⟩
    · exact absurd hnil hne
    · rw [List.prefix_nil.mp hq] at hproper
      exact absurd rfl hproper
  · rw [depth_singleton]
    exact h

/-- A block does not end with an empty line behind others. -/
theorem Block.getLast?_ne_newline {e : Text} (hb : Block (lines e)) : e.getLast? ≠ some '\n' := by
  intro hlast
  obtain ⟨init, rfl⟩ := List.getLast?_eq_some_iff.mp hlast
  have hlines : lines (init ++ ['\n']) = lines init ++ [[]] := Text.lines_append_newline init []
  rw [hlines] at hb
  have hopen : 0 < depth (lines init) :=
    hb.open_inside _ (List.prefix_append _ _) (Text.lines_ne_nil init) (by simp)
  have hended := hb.ended
  rw [depth_append, depth_singleton, balance_nil] at hended
  omega

-- ---------------------------------------------------------------------------
-- Groupings
-- ---------------------------------------------------------------------------

/-- A way to cut lines into statements. -/
structure Grouping (ls : List Text) (gs : List (List Text)) : Prop where
  flatten_eq : gs.flatten = ls
  nonempty : ∀ g ∈ gs, g ≠ []
  /-- No group could have been closed earlier. -/
  open_inside : ∀ g ∈ gs, ∀ p, p <+: g → p ≠ [] → p ≠ g → IsOpen p
  /-- Only the last group may be left open. -/
  ended : ∀ g ∈ gs.dropLast, ¬ IsOpen g

instance (ls : List Text) (gs : List (List Text)) : Decidable (Grouping ls gs) :=
  decidable_of_iff (gs.flatten = ls ∧ (∀ g ∈ gs, g ≠ []) ∧
      (∀ g ∈ gs, ∀ p ∈ g.inits, p ≠ [] → p ≠ g → IsOpen p) ∧ ∀ g ∈ gs.dropLast, ¬ IsOpen g)
    ⟨fun ⟨hflat, hne, hopen, hended⟩ =>
      ⟨hflat, hne, fun g hg p hp => hopen g hg p ((List.mem_inits p g).mpr hp), hended⟩,
    fun h => ⟨h.flatten_eq, h.nonempty,
      fun g hg p hp => h.open_inside g hg p ((List.mem_inits p g).mp hp), h.ended⟩⟩

theorem Grouping.openInside {ls : List Text} {gs : List (List Text)} (h : Grouping ls gs)
    {g : List Text} (hg : g ∈ gs) : OpenInside g :=
  fun p hp hne hproper => isOpen_iff.mp (h.open_inside g hg p hp hne hproper)

/-- Every group but the last is complete. -/
theorem Grouping.block {ls : List Text} {gs : List (List Text)} (h : Grouping ls gs)
    {g : List Text} (hg : g ∈ gs.dropLast) : Block g := by
  have hmem := List.mem_of_mem_dropLast hg
  have hended := h.ended g hg
  rw [isOpen_iff] at hended
  exact ⟨h.nonempty g hmem, h.openInside hmem, by omega⟩

/-- Blocks, and lines after them that are open inside, are a grouping. The last group need not be
closed, as at the end of a script. -/
theorem grouping_concat {blocks : List (List Text)} (hblocks : ∀ g ∈ blocks, Block g)
    {last : List Text} (hne : last ≠ []) (hlast : OpenInside last) :
    Grouping (blocks ++ [last]).flatten (blocks ++ [last]) where
  flatten_eq := rfl
  nonempty := by
    intro g hg
    rcases List.mem_append.mp hg with hg | hg
    · exact (hblocks g hg).nonempty
    · rw [List.mem_singleton.mp hg]
      exact hne
  open_inside := by
    intro g hg p hp hpne hproper
    rw [isOpen_iff]
    rcases List.mem_append.mp hg with hg | hg
    · exact (hblocks g hg).open_inside p hp hpne hproper
    · obtain rfl := List.mem_singleton.mp hg
      exact hlast p hp hpne hproper
  ended := by
    intro g hg
    rw [List.dropLast_concat] at hg
    have hended := (hblocks g hg).ended
    rw [isOpen_iff]
    omega

/-- The same for texts that are going to be joined. -/
theorem grouping_lines {init : List Text} (hinit : ∀ e ∈ init, Block (lines e)) {last : Text}
    (hlast : OpenInside (lines last)) :
    Grouping ((init ++ [last]).flatMap lines) ((init ++ [last]).map lines) := by
  rw [List.flatMap_def, List.map_append, List.map_singleton]
  refine grouping_concat (fun g hg => ?_) (Text.lines_ne_nil last) hlast
  obtain ⟨e, he, rfl⟩ := List.mem_map.mp hg
  exact hinit e he

/-- Complete pieces, one after another, are grouped into themselves. -/
theorem grouping_of_blocks {pieces : List Text} (h : ∀ e ∈ pieces, Block (lines e)) :
    Grouping (pieces.flatMap lines) (pieces.map lines) := by
  rcases List.eq_nil_or_concat pieces with rfl | ⟨init, last, hpieces⟩
  · exact ⟨rfl, by simp, by simp, by simp⟩
  · rw [List.concat_eq_append] at hpieces
    subst hpieces
    have hlast := (h last (by simp)).open_inside
    exact grouping_lines (fun e he => h e (List.mem_append_left _ he)) hlast

/-- The scanner's groups are a grouping. Together with `Grouping.eq_group`, which is the converse,
this says what the scanner does without its loop. -/
theorem grouping_group (ls : List Text) : Grouping ls (group [] ls) where
  flatten_eq := group_flatten [] ls
  nonempty := fun _ hg => group_ne_nil hg
  open_inside := by
    intro g hg p hp hne hproper
    rw [isOpen_iff]
    exact openInside_of_mem_group hg p hp hne hproper
  ended := by
    intro g hg
    -- a group before the last one has another one behind it
    obtain ⟨before, after, hsplit⟩ := List.append_of_mem hg
    have hne : group [] ls ≠ [] := List.ne_nil_of_mem (List.mem_of_mem_dropLast hg)
    have hall : group [] ls = before ++ g :: (after ++ [(group [] ls).getLast hne]) := by
      conv_lhs => rw [← List.dropLast_concat_getLast hne, hsplit]
      simp
    have hended := group_ended hall (by simp)
    rw [isOpen_iff]
    omega

/-- The scanner finds every grouping, so there is only one. -/
theorem Grouping.eq_group {ls : List Text} {gs : List (List Text)} (h : Grouping ls gs) :
    group [] ls = gs := by
  rw [← h.flatten_eq]
  rcases List.eq_nil_or_concat gs with rfl | ⟨blocks, last, hgs⟩
  · rfl
  · rw [List.concat_eq_append] at hgs
    subst hgs
    have hblocks : ∀ g ∈ blocks, Block g := fun g hg => h.block (by rwa [List.dropLast_concat])
    have hlast : last ∈ blocks ++ [last] := by simp
    rw [List.flatten_append, List.flatten_singleton, group_blocks hblocks,
      group_openInside_self (h.nonempty last hlast) (h.openInside hlast)]

-- ---------------------------------------------------------------------------
-- Statements
-- ---------------------------------------------------------------------------

/-- The statements of a script are its groups. -/
theorem map_lines_scan (t : Text) : (scan t).map (lines ·.text) = group [] (lines t) := by
  have hgroups : ∀ g ∈ group [] (lines t), lines (unlines g) = g := by
    intro g hg
    refine Text.lines_unlines_of_notMem (group_ne_nil hg) fun l hl => ?_
    refine Text.newline_notMem_of_mem_lines (t := t) ?_
    have hall := group_flatten [] (lines t)
    rw [List.nil_append] at hall
    rw [← hall]
    exact List.mem_flatten.mpr ⟨g, hg, hl⟩
  calc (scan t).map (lines ·.text) = ((scan t).map text).map lines := by rw [List.map_map]; rfl
    _ = (group [] (lines t)).map fun g => lines (unlines g) := by
        rw [scan, map_text_number, List.map_map]
        rfl
    _ = (group [] (lines t)).map id := List.map_congr_left hgroups
    _ = group [] (lines t) := List.map_id _

/-- Texts are scanned as one statement each if their lines are a grouping. -/
theorem map_text_scan_unlines {pieces : List Text} (hne : pieces ≠ [])
    (h : Grouping (pieces.flatMap lines) (pieces.map lines)) :
    (scan (unlines pieces)).map text = pieces := by
  rw [scan, map_text_number, Text.lines_unlines hne, h.eq_group, List.map_map]
  exact List.map_id'' Text.unlines_lines pieces

/-- **The grouping of a script is the only one.** The statements of a script cut its lines into
groups that are open up to their last line and, the last one apart, closed by it. A statement is
marked as unterminated just if it is the last one and open. Any other way to cut the lines that has
these properties is the same. -/
theorem scan_unique_grouping (t : Text) :
    Grouping (lines t) ((scan t).map (lines ·.text)) ∧
    (∀ pre s post, scan t = pre ++ s :: post →
      (s.unterminated = true ↔ post = [] ∧ IsOpen (lines s.text))) ∧
    ∀ gs, Grouping (lines t) gs → (scan t).map (lines ·.text) = gs := by
  refine ⟨?_, ?_, ?_⟩
  · rw [map_lines_scan]
    exact grouping_group (lines t)
  · intro pre s post hscan
    obtain ⟨⟨g, hmade⟩, -, hended⟩ := scan_split hscan
    have hflag : s.unterminated = true ↔ IsOpen (lines s.text) := by
      rw [hmade.flag_eq, hmade.lines_eq, isOpen_iff, decide_eq_true_eq]
    constructor
    · intro hs
      refine ⟨?_, hflag.mp hs⟩
      by_contra hpost
      rw [hended hpost] at hs
      exact Bool.noConfusion hs
    · rintro ⟨-, hopen⟩
      exact hflag.mpr hopen
  · intro gs hgs
    rw [map_lines_scan, hgs.eq_group]

/-- A call over three lines that a stray closer ends, and an open call behind it: the cut is found,
and only the second statement is marked. -/
theorem scan_unique_grouping_stray_closer :
    let t := "f(g(\n1)\n))\nh(".toList
    let gs := [["f(g(".toList, "1)".toList, "))".toList], ["h(".toList]]
    Grouping (lines t) gs ∧ (scan t).map (lines ·.text) = gs ∧
      ∃ s, s ∈ scan t ∧ s.unterminated = true ∧ IsOpen (lines s.text) := by
  intro t gs
  have hgs : Grouping (lines t) gs := by decide
  obtain ⟨-, hflag, hunique⟩ := scan_unique_grouping t
  obtain ⟨first, second, hscan, hmark⟩ :
      ∃ first second, scan t = [first] ++ second :: [] ∧ second.unterminated = true :=
    ⟨_, _, rfl, rfl⟩
  exact ⟨hgs, hunique gs hgs, second, by rw [hscan]; simp, hmark,
    ((hflag _ _ _ hscan).mp hmark).2⟩

end Statement

end Sandscript
