import Mathlib.Data.List.Infix
import Sandscript.Proofs.Positions
import Sandscript.Statement

/-!
# What the scanner does

The scanner cuts lines into groups. A group that is not the last one is a `Block`: after its last
line no parenthesis is open, and after every earlier line one is. Blocks are all there is to know:

* `group_flatten`, `scan_texts` — nothing is lost and the order is kept;
* `scan_split` — every statement is made of lines (`MadeOf`), and its number is the number of its
  first line;
* `group_blocks` — lines that consist of blocks are cut into these blocks again.

From the blocks it follows where a statement of several lines has parentheses: an opening one on
its first line, and, if it is terminated, a closing one on its last line (`MadeOf.first_line`,
`MadeOf.last_line`). So neither end of such a statement is blank.
-/

namespace Sandscript

namespace Statement

open Text (unlines lines closed opened)

-- ---------------------------------------------------------------------------
-- Counting parentheses
-- ---------------------------------------------------------------------------

@[simp] theorem balance_nil : balance [] = 0 := rfl

@[simp] theorem balance_cons (c : Char) (t : Text) : balance (c :: t) = weight c + balance t := rfl

theorem depth_singleton (l : Text) : depth [l] = balance l := by
  simp [depth]

theorem depth_cons (l : Text) (ls : List Text) : depth (l :: ls) = balance l + depth ls := rfl

theorem depth_congr {a b : List Text} (h : a.map balance = b.map balance) : depth a = depth b := by
  have hmap : ∀ ls : List Text, depth ls = (ls.map balance).foldr (· + ·) 0 := fun ls =>
    (List.foldr_map ..).symm
  rw [hmap, hmap, h]

theorem depth_append (a b : List Text) : depth (a ++ b) = depth a + depth b := by
  induction a with
  | nil => simp [depth]
  | cons l a ih => rw [List.cons_append, depth_cons, depth_cons, ih, Int.add_assoc]

/-- More opening than closing parentheses need an opening one. -/
theorem mem_of_balance_pos {t : Text} (h : 0 < balance t) : '(' ∈ t := by
  induction t with
  | nil => simp at h
  | cons c t ih =>
    rw [List.mem_cons]
    by_cases hc : c = '('
    · exact Or.inl hc.symm
    · refine Or.inr (ih ?_)
      have : weight c ≤ 0 := by
        rw [weight, if_neg hc]
        split <;> omega
      rw [balance_cons] at h
      omega

/-- More closing than opening parentheses need a closing one. -/
theorem mem_of_balance_neg {t : Text} (h : balance t < 0) : ')' ∈ t := by
  induction t with
  | nil => simp at h
  | cons c t ih =>
    rw [List.mem_cons]
    by_cases hc : c = ')'
    · exact Or.inl hc.symm
    · refine Or.inr (ih ?_)
      have : 0 ≤ weight c := by
        rw [weight, if_neg hc]
        split <;> omega
      rw [balance_cons] at h
      omega

-- ---------------------------------------------------------------------------
-- Groups
-- ---------------------------------------------------------------------------

/-- After every line but the last a parenthesis is open. -/
def OpenInside (g : List Text) : Prop := ∀ p, p <+: g → p ≠ [] → p ≠ g → 0 < depth p

/-- The lines of a terminated statement. -/
structure Block (g : List Text) : Prop where
  nonempty : g ≠ []
  open_inside : OpenInside g
  ended : depth g ≤ 0

/-- Grouping loses no line and keeps their order. By induction on the lines, with those that are
collected so far. -/
theorem group_flatten (collected ls : List Text) :
    (group collected ls).flatten = collected ++ ls := by
  induction ls generalizing collected with
  | nil =>
    rw [group]
    split
    · next h => simp [List.isEmpty_iff.mp h]
    · simp
  | cons l ls ih =>
    rw [group]
    split
    · rw [ih, List.append_assoc, List.singleton_append]
    · rw [List.flatten_cons, ih, List.nil_append, List.append_assoc, List.singleton_append]

/-- No group is empty: a group is closed with the line that closes it, and what is left at the end
is a group only if something is left. -/
theorem group_ne_nil {collected ls g : List Text} (h : g ∈ group collected ls) : g ≠ [] := by
  induction ls generalizing collected with
  | nil =>
    rw [group] at h
    split at h
    · simp at h
    · next hne =>
      rw [List.mem_singleton] at h
      simpa [h] using hne
  | cons l ls ih =>
    rw [group] at h
    split at h
    · exact ih h
    · rcases List.mem_cons.mp h with rfl | h
      · simp
      · exact ih h

/-- The scanner closes a group as soon as it can. The invariant is that the lines that are collected
are open after each of them, so that a group is closed by its last line only. -/
theorem group_openInside {collected ls g : List Text}
    (hc : ∀ p, p <+: collected → p ≠ [] → 0 < depth p) (h : g ∈ group collected ls) :
    OpenInside g := by
  induction ls generalizing collected with
  | nil =>
    rw [group] at h
    split at h
    · simp at h
    · obtain rfl := List.mem_singleton.mp h
      exact fun p hp hne _ => hc p hp hne
  | cons l ls ih =>
    rw [group] at h
    split at h
    · next hopen =>
      -- the line is collected, and the group is open after it
      refine ih (fun p hp hne => ?_) h
      rcases List.prefix_concat_iff.mp hp with rfl | hp
      · exact hopen
      · exact hc p hp hne
    · rcases List.mem_cons.mp h with rfl | h
      · intro p hp hne hproper
        rcases List.prefix_concat_iff.mp hp with hall | hp
        · exact absurd hall hproper
        · exact hc p hp hne
      · refine ih (fun p hp hne => ?_) h
        exact absurd (List.prefix_nil.mp hp) hne

/-- A group is open at all its inner line ends, since it would have been closed there otherwise. -/
theorem openInside_of_mem_group {ls g : List Text} (h : g ∈ group [] ls) : OpenInside g :=
  group_openInside (fun _ hp hne => absurd (List.prefix_nil.mp hp) hne) h

/-- Only the last group can be left open. By induction on the lines: every group but the one that is
left at the end was closed because its depth came down to zero. -/
theorem group_ended {collected ls : List Text} {pre : List (List Text)} {g : List Text}
    {post : List (List Text)} (h : group collected ls = pre ++ g :: post) (hpost : post ≠ []) :
    depth g ≤ 0 := by
  induction ls generalizing collected pre with
  | nil =>
    -- at most one group is left, so none follows it
    have hlen := congrArg List.length h
    have hpos := List.length_pos_iff.mpr hpost
    rw [group] at hlen
    split at hlen
    · simp at hlen
    · simp at hlen
      omega
  | cons l ls ih =>
    rw [group] at h
    split at h
    · exact ih h
    · next hclosed =>
      cases pre with
      | nil =>
        obtain ⟨rfl, -⟩ := List.cons.inj h
        omega
      | cons first pre => exact ih (List.cons.inj h).2

/-- A block that is begun is completed and closed. The lines that follow it start afresh, so that a
script is grouped block by block. -/
theorem group_block {collected rest : List Text} (hb : Block (collected ++ rest))
    (hrest : rest ≠ []) (ls : List Text) :
    group collected (rest ++ ls) = (collected ++ rest) :: group [] ls := by
  induction rest generalizing collected with
  | nil => exact absurd rfl hrest
  | cons l rest ih =>
    rw [List.cons_append, group]
    have hassoc : collected ++ l :: rest = collected ++ [l] ++ rest := by simp
    cases rest with
    | nil =>
      have hended := hb.ended
      rw [if_neg (by omega)]
      rfl
    | cons next rest =>
      have hopen : 0 < depth (collected ++ [l]) := by
        apply hb.open_inside
        · rw [hassoc]
          exact List.prefix_append _ _
        · simp
        · simp
      rw [if_pos hopen, hassoc]
      exact ih (hassoc ▸ hb) (by simp)

/-- Lines that consist of blocks are cut into these blocks. -/
theorem group_blocks {blocks : List (List Text)} (h : ∀ g ∈ blocks, Block g) (ls : List Text) :
    group [] (blocks.flatten ++ ls) = blocks ++ group [] ls := by
  induction blocks with
  | nil => rfl
  | cons g blocks ih =>
    have hg := h g (List.mem_cons_self ..)
    rw [List.flatten_cons, List.append_assoc, group_block (List.nil_append g ▸ hg) hg.nonempty,
      ih fun g' hg' => h g' (List.mem_cons_of_mem _ hg')]
    rfl

-- ---------------------------------------------------------------------------
-- Statements
-- ---------------------------------------------------------------------------

/-- A statement is made of lines, and says so. -/
structure MadeOf (s : Statement) (g : List Text) : Prop where
  text_eq : s.text = unlines g
  count_eq : s.lineCount = g.length
  flag_eq : s.unterminated = decide (0 < depth g)
  nonempty : g ≠ []
  newline_notMem : ∀ l ∈ g, '\n' ∉ l
  open_inside : OpenInside g

/-- The lines of a statement are the lines it is made of. -/
theorem MadeOf.lines_eq {s : Statement} {g : List Text} (h : MadeOf s g) : lines s.text = g := by
  rw [h.text_eq]
  exact Text.lines_unlines_of_notMem h.nonempty h.newline_notMem

theorem MadeOf.block {s : Statement} {g : List Text} (h : MadeOf s g)
    (hs : s.unterminated = false) : Block g := by
  refine ⟨h.nonempty, h.open_inside, ?_⟩
  rw [h.flag_eq, decide_eq_false_iff_not] at hs
  omega

/-- The texts of the statements are those of the groups, whatever their numbers are. -/
theorem map_text_number (line : Nat) (gs : List (List Text)) :
    (number line gs).map text = gs.map unlines := by
  induction gs generalizing line with
  | nil => rfl
  | cons g gs ih =>
    rw [number, List.map_cons, List.map_cons, ih]
    rfl

/-- A cut between numbered statements is a cut between their groups. The number of a statement is
that of the line behind the groups before it. -/
theorem number_eq_append {line : Nat} {gs : List (List Text)} {pre : List Statement}
    {s : Statement} {post : List Statement} (h : number line gs = pre ++ s :: post) :
    ∃ gpre g gpost, gs = gpre ++ g :: gpost ∧ pre = number line gpre ∧
      s = ofGroup (line + gpre.flatten.length) g ∧
      post = number (line + gpre.flatten.length + g.length) gpost := by
  induction gs generalizing line pre with
  | nil => simp [number] at h
  | cons g gs ih =>
    rw [number] at h
    cases pre with
    | nil =>
      obtain ⟨rfl, rfl⟩ := List.cons.inj h
      exact ⟨[], g, gs, rfl, rfl, rfl, rfl⟩
    | cons first pre =>
      obtain ⟨rfl, hrest⟩ := List.cons.inj h
      obtain ⟨gpre, g', gpost, rfl, rfl, rfl, rfl⟩ := ih hrest
      refine ⟨g :: gpre, g', gpost, rfl, rfl, ?_, ?_⟩
      · rw [List.flatten_cons, List.length_append, Nat.add_assoc]
      · rw [List.flatten_cons, List.length_append, Nat.add_assoc line]

/-- Joined groups, each closed with a newline, are their lines, each closed with a newline. -/
theorem closed_map_unlines {gs : List (List Text)} (h : ∀ g ∈ gs, g ≠ []) :
    closed (gs.map unlines) = closed gs.flatten := by
  induction gs with
  | nil => rfl
  | cons g gs ih =>
    obtain ⟨init, last, rfl⟩ := List.eq_nil_or_concat g |>.resolve_left (h g (by simp))
    have hlast : unlines (init ++ [last]) ++ ['\n'] = closed (init ++ [last]) := by
      rw [Text.unlines_eq_closed, Text.closed_append, Text.closed_cons]
      simp [opened, closed]
    rw [List.map_cons, Text.closed_cons, ih fun g' hg' => h g' (List.mem_cons_of_mem _ hg'),
      List.flatten_cons, Text.closed_append, List.concat_eq_append, ← hlast]
    simp

/-- Joining the statements of a text gives the text back. -/
theorem scan_texts (t : Text) : unlines ((scan t).map text) = t := by
  rw [scan, map_text_number, Text.unlines_map_unlines fun g hg => group_ne_nil hg, group_flatten,
    List.nil_append, Text.unlines_lines]

/-- There is always a statement, also in the empty script. -/
theorem scan_ne_nil (t : Text) : scan t ≠ [] := by
  intro h
  have hflat := group_flatten [] (lines t)
  rw [scan] at h
  cases hgroup : group [] (lines t) with
  | nil =>
    rw [hgroup] at hflat
    exact Text.lines_ne_nil t hflat.symm
  | cons g gs => simp [hgroup, number] at h

/-- **What a statement of a text is made of**: lines that stay open up to the last one, at the
place that its number says. Only the last statement can be unterminated. -/
theorem scan_split {t : Text} {pre : List Statement} {s : Statement} {post : List Statement}
    (h : scan t = pre ++ s :: post) :
    (∃ g, MadeOf s g) ∧ s.line = (closed (pre.map text)).count '\n' + 1 ∧
      (post ≠ [] → s.unterminated = false) := by
  rw [scan] at h
  obtain ⟨gpre, g, gpost, hgroup, rfl, rfl, rfl⟩ := number_eq_append h
  have hmem : ∀ g' ∈ gpre ++ g :: gpost, g' ∈ group [] (lines t) := fun g' hg' => hgroup ▸ hg'
  have hlines : (gpre ++ g :: gpost).flatten = lines t := by
    rw [← hgroup, group_flatten, List.nil_append]
  -- the lines of all groups are lines of the text
  have hnl : ∀ g' ∈ gpre ++ g :: gpost, ∀ l ∈ g', '\n' ∉ l := fun g' hg' l hl =>
    Text.newline_notMem_of_mem_lines (hlines ▸ List.mem_flatten.mpr ⟨g', hg', hl⟩)
  have hg : g ∈ gpre ++ g :: gpost := by simp
  refine ⟨⟨g, rfl, rfl, rfl, group_ne_nil (hmem g hg), hnl g hg,
    openInside_of_mem_group (hmem g hg)⟩, ?_, ?_⟩
  · rw [map_text_number, closed_map_unlines fun g' hg' =>
      group_ne_nil (hmem g' (List.mem_append_left _ hg')), Text.count_newline_closed]
    · simp only [ofGroup]
      omega
    · intro l hl
      obtain ⟨g', hg', hl⟩ := List.mem_flatten.mp hl
      exact hnl g' (List.mem_append_left _ hg') l hl
  · intro hpost
    have hne : gpost ≠ [] := fun hnil => hpost (by rw [hnil]; rfl)
    have hended := group_ended hgroup hne
    simp only [ofGroup, decide_eq_false_iff_not]
    omega

/-- The place of a statement in its text. -/
theorem scan_place {t : Text} {pre : List Statement} {s : Statement} {post : List Statement}
    (h : scan t = pre ++ s :: post) :
    t = closed (pre.map text) ++ s.text ++ opened (post.map text) := by
  have hall := scan_texts t
  rw [h, List.map_append, List.map_cons, Text.unlines_eq_closed] at hall
  exact hall.symm

/-- A statement of several lines has an opening parenthesis on its first line. -/
theorem MadeOf.first_line {s : Statement} {g : List Text} (h : MadeOf s g) :
    ∃ first rest, g = first :: rest ∧ s.text = first ++ opened rest ∧ '\n' ∉ first ∧
      (rest = [] ∨ '(' ∈ first) := by
  obtain ⟨first, rest, rfl⟩ := List.exists_cons_of_ne_nil h.nonempty
  refine ⟨first, rest, rfl, ?_, h.newline_notMem first (by simp), ?_⟩
  · rw [h.text_eq, Text.unlines_cons]
  · by_cases hrest : rest = []
    · exact Or.inl hrest
    · have hopen : 0 < depth [first] := by
        apply h.open_inside
        · exact ⟨rest, rfl⟩
        · simp
        · simpa using Ne.symm hrest
      rw [depth_singleton] at hopen
      exact Or.inr (mem_of_balance_pos hopen)

/-- A terminated statement of several lines has a closing parenthesis on its last line. -/
theorem MadeOf.last_line {s : Statement} {g : List Text} (h : MadeOf s g)
    (hs : s.unterminated = false) :
    ∃ front last, s.text = front ++ last ∧ '\n' ∉ last ∧ (front = [] ∨ ')' ∈ last) := by
  have hb := h.block hs
  obtain ⟨init, last, rfl⟩ := List.eq_nil_or_concat g |>.resolve_left h.nonempty
  rw [List.concat_eq_append] at h hb
  refine ⟨closed init, last, ?_, h.newline_notMem last (by simp), ?_⟩
  · rw [h.text_eq, Text.unlines_eq_closed]
    simp [opened]
  · by_cases hinit : init = []
    · exact Or.inl (by simp [hinit, closed])
    · have hopen : 0 < depth init := hb.open_inside init (List.prefix_append _ _) hinit (by simp)
      have hended := hb.ended
      rw [depth_append, depth_singleton] at hended
      exact Or.inr (mem_of_balance_neg (by omega))

/-- A statement goes on to its second line only after an opening parenthesis. -/
theorem MadeOf.newline_notMem_start {s : Statement} {g : List Text} (h : MadeOf s g) {a b : Text}
    (hab : s.text = a ++ b) (ha : '(' ∉ a) : '\n' ∉ a := by
  obtain ⟨first, rest, -, htext, hnl, hrest⟩ := h.first_line
  rcases hrest with rfl | hparen
  · -- one line only
    have hall : a ++ b = first := by
      rw [← hab, htext]
      simp [opened]
    exact fun hin => hnl (hall ▸ List.mem_append_left b hin)
  · have hfirst : first <+: s.text := htext ▸ List.prefix_append _ _
    have hstart : a <+: s.text := hab ▸ List.prefix_append _ _
    rcases List.prefix_or_prefix_of_prefix hfirst hstart with hin | hin
    · exact absurd (hin.subset hparen) ha
    · exact fun hmem => hnl (hin.subset hmem)

/-- A terminated statement has no line behind its last closing parenthesis. -/
theorem MadeOf.newline_notMem_end {s : Statement} {g : List Text} (h : MadeOf s g)
    (hs : s.unterminated = false) {a b : Text} (hab : s.text = a ++ b) (hb : ')' ∉ b) :
    '\n' ∉ b := by
  obtain ⟨front, last, htext, hnl, hfront⟩ := h.last_line hs
  rcases hfront with rfl | hparen
  · have hall : a ++ b = last := by
      rw [← hab, htext]
      rfl
    exact fun hin => hnl (hall ▸ List.mem_append_right a hin)
  · have hlast : last <:+ s.text := htext ▸ List.suffix_append _ _
    have hend : b <:+ s.text := hab ▸ List.suffix_append _ _
    rcases List.suffix_or_suffix_of_suffix hlast hend with hin | hin
    · exact absurd (hin.subset hparen) hb
    · exact fun hmem => hnl (hin.subset hmem)

end Statement

end Sandscript
