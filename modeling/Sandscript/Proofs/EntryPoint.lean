import Mathlib.Data.List.Infix
import Sandscript.Program
import Sandscript.Proofs.Grouping

/-!
# The entry point of a program

A program that does not start itself gets the guarded call of `main` on a line of its own at its
end. What that does to the text depends on how the text ends, and there are three cases
(`appendLine_cases`): nothing is there yet, the last line is complete, or it has to be ended first.
Only the last line of a text matters for this (`appendLine_closed_append`).

* `hasEntryPoint_withEntryPoint` — afterwards there is an entry point;
* `withEntryPoint_unlines` — pieces that do not end with a newline are still the pieces of the
  result, which may have the call and an empty last line behind them;
* `wordAt_of_withEntryPoint` — a word that is not in the call stands where it stood;
* `emit_entry_point` — the call is appended only if it is missing, and then stands there once.
-/

namespace Sandscript

open Text (unlines closed WordAt)

/-- Looking for a text finds it wherever it stands. -/
theorem Text.occursIn_iff {needle t : Text} : Text.occursIn needle t = true ↔ needle <:+: t := by
  induction t with
  | nil => rw [Text.occursIn, List.isEmpty_iff, List.infix_nil]
  | cons c t ih =>
    rw [Text.occursIn, Bool.or_eq_true, List.isPrefixOf_iff_prefix, ih, List.infix_cons_iff]

namespace Program

-- ---------------------------------------------------------------------------
-- A line at the end
-- ---------------------------------------------------------------------------

/-- How a line is appended: to nothing, to a text whose last line has to be ended, or to a text
whose last line is complete. -/
theorem appendLine_cases (t l : Text) :
    (t = [] ∧ appendLine t l = unlines [l, []]) ∨
    (t ≠ [] ∧ t.getLast? ≠ some '\n' ∧ appendLine t l = unlines [t, l, []]) ∨
    ∃ u, t = u ++ ['\n'] ∧ appendLine t l = unlines [u, l, []] := by
  have hclose : ∀ u : Text, u ++ ['\n'] ++ l ++ ['\n'] = unlines [u, l, []] := by
    intro u
    simp [unlines, Text.join]
  unfold appendLine
  by_cases hnil : t = []
  · subst hnil
    exact Or.inl ⟨rfl, by simp [unlines, Text.join]⟩
  · have hempty : t.isEmpty = false := by simpa using hnil
    by_cases hlast : t.getLast? = some '\n'
    · obtain ⟨u, rfl⟩ := List.getLast?_eq_some_iff.mp hlast
      refine Or.inr (Or.inr ⟨u, rfl, ?_⟩)
      rw [if_pos (by simp), hclose]
    · refine Or.inr (Or.inl ⟨hnil, hlast, ?_⟩)
      rw [if_neg (by simp [hempty, hlast]), hclose]

/-- Complete lines before a text do not matter for what is appended to it. Whether the last line has
to be ended is seen at the last character, and this is the same with the lines in front. -/
theorem appendLine_closed_append (ls : List Text) (t l : Text) :
    appendLine (closed ls ++ t) l = closed ls ++ appendLine t l := by
  unfold appendLine
  by_cases hnil : t = []
  · -- what stands before is nothing, or ends with a newline
    subst hnil
    have hfresh : ((closed ls ++ []).isEmpty || (closed ls ++ []).getLast? = some '\n') = true := by
      rw [List.append_nil]
      rcases Text.closed_fresh ls with hnil | hlast
      · rw [hnil]
        rfl
      · rw [hlast]
        simp
    rw [if_pos hfresh, if_pos (by rfl)]
    simp
  · have hempty : (closed ls ++ t).isEmpty = t.isEmpty := by
      rw [List.isEmpty_eq_false_iff.mpr hnil, List.isEmpty_eq_false_iff]
      exact List.append_ne_nil_of_right_ne_nil _ hnil
    obtain ⟨c, hc⟩ := Option.isSome_iff_exists.mp (List.getLast?_isSome.mpr hnil)
    have hlast : (closed ls ++ t).getLast? = t.getLast? := by
      rw [List.getLast?_append, hc, Option.some_or]
    rw [hempty, hlast]
    split <;> simp

-- ---------------------------------------------------------------------------
-- The call of `main`
-- ---------------------------------------------------------------------------

/-- The guarded call is appended exactly if there is no entry point. -/
theorem withEntryPoint_cases (t : Text) :
    (hasEntryPoint t = true ∧ withEntryPoint t = t) ∨
      (hasEntryPoint t = false ∧ withEntryPoint t = appendLine t guardCall) := by
  unfold withEntryPoint
  cases hentry : hasEntryPoint t with
  | true => exact Or.inl ⟨rfl, if_pos rfl⟩
  | false => exact Or.inr ⟨rfl, if_neg Bool.false_ne_true⟩

theorem block_guardCall : Statement.Block (Text.lines guardCall) := by
  rw [Text.lines_of_notMem (by decide)]
  exact Statement.block_singleton (by decide)

theorem hasEntryPoint_of_infix {t : Text} (h : guardCall <:+: t) : hasEntryPoint t = true := by
  rw [hasEntryPoint, Text.occursIn_iff.mpr h, Bool.true_or]

/-- After the step there is an entry point in any case, so doing it again changes nothing. -/
theorem hasEntryPoint_withEntryPoint (t : Text) : hasEntryPoint (withEntryPoint t) = true := by
  rcases withEntryPoint_cases t with ⟨hentry, heq⟩ | ⟨-, heq⟩
  · rw [heq]
    exact hentry
  · rw [heq, appendLine]
    exact hasEntryPoint_of_infix ⟨_, ['\n'], rfl⟩

/-- An entry point is only ever appended, on a line of its own. -/
theorem withEntryPoint_eq_append (t : Text) :
    ∃ rest, withEntryPoint t = t ++ rest ∧
      ∀ c, t.getLast? = some c → c ≠ '\n' → rest = [] ∨ rest.head? = some '\n' := by
  rcases withEntryPoint_cases t with ⟨-, heq⟩ | ⟨-, heq⟩
  · exact ⟨[], by rw [heq, List.append_nil], fun _ _ _ => Or.inl rfl⟩
  · rw [heq]
    rcases appendLine_cases t guardCall with ⟨rfl, hend⟩ | ⟨-, -, hend⟩ | ⟨u, rfl, hend⟩
    · refine ⟨unlines [guardCall, []], hend, fun c hc _ => ?_⟩
      exact absurd hc (by simp)
    · refine ⟨'\n' :: unlines [guardCall, []], ?_, fun _ _ _ => Or.inr rfl⟩
      rw [hend, Text.unlines_cons_cons]
    · refine ⟨unlines [guardCall, []], ?_, fun c hc hne => ?_⟩
      · rw [hend, Text.unlines_cons_cons, List.append_assoc, List.singleton_append]
      · rw [List.getLast?_concat] at hc
        exact absurd (Option.some.inj hc).symm hne

/-- Pieces of which the last one does not end with a newline keep their lines, and the call gets its
own. -/
theorem withEntryPoint_unlines {pieces : List Text} (hne : pieces ≠ [])
    (hlast : ∀ e ∈ pieces, e.getLast? ≠ some '\n') :
    ∃ pieces', pieces' ≠ [] ∧ withEntryPoint (unlines pieces) = unlines pieces' ∧
      ∀ e ∈ pieces', e ∈ pieces ∨ e = guardCall ∨ e = [] := by
  obtain ⟨init, last, hpieces⟩ := (List.eq_nil_or_concat pieces).resolve_left hne
  rw [List.concat_eq_append] at hpieces
  subst hpieces
  rcases withEntryPoint_cases (unlines (init ++ [last])) with ⟨-, heq⟩ | ⟨-, heq⟩
  · exact ⟨_, hne, heq, fun e he => Or.inl he⟩
  · rw [heq, Text.unlines_append, Text.unlines_singleton, appendLine_closed_append]
    rcases appendLine_cases last guardCall with ⟨-, hend⟩ | ⟨-, -, hend⟩ | ⟨u, hu, -⟩
    · -- the last piece is empty, and the call takes its line
      refine ⟨init ++ [guardCall, []], by simp, by rw [hend, Text.unlines_append], ?_⟩
      intro e he
      simp only [List.mem_append, List.mem_cons, List.not_mem_nil, or_false] at he ⊢
      tauto
    · refine ⟨init ++ [last, guardCall, []], by simp, by rw [hend, Text.unlines_append], ?_⟩
      intro e he
      simp only [List.mem_append, List.mem_cons, List.not_mem_nil, or_false] at he ⊢
      tauto
    · refine absurd ?_ (hlast last (by simp))
      rw [hu]
      simp

/-- A word that does not stand in the call stands in the text before it. The call gets a line of its
own, and a word without a newline lies in one line. -/
theorem wordAt_of_withEntryPoint {word t : Text} (hw : word ≠ []) (hnl : '\n' ∉ word)
    (hguard : ∀ k, ¬ WordAt word guardCall k) {n : Nat} (h : WordAt word (withEntryPoint t) n) :
    WordAt word t n := by
  -- what is appended does not hold the word
  have hrest : ∀ piece ∈ [guardCall, []], ∀ k, ¬ WordAt word piece k := by
    intro piece hpiece
    rcases List.mem_cons.mp hpiece with rfl | hnil
    · exact hguard
    · rw [List.mem_singleton.mp hnil]
      exact Text.not_wordAfter_nil hw
  -- so it stands in the line that they are appended to
  have hfirst : ∀ u, WordAt word (unlines [u, guardCall, []]) n → WordAt word u n := by
    intro u hu
    obtain ⟨pre, piece, post, k, hpieces, rfl, -, hword⟩ := Text.wordAt_unlines hw hnl hu
    cases pre with
    | nil =>
      obtain ⟨rfl, -⟩ := List.cons.inj hpieces
      simpa [closed] using hword
    | cons first pre =>
      refine absurd hword (hrest piece ?_ k)
      rw [(List.cons.inj hpieces).2]
      simp
  rcases withEntryPoint_cases t with ⟨-, heq⟩ | ⟨-, heq⟩
  · rwa [heq] at h
  · rw [heq] at h
    rcases appendLine_cases t guardCall with ⟨rfl, hend⟩ | ⟨-, -, hend⟩ | ⟨u, rfl, hend⟩
    · rw [hend] at h
      obtain ⟨pre, piece, post, k, hpieces, -, -, hword⟩ := Text.wordAt_unlines hw hnl h
      refine absurd hword (hrest piece ?_ k)
      rw [hpieces]
      simp
    · rw [hend] at h
      exact hfirst t h
    · rw [hend] at h
      have hu : WordAt word ([] ++ u ++ ['\n']) (([] : Text).length + n) :=
        Text.WordAt.append (hfirst u h) hw rfl (by decide)
      simpa using hu

-- ---------------------------------------------------------------------------
-- The call stands there once
-- ---------------------------------------------------------------------------

/-- What stands before a line that is appended: nothing, or the text with its last line ended. -/
theorem appendLine_eq (t l : Text) :
    ∃ front, appendLine t l = front ++ l ++ ['\n'] ∧
      (front = [] ∨ ∃ u, front = u ++ ['\n'] ∧ u <+: t) := by
  rcases appendLine_cases t l with ⟨rfl, hend⟩ | ⟨-, -, hend⟩ | ⟨u, rfl, hend⟩
  · exact ⟨[], by simp [hend, unlines, Text.join], Or.inl rfl⟩
  · exact ⟨t ++ ['\n'], by simp [hend, unlines, Text.join],
      Or.inr ⟨t, rfl, List.prefix_refl _⟩⟩
  · exact ⟨u ++ ['\n'], by simp [hend, unlines, Text.join],
      Or.inr ⟨u, rfl, List.prefix_append ..⟩⟩

/-- A line that does not stand in a text stands once where it is appended. An occurrence elsewhere
would lie in the text before it, or reach over the newline that ends this text. -/
theorem appendLine_once {t l : Text} (hnl : '\n' ∉ l) (hne : l ≠ []) (hnot : ¬ l <:+: t) :
    ∃! n, l <+: (appendLine t l).drop n := by
  obtain ⟨front, heq, hfront⟩ := appendLine_eq t l
  have hpos := List.length_pos_iff.mpr hne
  -- at the last line there is room for one only
  have hlast : ∀ m, l <+: (l ++ ['\n']).drop m → m = 0 := by
    intro m hm
    rcases Text.prefix_drop_avoids hm hnl with hshort | hlong
    · omega
    · have hlength := hm.length_le
      rw [List.length_drop, List.length_append, List.length_singleton] at hlength
      omega
  refine ⟨front.length, ?_, fun n hn => ?_⟩
  · change l <+: (appendLine t l).drop front.length
    rw [heq, List.append_assoc, List.drop_left]
    exact List.prefix_append ..
  · change l <+: (appendLine t l).drop n at hn
    rw [heq] at hn
    rcases hfront with rfl | ⟨u, rfl, hu⟩
    · exact hlast n hn
    · rw [List.append_assoc, List.append_assoc, List.singleton_append] at hn
      rcases Text.prefix_drop_avoids hn hnl with hshort | hlong
      · -- it would have stood in the text before
        rw [List.drop_append_of_le_length (by omega)] at hn
        have hinside : l <+: u.drop n :=
          List.prefix_of_prefix_length_le hn (List.prefix_append ..) (by simp; omega)
        exact absurd ((hinside.isInfix.trans (List.drop_suffix n u).isInfix).trans hu.isInfix) hnot
      · -- behind the newline only the appended line is left
        obtain ⟨m, rfl⟩ : ∃ m, n = (u ++ ['\n']).length + m :=
          ⟨n - (u.length + 1), by simp; omega⟩
        rw [List.append_cons u '\n' (l ++ ['\n']), ← List.drop_drop, List.drop_left] at hn
        rw [hlast m hn, Nat.add_zero]

/-- An appended line is the last but one, before an empty one, whatever stood before it. -/
theorem lines_appendLine {l : Text} (hnl : '\n' ∉ l) (t : Text) :
    ∃ before, Text.lines (appendLine t l) = before ++ [l, []] := by
  have hline : Text.lines (l ++ ['\n']) = [l, []] := by
    rw [Text.lines_append_newline, Text.lines_of_notMem hnl]
    rfl
  obtain ⟨front, heq, rfl | ⟨u, rfl, -⟩⟩ := appendLine_eq t l
  · exact ⟨[], by rw [heq, List.nil_append, hline, List.nil_append]⟩
  · refine ⟨Text.lines u, ?_⟩
    rw [heq, List.append_assoc, List.append_assoc, List.singleton_append,
      Text.lines_append_newline, hline]

/-- The statements of a program, each ended where it needs to be, one after the other. -/
def joined (statements : List Lowered) : Text :=
  unlines (statements.map (Terminator.terminate ·.text))

/-- **A program has one entry point.** Statements that start themselves are left as they are. To
others the guarded call is appended, on a line of its own, and it stands nowhere else. -/
theorem emit_entry_point (statements : List Lowered) :
    joined statements <+: (emit statements).text ∧
    hasEntryPoint (emit statements).text = true ∧
    (hasEntryPoint (joined statements) = true → (emit statements).text = joined statements) ∧
    (hasEntryPoint (joined statements) = false →
      guardCall ++ ['\n'] <:+ (emit statements).text ∧
      (∃ before, Text.lines (emit statements).text = before ++ [guardCall, []]) ∧
      ∃! n, guardCall <+: (emit statements).text.drop n) := by
  have htext : (emit statements).text = withEntryPoint (joined statements) := rfl
  have hnl : '\n' ∉ guardCall := by decide
  rw [htext]
  refine ⟨?_, hasEntryPoint_withEntryPoint _, fun hentry => if_pos hentry, fun hentry => ?_⟩
  · obtain ⟨rest, heq, -⟩ := withEntryPoint_eq_append (joined statements)
    exact ⟨rest, heq.symm⟩
  · have happend : withEntryPoint (joined statements) = appendLine (joined statements) guardCall :=
      if_neg (by simp [hentry])
    have hnot : ¬ guardCall <:+: joined statements := by
      intro hin
      have hguard := hasEntryPoint_of_infix hin
      simp [hguard] at hentry
    rw [happend]
    refine ⟨?_, lines_appendLine hnl _, appendLine_once hnl (by decide) hnot⟩
    obtain ⟨front, heq, -⟩ := appendLine_eq (joined statements) guardCall
    exact ⟨front, by rw [heq, List.append_assoc]⟩

/-- A script that ends with the call but for its last character, and one that calls `main`
itself. -/
theorem emit_entry_point_seam :
    (∃! n, guardCall <+: (emit [.raw "f(".toList, .raw guardCall.dropLast]).text.drop n) ∧
    (emit [.raw "f()".toList, .raw "  await main()".toList]).text =
      "f();\n  await main()".toList :=
  ⟨((emit_entry_point [.raw "f(".toList, .raw guardCall.dropLast]).2.2.2 (by decide)).2.2,
    ((emit_entry_point [.raw "f()".toList, .raw "  await main()".toList]).2.2.1 (by decide)).trans
      (by decide)⟩

end Program

end Sandscript
