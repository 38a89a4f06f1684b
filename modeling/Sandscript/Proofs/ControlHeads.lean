import Mathlib
import Sandscript.Proofs.Cutting
import Sandscript.Proofs.StatementEnd

/-!
# Heads of control flow

A line that opens a loop, a condition or a declaration must not get an end of its own: the mark
would take its body away from it. The list of cases knows such lines by the texts that they start
with, `heads`. Four of the words stand there alone, and the others with a space behind them.

What the list does with a line that starts with one of the words follows from a few facts on the
two tables of words (`prefix_head`, `not_prefix_declarator`), which leave the cases before and after
it to be looked at:

* `startsWithHead_iff` — the list knows the line by its word, or by the word and a space;
* `hasAssignmentOrCall_of_parenthesis` — a word with a parenthesis behind it looks like a call;
* `head_kept_iff` — so a head is kept if it is known, and cut off from its body if its parenthesis
  follows in any other way and no closer ends the line.
-/

namespace Sandscript

open Text (trim AllBlank)
open Terminator (terminate needsEnd heads EndsClosed startsWithHead hasAssignmentOrCall
  startsWithUpdate)

namespace Terminator

/-- The words that open control flow or a declaration with a body. -/
def headWords : List Text :=
  ["if", "else", "for", "while", "switch", "try", "catch", "finally", "function", "export"].map
    String.toList

/-- The statement does nothing that asks for an end. -/
def Inert (t : Text) : Prop :=
  hasAssignmentOrCall t = false ∧ (startsWithUpdate t = true → t.getLast? = some ')')

end Terminator

open Terminator (headWords Inert)

variable {t word rest : Text}

-- ---------------------------------------------------------------------------
-- The tables
-- ---------------------------------------------------------------------------

/-- The table of heads holds each word alone or with one space behind it. Compared once for the
whole table. -/
theorem mem_heads_of_headWord (h : word ∈ headWords) : word ∈ heads ∨ word ++ [' '] ∈ heads := by
  have hall : headWords.all (fun w => heads.contains w || heads.contains (w ++ [' '])) = true := by
    decide
  simpa using List.all_eq_true.mp hall word h

/-- A text that opens a line with one of the words is a part of the word or goes on from it. -/
theorem comparable_of_opens {entry : Text} (h : entry <+: word ++ rest) :
    (entry.isPrefixOf word || word.isPrefixOf entry) = true := by
  rw [Bool.or_eq_true, List.isPrefixOf_iff_prefix, List.isPrefixOf_iff_prefix]
  exact List.prefix_or_prefix_of_prefix h (List.prefix_append word rest)

/-- Of the table of heads only the entries of the word itself can open a statement with this word.
-/
theorem prefix_head (h : word ∈ headWords) {entry : Text} (hentry : entry ∈ heads)
    (hopens : entry <+: word ++ rest) : entry = word ∨ entry = word ++ [' '] := by
  have hall : headWords.all (fun w => heads.all fun e =>
      !(e.isPrefixOf w || w.isPrefixOf e) || e == w || e == w ++ [' ']) = true := by decide
  have hpair := List.all_eq_true.mp (List.all_eq_true.mp hall word h) entry hentry
  rw [comparable_of_opens hopens] at hpair
  simpa using hpair

/-- No declarator opens a statement with one of these words. -/
theorem not_prefix_declarator (h : word ∈ headWords) {entry : Text}
    (hentry : entry ∈ Terminator.declarators) : ¬ entry <+: word ++ rest := by
  have hall : headWords.all (fun w => Terminator.declarators.all fun e =>
      !(e.isPrefixOf w || w.isPrefixOf e)) = true := by decide
  have hpair := List.all_eq_true.mp (List.all_eq_true.mp hall word h) entry hentry
  intro hopens
  rw [comparable_of_opens hopens] at hpair
  exact Bool.noConfusion hpair

/-- The words are names that could be called. -/
theorem callee_of_headWord (h : word ∈ headWords) :
    ∃ c more, word = c :: more ∧ Terminator.isCalleeStart c = true ∧ c ≠ '\x7d' ∧
      ∀ d ∈ more, Terminator.isCalleeRest d = true := by
  have hall : headWords.all (fun w =>
      w.head?.any (fun c => Terminator.isCalleeStart c && c != '\x7d') &&
      w.tail.all Terminator.isCalleeRest) = true := by decide
  have hword := List.all_eq_true.mp hall word h
  cases word with
  | nil => simp at hword
  | cons c more =>
    simp only [List.head?_cons, Option.any_some, List.tail_cons, Bool.and_eq_true, bne_iff_ne,
      List.all_eq_true] at hword
    exact ⟨c, more, rfl, hword.1.1, hword.1.2, hword.2⟩

-- ---------------------------------------------------------------------------
-- The cases
-- ---------------------------------------------------------------------------

/-- A head is known by its word, or by its word and a space. Of the whole table only the entries for
this word can stand at the start of the statement, and there are at most two of them. -/
theorem startsWithHead_iff (h : word ∈ headWords) :
    startsWithHead (word ++ rest) = true ↔ word ∈ heads ∨ rest.head? = some ' ' := by
  have hopens : startsWithHead (word ++ rest) = true ↔ ∃ entry ∈ heads, entry <+: word ++ rest := by
    obtain ⟨c, more, rfl, -, hbrace, -⟩ := callee_of_headWord h
    unfold startsWithHead Text.opens
    split
    · next hcons => exact absurd (List.cons.inj hcons).1 hbrace
    · simp [List.isPrefixOf_iff_prefix]
  rw [hopens]
  constructor
  · rintro ⟨entry, hentry, hprefix⟩
    rcases prefix_head h hentry hprefix with rfl | rfl
    · exact Or.inl hentry
    · refine Or.inr ?_
      obtain ⟨more, hmore⟩ := (List.prefix_append_right_inj word).mp hprefix
      rw [← hmore]
      rfl
  · rintro (hknown | hspace)
    · exact ⟨word, hknown, List.prefix_append ..⟩
    · rcases mem_heads_of_headWord h with hknown | hknown
      · exact ⟨word, hknown, List.prefix_append ..⟩
      · obtain ⟨more, rfl⟩ := List.head?_eq_some_iff.mp hspace
        exact ⟨word ++ [' '], hknown, ⟨more, by simp⟩⟩

/-- A statement with one of these words is terminable only by an assignment, a call or an update,
since no declarator opens it. -/
theorem isTerminable_eq (h : word ∈ headWords) :
    Terminator.isTerminable (word ++ rest) =
      (hasAssignmentOrCall (word ++ rest) || startsWithUpdate (word ++ rest)) := by
  have hdeclarator : Terminator.declarators.any (Text.opens · (word ++ rest)) = false := by
    rw [List.any_eq_false]
    intro entry hentry hopens
    exact not_prefix_declarator h hentry (List.isPrefixOf_iff_prefix.mp hopens)
  rw [Terminator.isTerminable, hdeclarator, Bool.or_false]

/-- A word with a parenthesis behind it looks like a call, with blanks between them or without. This
is why a head that the table does not know is taken for something to be ended. -/
theorem hasAssignmentOrCall_of_parenthesis (h : word ∈ headWords) {gap : Text} (hgap : AllBlank gap)
    (more : Text) : hasAssignmentOrCall (word ++ (gap ++ '(' :: more)) = true := by
  obtain ⟨c, letters, rfl, hstart, -, hrest⟩ := callee_of_headWord h
  have hstop : ∀ d, (gap ++ '(' :: more).head? = some d → Terminator.isCalleeRest d = false := by
    have hblanks : Text.blanks.all (!Terminator.isCalleeRest ·) = true := by decide
    intro d hd
    cases gap with
    | nil =>
      obtain rfl : '(' = d := by simpa using hd
      decide
    | cons b gap =>
      obtain rfl : b = d := by simpa using hd
      simpa using List.all_eq_true.mp hblanks b (Text.mem_blanks (hgap b (List.mem_cons_self ..)))
  have hdrop : (letters ++ (gap ++ '(' :: more)).dropWhile Terminator.isCalleeRest =
      gap ++ '(' :: more := Text.dropWhile_append_of_head? hrest hstop
  have hcall : Terminator.startsWithCall (c :: letters ++ (gap ++ '(' :: more)) = true := by
    rw [List.cons_append, Terminator.startsWithCall, hdrop,
      Text.trimStart_append_of_allBlank hgap, Text.trimStart_cons_of_not_blank (by decide), hstart]
    rfl
  rw [hasAssignmentOrCall, hcall, Bool.or_true]

/-- The word alone holds nothing that is terminable. -/
theorem inert_of_headWord (h : word ∈ headWords) : Inert word := by
  have hall : headWords.all (fun w => !hasAssignmentOrCall w && !startsWithUpdate w) = true := by
    decide
  have hword := List.all_eq_true.mp hall word h
  simp only [Bool.and_eq_true, Bool.not_eq_true'] at hword
  exact ⟨hword.1, by simp [hword.2]⟩

-- ---------------------------------------------------------------------------
-- Heads and their bodies
-- ---------------------------------------------------------------------------

/-- When a statement with one of these words needs no end: it is recognised as a head, it is closed
already, or it holds nothing that is terminable. -/
theorem needsEnd_head_iff (hword : word ∈ headWords) (htrim : trim t = word ++ rest) :
    needsEnd t = false ↔
      (word ∈ heads ∨ rest.head? = some ' ') ∨ EndsClosed (trim t) ∨ Inert (trim t) := by
  rw [← Bool.not_eq_true, needsEnd_iff, htrim, ← Bool.not_eq_true (startsWithHead _),
    startsWithHead_iff hword, isTerminable_eq hword, Inert]
  cases hasAssignmentOrCall (word ++ rest) <;> cases startsWithUpdate (word ++ rest) <;>
    simp <;> tauto

/-- **When a head keeps its body.** A line that starts with one of the words is left as it is
exactly if it gets no end. That is so if the list knows the word alone, if nothing or a space
follows it, or if the line ends with a closer or does nothing that asks for an end. A parenthesis
asks for one: where it follows a word that is not known alone, at once or behind other blanks than a
space, only a closer at the end of the line keeps the head with its body. -/
theorem head_kept_iff (t word rest : Text) (hword : word ∈ headWords)
    (htrim : trim t = word ++ rest) :
    (terminate t = t ↔ needsEnd t = false) ∧
    (needsEnd t = false ↔
      word ∈ heads ∨ rest = [] ∨ rest.head? = some ' ' ∨ EndsClosed (trim t) ∨ Inert (trim t)) ∧
    ∀ gap more, AllBlank gap → rest = gap ++ '(' :: more →
      (needsEnd t = false ↔ word ∈ heads ∨ rest.head? = some ' ' ∨ EndsClosed (trim t)) := by
  refine ⟨terminate_eq_self_iff, ?_, fun gap more hgap hrest => ?_⟩
  · rw [needsEnd_head_iff hword htrim]
    have hbare : rest = [] → Inert (trim t) := by
      rintro rfl
      rw [htrim, List.append_nil]
      exact inert_of_headWord hword
    tauto
  · have hactive : ¬ Inert (trim t) := by
      rw [htrim, hrest]
      intro hinert
      have hcall := hasAssignmentOrCall_of_parenthesis hword hgap more
      rw [hinert.1] at hcall
      exact Bool.false_ne_true hcall
    rw [needsEnd_head_iff hword htrim]
    tauto

/-- A loop with a space behind its word, one with a tab, and one that ends with a brace. -/
theorem head_kept_iff_spacing :
    terminate "  for (;;) next()".toList = "  for (;;) next()".toList ∧
    needsEnd "for\t(;;) next()".toList = true ∧
    needsEnd "for(;;) \x7b".toList = false := by
  have hword : "for".toList ∈ headWords := by decide
  refine ⟨?_, ?_, ?_⟩
  · obtain ⟨hkept, hneeds, -⟩ := head_kept_iff "  for (;;) next()".toList "for".toList
      " (;;) next()".toList hword (by decide)
    exact hkept.mpr (hneeds.mpr (Or.inr (Or.inr (Or.inl rfl))))
  · obtain ⟨-, -, hcut⟩ := head_kept_iff "for\t(;;) next()".toList "for".toList
      "\t(;;) next()".toList hword (by decide)
    rw [← Bool.not_eq_false, hcut ['\t'] ";;) next()".toList (by decide) rfl]
    decide
  · obtain ⟨-, -, hcut⟩ := head_kept_iff "for(;;) \x7b".toList "for".toList
      "(;;) \x7b".toList hword (by decide)
    exact (hcut [] ";;) \x7b".toList (by decide) rfl).mpr
      (Or.inr (Or.inr ⟨'\x7b', by decide, by decide⟩))

/-- A head is not always kept: one whose parenthesis follows its word at once is cut off. -/
theorem tight_head_cut_off :
    terminate "if(a)".toList = "if(a);".toList ∧
    ¬ ∀ t word rest : Text, word ∈ headWords → trim t = word ++ rest →
      (∀ c, rest.head? = some c → Text.isWord c = false ∧ c ≠ '$') → needsEnd t = false := by
  refine ⟨by decide, fun hkept => ?_⟩
  have hnot := hkept "if(a)".toList "if".toList "(a)".toList (by decide) (by decide) (by
    intro c hc
    obtain rfl : '(' = c := by simpa using hc
    decide)
  exact absurd hnot (by decide)

end Sandscript
