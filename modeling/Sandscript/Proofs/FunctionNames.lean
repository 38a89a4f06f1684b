import Sandscript.Proofs.DeclareReading

/-!
# Names of functions

`fn name(` opens the declaration of a function. The keyword is written out first, and then the
logging alias in the whole of the result, the name included. The two rewritings do not interfere as
long as the name is no call of the alias. A longer name that ends with `log` is none, since the
character before is one of the name: a word character or a dollar sign, after which no call is free.
This leaves the name `log`, which stands alone behind the keyword and is taken for a call.

* `expandLogAfter_name` — a name up to its parenthesis, written out.
* `expandLog_function` — the keyword stays.
* `lower_function` — what a function declaration is lowered to, and that the name is kept exactly if
  it is not `log`.
-/

namespace Sandscript

open Text (trim indent)
open Declare (Gap isIdentifier isIdentifierRest)

-- ---------------------------------------------------------------------------
-- Names and the logging alias
-- ---------------------------------------------------------------------------

/-- No call is free behind a character of an identifier. -/
theorem isFreeAfter_of_isIdentifierRest {c : Char} (h : isIdentifierRest c = true) :
    isFreeAfter (some c) = false := by
  unfold isIdentifierRest at h
  rw [Bool.or_eq_true, beq_iff_eq] at h
  rcases h with hword | rfl
  · refine isFreeAfter_of_isWord ?_
    rw [Bool.or_eq_true, beq_iff_eq] at hword
    rcases hword with hname | rfl
    · exact Text.isWord_of_isAlphanum hname
    · decide
  · decide

/-- Behind a character of an identifier the identifier goes on as it is, and behind its parenthesis
the text is written out as if it started there. -/
theorem expandLogAfter_name_rest {c : Char} (hc : isIdentifierRest c = true) {name : Text}
    (hname : ∀ d ∈ name, isIdentifierRest d = true) (rest : Text) :
    expandLogAfter (some c) (name ++ '(' :: rest) = name ++ '(' :: expandLog rest := by
  induction name generalizing c with
  | nil =>
    have hfree : isFreeAfter (some '(') = isFreeAfter none := by decide
    rw [List.nil_append, expandLogAfter_bound (isFreeAfter_of_isIdentifierRest hc),
      expandLogAfter_congr hfree]
    rfl
  | cons d name ih =>
    rw [List.cons_append, expandLogAfter_bound (isFreeAfter_of_isIdentifierRest hc),
      ih (hname d (List.mem_cons_self ..)) fun e he => hname e (List.mem_cons_of_mem _ he)]
    rfl

/-- A name is a call of the alias only if it is the alias. -/
theorem logCall_prefix_name_iff {name : Text} (h : '(' ∉ name) (rest : Text) :
    logCall <+: name ++ '(' :: rest ↔ name = "log".toList := by
  constructor
  · rintro ⟨u, hu⟩
    -- both sides up to their first parenthesis
    have heq := congrArg (List.takeWhile (· != '(')) hu
    rw [Text.takeWhile_append_sep h] at heq
    exact heq.symm.trans (Text.takeWhile_append_sep (t := "log".toList) (by decide) u)
  · rintro rfl
    exact ⟨rest, rfl⟩

/-- A name behind a blank, up to its parenthesis. The place before the name is free, so a name that
is the alias is expanded like a call of it; inside any other name no place is free. -/
theorem expandLogAfter_name {name : Text} (hname : isIdentifier name = true) (rest : Text) :
    expandLogAfter (some ' ') (name ++ '(' :: rest) =
      (if name = "log".toList then "console.log".toList else name) ++ '(' :: expandLog rest := by
  have hrest := Declare.isIdentifierRest_of_isIdentifier hname
  have hparen : '(' ∉ name := fun hin => absurd (hrest _ hin) (by decide)
  have hcall := logCall_prefix_name_iff hparen rest
  obtain ⟨c, tail, rfl⟩ := List.exists_cons_of_ne_nil (Declare.ne_nil_of_isIdentifier hname)
  have htail : expandLogAfter (some c) (tail ++ '(' :: rest) = tail ++ '(' :: expandLog rest :=
    expandLogAfter_name_rest (hrest c (List.mem_cons_self ..))
      (fun d hd => hrest d (List.mem_cons_of_mem _ hd)) rest
  rw [List.cons_append] at hcall ⊢
  by_cases hlog : c :: tail = "log".toList
  · rw [if_pos hlog, expandLogAfter_call (by decide) (hcall.mpr hlog), htail]
    obtain ⟨rfl, rfl⟩ := List.cons.inj hlog
    rfl
  · rw [if_neg hlog, expandLogAfter_keep fun _ hin => hlog (hcall.mp hin), htail]
    rfl

/-- The host's keyword stays, and what follows it stands behind a blank. -/
theorem expandLog_function (t : Text) :
    expandLog ("function ".toList ++ t) = "function ".toList ++ expandLogAfter (some ' ') t := by
  have hstart : ¬ logCall <+: 'f' :: ("unction ".toList ++ t) := fun h =>
    absurd (logCall_first h) (by decide)
  have hword : "unction".toList.all Text.isWord = true := by decide
  calc expandLog ("function ".toList ++ t)
      = 'f' :: expandLogAfter (some 'f') ("unction".toList ++ ' ' :: t) :=
        expandLogAfter_keep fun _ => hstart
    _ = 'f' :: ("unction".toList ++ expandLogAfter (some 'n') (' ' :: t)) := by
        rw [expandLogAfter_word (by decide) hword]
        rfl
    _ = "function ".toList ++ expandLogAfter (some ' ') t := by
        rw [expandLogAfter_bound (by decide)]
        rfl

-- ---------------------------------------------------------------------------
-- Declarations
-- ---------------------------------------------------------------------------

theorem functionRest?_append {gap : Text} (hgap : Gap gap) {c : Char}
    (hc : Text.isBlank c = false) (t : Text) :
    functionRest? ("fn".toList ++ gap ++ c :: t) = some (c :: t) := by
  obtain ⟨first, blanks, rfl⟩ := List.exists_cons_of_ne_nil hgap.nonempty
  exact Declare.skipBlanks?_append hgap hc t

/-- **A function keeps its name, unless it is called `log`.** The text after the parenthesis is
written out as it would be on its own. -/
theorem lower_function (ctx : Context) {s : Statement} {gap name rest : Text}
    (htext : trim s.text = "fn".toList ++ gap ++ name ++ '(' :: rest) (hgap : Gap gap)
    (hname : isIdentifier name = true) (hword : Text.hasWord importWord name = false)
    (hrest : Text.hasWord importWord rest = false) :
    lower ctx s = .ok (.raw (indent s.text ++ "function ".toList ++
      (if name = "log".toList then "console.log".toList else name) ++ '(' :: expandLog rest)) ∧
    (lower ctx s = .ok (.raw (indent s.text ++ "function ".toList ++ name ++
      '(' :: expandLog rest)) ↔ name ≠ "log".toList) := by
  obtain ⟨first, tail, hfirst⟩ :=
    List.exists_cons_of_ne_nil (Declare.ne_nil_of_isIdentifier hname)
  have hblank : Text.isBlank first = false :=
    (Declare.trimmed_identifier hname).head first (by rw [hfirst]; rfl)
  have hfunction : functionRest? (trim s.text) = some (name ++ '(' :: rest) := by
    have hsplit : "fn".toList ++ gap ++ name ++ '(' :: rest =
        "fn".toList ++ gap ++ first :: (tail ++ '(' :: rest) := by simp [hfirst]
    rw [htext, hsplit, functionRest?_append hgap hblank, hfirst]
    rfl
  -- neither the blanks before the name nor the parenthesis behind it belong to a word
  have hallowed : forbiddenLine? s = none := by
    have hbody : NoImport (name ++ '(' :: rest) :=
      (noImport_of_hasWord hword).append_cons (noImport_of_hasWord hrest) (by decide)
    refine forbiddenLine?_of_noImport (NoImport.of_trim ?_)
    rw [htext, List.append_assoc]
    exact (noImport_of_notMem (by decide)).append_gap hgap hbody
  have hfull : s.isBlank = false := by
    rw [Statement.isBlank, htext]
    rfl
  have hlower : lower ctx s = .ok (.raw (indent s.text ++ "function ".toList ++
      (if name = "log".toList then "console.log".toList else name) ++ '(' :: expandLog rest)) := by
    rw [lower_of_function ctx hallowed hfull hfunction, expandLog_function,
      expandLogAfter_name hname]
    simp only [List.append_assoc]
  refine ⟨hlower, ?_⟩
  rw [hlower]
  constructor
  · intro heq hlog
    rw [if_pos hlog, hlog] at heq
    -- the two names differ in length
    have hlength := congrArg List.length (Lowered.raw.inj (Except.ok.inj heq))
    simp only [List.length_append] at hlength
    have hlonger : "log".toList.length < "console.log".toList.length := by decide
    omega
  · intro hlog
    rw [if_neg hlog]

/-- A name that ends with the alias behind a dollar sign, parameters on two lines, and the alias
among them. -/
theorem lower_function_dollar :
    lower ⟨.ofString "/app", []⟩ ⟨"  fn\t $log(a,\n  log(a)) \x7b ".toList, 1, 2, false⟩ =
      .ok (.raw "  function $log(a,\n  console.log(a)) \x7b".toList) := by
  have hkept := (@lower_function ⟨.ofString "/app", []⟩
    ⟨"  fn\t $log(a,\n  log(a)) \x7b ".toList, 1, 2, false⟩ "\t ".toList "$log".toList
    "a,\n  log(a)) \x7b".toList (by decide) ⟨by decide, by decide⟩ (by decide) (by decide)
    (by decide)).2.mpr (by decide)
  exact hkept.trans (by decide)

/-- The name that is lost, though the text is a function declaration without the import keyword. -/
theorem function_called_log :
    lower ⟨.ofString "/app", []⟩ ⟨"fn log(x) \x7b".toList, 1, 1, false⟩ =
      .ok (.raw "function console.log(x) \x7b".toList) ∧
    "function console.log(x) \x7b".toList ≠
      "function ".toList ++ "log".toList ++ '(' :: expandLog "x) \x7b".toList := by
  constructor <;> decide

end Sandscript
