import Sandscript.Proofs.DeclareForm
import Sandscript.Proofs.Grouping
import Sandscript.Proofs.LogAlias
import Sandscript.Proofs.LoweringRun
import Sandscript.Proofs.StatementEnd

/-!
# Lines and parentheses of lowered statements

Lowering trims, collapses the blanks after `fn`, inserts text and appends the statement end. None
of this touches a parenthesis, and on a terminated statement none of it touches a newline: all
newlines stand between the first opening and the last closing parenthesis, and all changes of
blanks happen outside. `marks` makes this precise. It keeps the parentheses and newlines of a text,
and `marks_terminate_raw` says that a lowered and ended statement has the marks of the statement.

The marks determine how many lines a text has and how many parentheses each of them opens
(`map_balance_lines_marks`), which is all that the scanner looks at.
-/

namespace Sandscript

open Text (trim indent trail lines AllBlank Trimmed)
open Terminator (terminate)

-- ---------------------------------------------------------------------------
-- Marks
-- ---------------------------------------------------------------------------

/-- The characters that the scanner looks at. -/
def isMark (c : Char) : Bool := c == '(' || c == ')' || c == '\n'

/-- The parentheses and newlines of a text. -/
def marks (t : Text) : Text := t.filter isMark

theorem marks_append (a b : Text) : marks (a ++ b) = marks a ++ marks b := List.filter_append a b

theorem marks_eq_nil {t : Text} (h : ∀ c ∈ t, isMark c = false) : marks t = [] := by
  rw [marks, List.filter_eq_nil_iff]
  intro c hc
  rw [h c hc]
  exact Bool.false_ne_true

/-- Blanks on one line have no marks. -/
theorem marks_of_allBlank {t : Text} (h : AllBlank t) (hnl : '\n' ∉ t) : marks t = [] := by
  refine marks_eq_nil fun c hc => ?_
  have hopen : c ≠ '(' := fun heq => h.notMem (by decide) (heq ▸ hc)
  have hclose : c ≠ ')' := fun heq => h.notMem (by decide) (heq ▸ hc)
  have hline : c ≠ '\n' := fun heq => hnl (heq ▸ hc)
  simp [isMark, hopen, hclose, hline]

theorem count_newline_marks (t : Text) : (marks t).count '\n' = t.count '\n' :=
  List.count_filter (by decide)

/-- The expansion keeps the marks and their order: what is put in has none. -/
theorem marks_expandLogAfter (before : Option Char) (t : Text) :
    marks (expandLogAfter before t) = marks t := by
  induction t generalizing before with
  | nil => rfl
  | cons c t ih =>
    have hcons : ∀ u, marks (c :: u) = marks [c] ++ marks u := fun u => marks_append [c] u
    rcases expandLogAfter_cases before c t with ⟨-, -, heq⟩ | ⟨-, heq⟩
    · have hinsert : marks "console.".toList = [] := by decide
      rw [heq, marks_append, hinsert, List.nil_append, hcons, ih, ← hcons]
    · rw [heq, hcons, ih, ← hcons]

theorem marks_expandLog (t : Text) : marks (expandLog t) = marks t := marks_expandLogAfter none t

/-- A character that is no mark opens no parenthesis. -/
theorem weight_of_not_mark {c : Char} (h : isMark c = false) : Statement.weight c = 0 := by
  simp only [isMark, Bool.or_eq_false_iff, beq_eq_false_iff_ne, ne_eq] at h
  rw [Statement.weight, if_neg h.1.1, if_neg h.1.2]

/-- The marks of a text determine its lines as far as the scanner looks at them. Dropping the other
characters changes neither the number of lines nor the balance of any. -/
theorem map_balance_lines_marks (t : Text) :
    (lines (marks t)).map Statement.balance = (lines t).map Statement.balance := by
  induction t with
  | nil => rfl
  | cons c t ih =>
    obtain ⟨line, rest, hlines⟩ := List.exists_cons_of_ne_nil (Text.lines_ne_nil t)
    obtain ⟨line', rest', hlines'⟩ := List.exists_cons_of_ne_nil (Text.lines_ne_nil (marks t))
    rw [hlines, hlines', List.map_cons, List.map_cons] at ih
    obtain ⟨hline, hrest⟩ := List.cons.inj ih
    by_cases hmark : isMark c = true
    · have hkeep : marks (c :: t) = c :: marks t := List.filter_cons_of_pos hmark
      by_cases hnl : c = '\n'
      · subst hnl
        rw [hkeep, Text.lines_cons_newline, Text.lines_cons_newline, hlines, hlines']
        simp [hline, hrest]
      · rw [hkeep, Text.lines_cons_of_ne hnl hlines, Text.lines_cons_of_ne hnl hlines']
        simp [hline, hrest]
    · have hmark : isMark c = false := by simpa using hmark
      have hdrop : marks (c :: t) = marks t :=
        List.filter_cons_of_neg (by rw [hmark]; exact Bool.false_ne_true)
      -- a character that is dropped is no newline, and has no weight
      have hnl : c ≠ '\n' := by
        rintro rfl
        exact absurd hmark (by decide)
      rw [hdrop, hlines', Text.lines_cons_of_ne hnl hlines]
      simp [hline, hrest, weight_of_not_mark hmark]

/-- Texts with the same marks have lines with the same balances, since line breaks and parentheses
are marks. -/
theorem map_balance_lines_congr {a b : Text} (h : marks a = marks b) :
    (lines a).map Statement.balance = (lines b).map Statement.balance := by
  rw [← map_balance_lines_marks a, h, map_balance_lines_marks]

/-- A text with the marks of a terminated statement is scanned as one statement. -/
theorem Statement.MadeOf.block_of_marks {s : Statement} {g : List Text} (h : Statement.MadeOf s g)
    (hs : s.unterminated = false) {t : Text} (hmarks : marks t = marks s.text) :
    Statement.Block (lines t) := by
  refine (h.block hs).of_balances ?_
  rw [map_balance_lines_congr hmarks, h.lines_eq]

/-- Blanks at the end of a terminated statement stand on its last line. -/
theorem Statement.MadeOf.newline_notMem_blanks {s : Statement} {g : List Text}
    (h : Statement.MadeOf s g) (hs : s.unterminated = false) {a b : Text} (hab : s.text = a ++ b)
    (hb : AllBlank b) : '\n' ∉ b :=
  h.newline_notMem_end hs hab (hb.notMem (by decide))

-- ---------------------------------------------------------------------------
-- The body of a lowered statement
-- ---------------------------------------------------------------------------

/-- What a trimmed statement becomes before the alias is written out. -/
inductive Body (t : Text) : Text → Prop where
  | plain (hf : functionRest? t = none) (hm : Declare.isMeant t = false) : Body t t
  | function {gap rest : Text} (hgap : Declare.Gap gap) (heq : t = "fn".toList ++ gap ++ rest) :
      Body t ("function ".toList ++ rest)

/-- What is read as a function starts with its keyword and a gap. -/
theorem functionRest?_eq_some {t rest : Text} (h : functionRest? t = some rest) :
    ∃ gap, Declare.Gap gap ∧ t = "fn".toList ++ gap ++ rest := by
  rw [functionRest?] at h
  split at h
  · next c tail hfn =>
    obtain rfl := List.isPrefixOf?_eq_some_iff_append_eq.mp hfn
    have hskip : Declare.skipBlanks? (c :: tail) = some rest := h
    obtain ⟨gap, hgap, heq⟩ := Declare.skipBlanks?_eq_some hskip
    exact ⟨gap, hgap, by rw [heq, List.append_assoc]⟩
  · simp at h

theorem Statement.allBlank_text {s : Statement} (hb : s.isBlank = true) : AllBlank s.text := by
  rw [← Text.trim_eq_nil_iff]
  simpa [Statement.isBlank] using hb

/-- A statement that becomes host text is kept if it is blank, and lowered through its body
otherwise. -/
theorem Lowers.raw_cases {ctx : Context} {s : Statement} {text : Text}
    (h : Lowers ctx s (.raw text)) :
    (AllBlank s.text ∧ text = s.text) ∨
      (s.isBlank = false ∧ ∃ body, Body (trim s.text) body ∧
        text = indent s.text ++ expandLog body) := by
  cases h with
  | blank hb => exact Or.inl ⟨Statement.allBlank_text hb, rfl⟩
  | function hb hf =>
    obtain ⟨gap, hgap, heq⟩ := functionRest?_eq_some hf
    exact Or.inr ⟨hb, _, .function hgap heq, rfl⟩
  | plain hb hf hm => exact Or.inr ⟨hb, _, .plain hf hm, rfl⟩

theorem Statement.trim_ne_nil {s : Statement} (hb : s.isBlank = false) : trim s.text ≠ [] := by
  simpa [Statement.isBlank] using hb

/-- A body has no blanks at its ends. It is the trimmed statement itself, or it starts with the
host's keyword, and then something follows that keyword, or the statement would end with a blank. -/
theorem Body.trimmed {t body : Text} (h : Body t body) (ht : Trimmed t) : Trimmed body := by
  cases h with
  | plain => exact ht
  | function hgap heq =>
    next gap rest =>
    refine ⟨fun c hc => ?_, fun c hc => ?_⟩
    · obtain rfl : 'f' = c := Option.some.inj hc
      decide
    · -- the text after the keyword is not empty, or the statement would end with a blank
      cases hrest : rest.getLast? with
      | none =>
        obtain ⟨before, b, rfl, hblank⟩ := hgap.exists_last
        have hend : t.getLast? = some b := by
          rw [heq, List.getLast?_append, hrest, Option.none_or, ← List.append_assoc,
            List.getLast?_concat]
        rw [ht.last b hend] at hblank
        exact Bool.noConfusion hblank
      | some d =>
        have hend : t.getLast? = some d := by
          rw [heq, List.getLast?_append, hrest]
          rfl
        rw [List.getLast?_append, hrest] at hc
        obtain rfl : d = c := Option.some.inj hc
        exact ht.last d hend

theorem Body.ne_nil {t body : Text} (h : Body t body) (ht : t ≠ []) : body ≠ [] := by
  cases h with
  | plain => exact ht
  | function => simp

/-- Writing out the alias leaves no blanks at the ends. -/
theorem trimmed_expandLog {t : Text} (h : Trimmed t) : Trimmed (expandLog t) := by
  refine ⟨fun c hc => ?_, fun c hc => h.last c (getLast?_expandLog t ▸ hc)⟩
  cases t with
  | nil => exact absurd hc (by simp [expandLog])
  | cons d t =>
    rw [expandLog] at hc
    rcases expandLogAfter_cases none d t with ⟨-, -, heq⟩ | ⟨-, heq⟩
    · rw [heq] at hc
      obtain rfl : 'c' = c := Option.some.inj hc
      decide
    · rw [heq] at hc
      exact h.head c hc

theorem expandLog_ne_nil {t : Text} (h : t ≠ []) : expandLog t ≠ [] := by
  intro hnil
  have hlast := getLast?_expandLog t
  rw [hnil, List.getLast?_nil, eq_comm, List.getLast?_eq_none_iff] at hlast
  exact h hlast

-- ---------------------------------------------------------------------------
-- Lowered statements
-- ---------------------------------------------------------------------------

/-- Ending a text takes no mark away, unless it ends with blank lines. -/
theorem marks_terminate {t : Text} (h : '\n' ∉ trail t) : marks (terminate t) = marks t := by
  rcases terminate_eq t with heq | heq
  · rw [heq]
  · have htrail : marks (trail t) = [] := marks_of_allBlank (Text.allBlank_trail t) h
    have hmark : marks [Terminator.mark] = [] := by decide
    calc marks (terminate t) = marks (Text.trimEnd t) := by
          rw [heq, marks_append, hmark, List.append_nil]
      _ = marks (Text.trimEnd t) ++ marks (trail t) := by rw [htrail, List.append_nil]
      _ = marks t := by rw [← marks_append, Text.trimEnd_append_trail]

/-- The body of a statement has the marks of the trimmed statement. Only the blanks behind the
keyword could hold a mark, a line break, and there the statement would have ended. -/
theorem Body.marks_eq {s : Statement} {g : List Text} (hs : Statement.MadeOf s g) {body : Text}
    (h : Body (trim s.text) body) : marks body = marks (trim s.text) := by
  generalize ht : trim s.text = t at h
  cases h with
  | plain => rfl
  | function hgap heq =>
    next gap rest =>
    have hfunction : marks "function ".toList = [] := by decide
    have hfn : marks "fn".toList = [] := by decide
    -- the blanks after the keyword stand before any parenthesis
    have hstart : s.text = (indent s.text ++ "fn".toList ++ gap) ++
        (rest ++ trail (Text.trimStart s.text)) := by
      calc s.text = indent s.text ++ trim s.text ++ trail (Text.trimStart s.text) :=
            (Text.indent_trim_trail s.text).symm
        _ = _ := by rw [ht, heq]; simp
    have hparen : '(' ∉ indent s.text ++ "fn".toList ++ gap := by
      have hkeyword : '(' ∉ "fn".toList := by decide
      rw [List.mem_append, List.mem_append]
      rintro ((hin | hin) | hin)
      · exact (Text.allBlank_indent s.text).notMem (by decide) hin
      · exact hkeyword hin
      · exact hgap.allBlank.notMem (by decide) hin
    have hline : '\n' ∉ gap := fun hin =>
      hs.newline_notMem_start hstart hparen (List.mem_append_right _ hin)
    rw [heq, marks_append, marks_append, marks_append, hfunction, hfn,
      marks_of_allBlank hgap.allBlank hline]
    rfl

/-- The blanks at the end of a complete statement hold no line break: the last line of its group is
the one that closes it. -/
theorem Statement.MadeOf.marks_trail {s : Statement} {g : List Text} (h : Statement.MadeOf s g)
    (hs : s.unterminated = false) : marks (trail (Text.trimStart s.text)) = [] := by
  have hblank := Text.allBlank_trail (Text.trimStart s.text)
  exact marks_of_allBlank hblank
    (h.newline_notMem_blanks hs (Text.indent_trim_trail s.text).symm hblank)

/-- **A lowered statement has the marks of the statement**, if that is terminated. Lowering keeps
the marks of the core, the indentation is copied, and what the ending takes away holds none. -/
theorem marks_terminate_raw {ctx : Context} {s : Statement} {g : List Text} {text : Text}
    (hmade : Statement.MadeOf s g) (hs : s.unterminated = false)
    (h : Lowers ctx s (.raw text)) : marks (terminate text) = marks s.text := by
  rcases h.raw_cases with ⟨hblank, rfl⟩ | ⟨hb, body, hbody, rfl⟩
  · rw [terminate_of_allBlank hblank]
  · have htrim := trimmed_expandLog (hbody.trimmed (Text.trimmed_trim s.text))
    have hne := expandLog_ne_nil (hbody.ne_nil (Statement.trim_ne_nil hb))
    have hend : '\n' ∉ trail (indent s.text ++ expandLog body) := by
      rw [Text.trail_of_last (htrim.last_append hne _)]
      exact List.not_mem_nil
    calc marks (terminate (indent s.text ++ expandLog body))
        = marks (indent s.text) ++ marks body := by
          rw [marks_terminate hend, marks_append, marks_expandLog]
      _ = marks (indent s.text) ++ marks (trim s.text) ++
            marks (trail (Text.trimStart s.text)) := by
          rw [hbody.marks_eq hmade, hmade.marks_trail hs, List.append_nil]
      _ = marks s.text := by
          rw [← marks_append, ← marks_append, Text.indent_trim_trail]

end Sandscript
