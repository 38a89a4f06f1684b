import Sandscript.Proofs.DeclareReading

/-!
# Binding lists

An import promises names: one identifier, one `* as` identifier, or a list of identifiers of which
each may be renamed. `Promised` says which bindings have this form. The reader accepts all of them
and more, in two ways (`Slack`): it looks for the letters `as` behind a star and not for the word,
and it does not look at the entries between braces at all.

* `Accepted.promised_or_slack`, `Promised.not_slack` — these are the only two ways;
* `imported_cases` — what is known of a statement that becomes an import;
* `import_bindings` — which bindings an import can have, and what becomes of all others.
-/

namespace Sandscript

namespace Declare

open Text (isBlank trim AllBlank Trimmed)

-- ---------------------------------------------------------------------------
-- The promise
-- ---------------------------------------------------------------------------

/-- The words of a text: what stands between its blanks. -/
def words (t : Text) : List Text := (t.splitOnP isBlank).filter (!·.isEmpty)

/-- An entry of a list of names: an identifier, or an identifier, `as` and another identifier. -/
def isNameEntry (t : Text) : Bool :=
  match words t with
  | [name] => isIdentifier name
  | [name, word, other] => isIdentifier name && word == "as".toList && isIdentifier other
  | _ => false

/-- The bindings that an import promises, with their kind and the names for them. The `as` behind a
star is a word of its own, and there is at least one entry between braces. -/
inductive Promised : Text → BindingKind → List Text → Prop where
  | single {name : Text} (hname : isIdentifier name = true) : Promised name .single [name]
  | whole {before after name : Text} (hbefore : AllBlank before) (hafter : Gap after)
      (hname : isIdentifier name = true) :
      Promised ('*' :: before ++ "as".toList ++ after ++ name) .whole ["* as ".toList ++ name]
  | named {inner : Text} (hne : entries inner ≠ [])
      (hentries : ∀ entry ∈ entries inner, isNameEntry entry = true) :
      Promised ('\x7b' :: inner ++ ['\x7d']) .named (entries inner)

/-- Bindings that are accepted and not promised. -/
inductive Slack : Text → Prop where
  /-- The name stands directly behind the letters `as`. -/
  | glued {before name : Text} (hbefore : AllBlank before) (hname : isIdentifier name = true) :
      Slack ('*' :: before ++ "as".toList ++ name)
  /-- Something between the braces is no name. -/
  | loose {inner entry : Text} (hentry : entry ∈ entries inner)
      (hbad : isNameEntry entry = false) : Slack ('\x7b' :: inner ++ ['\x7d'])

/-- Every form that the language promises is accepted by the reader. -/
theorem Promised.accepted {t : Text} {kind : BindingKind} {names : List Text}
    (h : Promised t kind names) : Accepted t kind names := by
  cases h with
  | single hname => exact .single hname
  | whole hbefore hafter hname => exact .whole hbefore hafter.allBlank hname
  | named hne _ => exact .named hne

/-- Each of the two defects is accepted too, with some kind and some names. -/
theorem Slack.accepted {t : Text} (h : Slack t) : ∃ kind names, Accepted t kind names := by
  cases h with
  | glued hbefore hname =>
    have hnone : AllBlank [] := fun c hc => absurd hc List.not_mem_nil
    have haccepted := Accepted.whole hbefore hnone hname
    rw [List.append_nil] at haccepted
    exact ⟨_, _, haccepted⟩
  | loose hentry _ => exact ⟨_, _, .named (List.ne_nil_of_mem hentry)⟩

/-- What is accepted is promised, or it is slack. Each form of acceptance is split at the one thing
that the reader does not ask for: a blank behind `as`, and identifiers as the entries of a braced
list. -/
theorem Accepted.promised_or_slack {t : Text} {kind : BindingKind} {names : List Text}
    (h : Accepted t kind names) : Promised t kind names ∨ Slack t := by
  cases h with
  | single hname => exact Or.inl (.single hname)
  | @whole before after name hbefore hafter hname =>
    by_cases hnil : after = []
    · subst hnil
      rw [List.append_nil]
      exact Or.inr (.glued hbefore hname)
    · exact Or.inl (.whole hbefore ⟨hnil, hafter⟩ hname)
  | @named inner hne =>
    by_cases hentries : ∀ entry ∈ entries inner, isNameEntry entry = true
    · exact Or.inl (.named hne hentries)
    · push Not at hentries
      obtain ⟨entry, hentry, hbad⟩ := hentries
      exact Or.inr (.loose hentry (by simpa using hbad))

/-- A name that stands directly behind `as` does not stand behind a gap as well. -/
theorem gap_ne_glued {before before' after name name' : Text} (hbefore : AllBlank before)
    (hbefore' : AllBlank before') (hafter : Gap after) (hname : isIdentifier name' = true) :
    before ++ "as".toList ++ after ++ name ≠ before' ++ "as".toList ++ name' := by
  intro heq
  have hrest : after ++ name = name' := by
    have hread := congrArg (fun t => "as".toList.isPrefixOf? (Text.trimStart t)) heq
    rw [List.append_assoc _ after, isPrefixOf?_as hbefore, isPrefixOf?_as hbefore'] at hread
    exact Option.some.inj hread
  obtain ⟨c, blanks, rfl, hc⟩ := hafter.exists_first
  rw [(trimmed_identifier hname).head c (by rw [← hrest]; rfl)] at hc
  exact Bool.noConfusion hc

/-- What is promised is not slack, so that the two together are a partition of what is accepted. The
forms start with different characters; the two with a star are told apart by the blank behind `as`,
and the two with braces by their entries. -/
theorem Promised.not_slack {t : Text} {kind : BindingKind} {names : List Text}
    (h : Promised t kind names) : ¬ Slack t := by
  intro hslack
  cases h with
  | single hname =>
    -- an identifier starts with neither a star nor a brace
    have hrest := isIdentifierRest_of_isIdentifier hname
    cases hslack with
    | glued => exact absurd (hrest '*' (by simp)) (by decide)
    | loose => exact absurd (hrest '\x7b' (by simp)) (by decide)
  | whole hbefore hafter hname =>
    generalize ht : '*' :: _ ++ "as".toList ++ _ ++ _ = t at hslack
    cases hslack with
    | glued hbefore' hname' =>
      simp only [List.cons_append, List.cons.injEq, true_and] at ht
      exact gap_ne_glued hbefore hbefore' hafter hname' ht
    | loose => exact absurd (List.cons.inj ht).1 (by decide)
  | named hne hentries =>
    generalize ht : '\x7b' :: _ ++ ['\x7d'] = t at hslack
    cases hslack with
    | glued => exact absurd (List.cons.inj ht).1 (by decide)
    | loose hentry hbad =>
      obtain rfl := List.append_cancel_right (List.cons.inj ht).2
      rw [hentries _ hentry] at hbad
      cases hbad

end Declare

open Text (trim indent Trimmed)
open Declare (Accepted Promised Slack readBindings)

-- ---------------------------------------------------------------------------
-- Statements
-- ---------------------------------------------------------------------------

/-- What is known of a statement that becomes an import. -/
theorem imported_cases {ctx : Context} {s : Statement} {record : Import} {text : Text}
    (h : lower ctx s = .ok (.imported record text)) :
    ∃ d, Declare.read? (trim s.text) = some d ∧ forbiddenLine? s = none ∧
      readBindings (trim d.bindings) = .ok (record.kind, record.names) ∧
      record.module = Declare.resolveAlias ctx.aliases d.module ∧
      record.external = isExternal record.module ∧
      text = indent s.text ++ record.render ctx.sourceDir := by
  obtain ⟨hallowed, hlowers⟩ := lowers_of_lower h
  cases hlowers with
  | declared _ _ hrecord =>
    unfold Declare.toImport at hrecord
    split at hrecord
    · cases hrecord
    · next d hread =>
      split at hrecord
      · cases hrecord
      · next kind names hbindings =>
        obtain rfl := Except.ok.inj hrecord
        exact ⟨d, hread, hallowed, hbindings, rfl, rfl, rfl⟩

section
variable {s : Statement} {d : Declare} (hread : Declare.read? (trim s.text) = some d)
  (hallowed : forbiddenLine? s = none)
include hread hallowed

/-- A declare statement without the forbidden keyword is lowered by what its bindings are. -/
theorem lower_of_read? (ctx : Context) :
    lower ctx s =
      ((Declare.toImport ctx.aliases (trim s.text)).map fun record =>
        Lowered.imported record (indent s.text ++ record.render ctx.sourceDir)).mapError
          fun fault => .badStatement s.line fault.message := by
  obtain ⟨hmeant, hfunction⟩ := isMeant_of_hasForm ⟨d, Declare.outline_of_read? hread⟩
  have hfull : s.isBlank = false := by
    cases hblank : s.isBlank with
    | false => rfl
    | true =>
      have hnil : trim s.text = [] := by simpa [Statement.isBlank] using hblank
      rw [hnil] at hread
      cases hread
  unfold lower lowerText
  rw [hallowed, hfull, hfunction, hmeant]
  cases Declare.toImport ctx.aliases (trim s.text) <;> rfl

/-- A declaration whose bindings are read becomes an import of them, behind the indentation of the
statement. -/
theorem lower_of_readBindings_ok (ctx : Context) {kind : BindingKind} {names : List Text}
    (h : readBindings (trim d.bindings) = .ok (kind, names)) :
    lower ctx s = .ok (.imported
      (Import.make kind names (Declare.resolveAlias ctx.aliases d.module)) (indent s.text ++
        (Import.make kind names (Declare.resolveAlias ctx.aliases d.module)).render
          ctx.sourceDir)) := by
  rw [lower_of_read? hread hallowed ctx, Declare.toImport, hread]
  dsimp only
  rw [h]
  rfl

/-- A declaration whose bindings are not read fails with the fault of the reader, at the line of the
statement. -/
theorem lower_of_readBindings_error (ctx : Context) {fault : Declare.Fault}
    (h : readBindings (trim d.bindings) = .error fault) :
    lower ctx s = .error (.badStatement s.line fault.message) := by
  rw [lower_of_read? hread hallowed ctx, Declare.toImport, hread]
  dsimp only
  rw [h]
  rfl

end

/-- A declare statement becomes an import exactly if its bindings are accepted and the forbidden
keyword is nowhere in it. -/
theorem exists_imported_iff (ctx : Context) {s : Statement} {d : Declare}
    (hread : Declare.read? (trim s.text) = some d) :
    (∃ record text, lower ctx s = .ok (.imported record text)) ↔
      forbiddenLine? s = none ∧ ∃ kind names, Accepted (trim d.bindings) kind names := by
  constructor
  · rintro ⟨record, text, hlower⟩
    obtain ⟨d', hread', hallowed, hbindings, -⟩ := imported_cases hlower
    rw [hread] at hread'
    obtain rfl := Option.some.inj hread'
    exact ⟨hallowed, _, _,
      Declare.accepted_of_readBindings (Text.trimmed_trim d.bindings) hbindings⟩
  · rintro ⟨hallowed, kind, names, haccepted⟩
    exact ⟨_, _, lower_of_readBindings_ok hread hallowed ctx haccepted.readBindings_eq⟩

/-- A declare statement that does not become an import is refused at its line, or for the forbidden
keyword. -/
theorem refused_of_not_imported (ctx : Context) {s : Statement} {d : Declare}
    (hread : Declare.read? (trim s.text) = some d)
    (h : ¬ ∃ record text, lower ctx s = .ok (.imported record text)) :
    (∃ line, lower ctx s = .error (.forbiddenImport line)) ∨
      ∃ reason, lower ctx s = .error (.badStatement s.line reason) := by
  cases hline : forbiddenLine? s with
  | some line => exact Or.inl ⟨line, lower_eq_forbidden_iff.mpr hline⟩
  | none =>
    cases hbindings : readBindings (trim d.bindings) with
    | error fault => exact Or.inr ⟨_, lower_of_readBindings_error hread hline ctx hbindings⟩
    | ok found =>
      exact absurd ⟨_, _, lower_of_readBindings_ok hread hline ctx hbindings⟩ h

/-- **The bindings of an import are as promised, unless they are slack.** A declare statement
without the forbidden keyword becomes an import if its bindings are promised or slack, and every
other one is refused. -/
theorem import_bindings (ctx : Context) (s : Statement) :
    (∀ record text, lower ctx s = .ok (.imported record text) →
      ∃ d, Declare.read? (trim s.text) = some d ∧
        (Promised (trim d.bindings) record.kind record.names ↔ ¬ Slack (trim d.bindings))) ∧
    (∀ d, Declare.read? (trim s.text) = some d →
      ((∃ record text, lower ctx s = .ok (.imported record text)) ↔
        forbiddenLine? s = none ∧
          ((∃ kind names, Promised (trim d.bindings) kind names) ∨ Slack (trim d.bindings))) ∧
      ((¬ ∃ record text, lower ctx s = .ok (.imported record text)) →
        (∃ line, lower ctx s = .error (.forbiddenImport line)) ∨
          ∃ reason, lower ctx s = .error (.badStatement s.line reason))) := by
  constructor
  · intro record text hlower
    obtain ⟨d, hread, -, hbindings, -⟩ := imported_cases hlower
    have haccepted := Declare.accepted_of_readBindings (Text.trimmed_trim d.bindings) hbindings
    exact ⟨d, hread, Promised.not_slack, haccepted.promised_or_slack.resolve_right⟩
  · intro d hread
    refine ⟨?_, refused_of_not_imported ctx hread⟩
    rw [exists_imported_iff ctx hread]
    refine and_congr_right fun _ => ?_
    constructor
    · rintro ⟨kind, names, haccepted⟩
      exact haccepted.promised_or_slack.imp_left fun hpromised => ⟨kind, names, hpromised⟩
    · rintro (⟨kind, names, hpromised⟩ | hslack)
      · exact ⟨kind, names, hpromised.accepted⟩
      · exact hslack.accepted

/-- A renamed entry, and a comma behind the last one; and a list without entries. -/
theorem import_bindings_lists :
    let ctx : Context := ⟨.ofString "/app", []⟩
    let full : Statement := ⟨"declare \x7b a as b, c, \x7d from 'm'".toList, 1, 1, false⟩
    let empty : Statement := ⟨"declare \x7b , \x7d from 'm'".toList, 4, 1, false⟩
    (∃ d, Declare.read? (trim full.text) = some d ∧
      (Promised (trim d.bindings) .named ["a as b".toList, "c".toList] ↔
        ¬ Slack (trim d.bindings))) ∧
    ((∃ line, lower ctx empty = .error (.forbiddenImport line)) ∨
      ∃ reason, lower ctx empty = .error (.badStatement 4 reason)) := by
  intro ctx full empty
  have hfull : lower ctx full = .ok (.imported
      ⟨.named, ["a as b".toList, "c".toList], "m".toList, true⟩
      "import \x7b a as b, c \x7d from \"m\";".toList) := by decide
  have hempty : ¬ ∃ record text, lower ctx empty = .ok (.imported record text) := by
    have herror : lower ctx empty = .error (.badStatement 4
        "declare needs at least one name".toList) := by decide
    rintro ⟨record, text, hlower⟩
    rw [herror] at hlower
    cases hlower
  have hread : Declare.read? (trim empty.text) =
      some ⟨"declare ".toList, "\x7b , \x7d".toList, "m".toList⟩ := by decide
  exact ⟨(import_bindings ctx full).1 _ _ hfull, ((import_bindings ctx empty).2 _ hread).2 hempty⟩

/-- Two lists on one line are taken for one, with entries that are no names; and the letters `as`
are cut off a longer word. -/
theorem slack_bindings_accepted :
    lower ⟨.ofString "/app", []⟩
        ⟨"declare \x7b a \x7d from \"x\", \x7b b \x7d from \"y\"".toList, 1, 1, false⟩ =
      .ok (.imported ⟨.named, ["a \x7d from \"x\"".toList, "\x7b b".toList], "y".toList, true⟩
        "import \x7b a \x7d from \"x\", \x7b b \x7d from \"y\";".toList) ∧
    Declare.isNameEntry "a \x7d from \"x\"".toList = false ∧
    Declare.isNameEntry "\x7b b".toList = false ∧
    lower ⟨.ofString "/app", []⟩ ⟨"declare * asx from \"y\"".toList, 1, 1, false⟩ =
      .ok (.imported ⟨.whole, ["* as x".toList], "y".toList, true⟩
        "import * as x from \"y\";".toList) ∧
    Slack "* asx".toList := by
  refine ⟨by decide, by decide, by decide, by decide, ?_⟩
  exact @Slack.glued " ".toList "x".toList (by decide) (by decide)

end Sandscript
