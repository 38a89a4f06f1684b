import Mathlib
import Sandscript.Forward
import Sandscript.Proofs.Blanks
import Sandscript.Proofs.Cutting

/-!
# Forwarded output

Output arrives in pieces and is passed on in lines, whatever the pieces are. `relay` is the loop
that does this, with a reader that holds what has arrived and is not passed on yet; `stream` says
the same of the output as a whole. On the way each line is looked at, as text, for the report of an
uncaught error.

* `relay_eq_stream` — a newline ends a line wherever the pieces are cut;
* `writeAll_of_takes`, `exists_refused` — a sink is offered the lines in order, up to the first that
  it refuses;
* `isReport_iff` — a line is a report by the run of word characters that it starts with;
* `relay_lossless` — hence nothing is lost or added, and a report is seen if there is one.
-/

namespace Sandscript

-- ---------------------------------------------------------------------------
-- Sinks
-- ---------------------------------------------------------------------------

namespace Sink

/-- The sink accepts the pieces, one after the other. -/
def Takes (s : Sink) (pieces : List Bytes) : Prop :=
  ∀ before piece after, pieces = before ++ piece :: after →
    s.admits (s.received ++ before) piece = true

/-- The sink after it has accepted pieces. -/
def receive (s : Sink) (pieces : List Bytes) : Sink := { s with received := s.received ++ pieces }

theorem receive_nil (s : Sink) : s.receive [] = s := by
  simp [receive]

theorem receive_receive (s : Sink) (a b : List Bytes) :
    (s.receive a).receive b = s.receive (a ++ b) := by
  simp [receive]

theorem takes_nil (s : Sink) : s.Takes [] := by
  intro before piece after h
  simp at h

/-- A sink takes several pieces if it takes the first, and then the others in the state it is in. -/
theorem takes_cons {s : Sink} {piece : Bytes} {pieces : List Bytes} :
    s.Takes (piece :: pieces) ↔
      s.admits s.received piece = true ∧ (s.receive [piece]).Takes pieces := by
  constructor
  · intro h
    refine ⟨by simpa using h [] piece pieces rfl, fun before next after hsplit => ?_⟩
    have hnext := h (piece :: before) next after (by rw [hsplit]; rfl)
    simpa [receive] using hnext
  · rintro ⟨hfirst, hrest⟩ before next after hsplit
    cases before with
    | nil =>
      obtain ⟨rfl, rfl⟩ := List.cons.inj hsplit
      simpa using hfirst
    | cons first before =>
      obtain ⟨rfl, hbehind⟩ := List.cons.inj hsplit
      simpa [receive] using hrest before next after hbehind

theorem write_of_admits {s : Sink} {piece : Bytes} (hne : piece ≠ [])
    (h : s.admits s.received piece = true) : s.write piece = (true, s.receive [piece]) := by
  unfold write
  rw [if_neg (by simpa using hne), if_pos h]
  rfl

theorem write_of_refuses {s : Sink} {piece : Bytes} (hne : piece ≠ [])
    (h : s.admits s.received piece = false) : s.write piece = (false, s) := by
  unfold write
  rw [if_neg (by simpa using hne), if_neg (by simp [h])]

/-- A sink that accepts every piece has received them all. -/
theorem writeAll_of_takes {s : Sink} {pieces : List Bytes} (hne : ∀ piece ∈ pieces, piece ≠ [])
    (h : s.Takes pieces) : s.writeAll pieces = (true, s.receive pieces) := by
  induction pieces generalizing s with
  | nil => rw [writeAll, receive_nil]
  | cons piece pieces ih =>
    obtain ⟨hfirst, hrest⟩ := takes_cons.mp h
    rw [writeAll, write_of_admits (hne piece (List.mem_cons_self ..)) hfirst]
    dsimp only
    rw [ih (fun p hp => hne p (List.mem_cons_of_mem _ hp)) hrest, receive_receive]
    rfl

/-- A sink that does not accept every piece has received those before the first that it refuses. The
writing stops there, and the pieces behind it are not tried. -/
theorem exists_refused {s : Sink} {pieces : List Bytes} (hne : ∀ piece ∈ pieces, piece ≠ [])
    (h : ¬ s.Takes pieces) :
    ∃ before piece after, pieces = before ++ piece :: after ∧ s.Takes before ∧
      s.admits (s.received ++ before) piece = false ∧
      s.writeAll pieces = (false, s.receive before) := by
  induction pieces generalizing s with
  | nil => exact absurd s.takes_nil h
  | cons piece pieces ih =>
    have hpiece := hne piece (List.mem_cons_self ..)
    cases hfirst : s.admits s.received piece with
    | false =>
      refine ⟨[], piece, pieces, rfl, s.takes_nil, by simpa using hfirst, ?_⟩
      rw [writeAll, write_of_refuses hpiece hfirst, receive_nil]
    | true =>
      have hrest : ¬ (s.receive [piece]).Takes pieces := fun hrest =>
        h (takes_cons.mpr ⟨hfirst, hrest⟩)
      obtain ⟨before, refused, after, rfl, htakes, hrefused, hwrite⟩ :=
        ih (fun p hp => hne p (List.mem_cons_of_mem _ hp)) hrest
      refine ⟨piece :: before, refused, after, rfl, takes_cons.mpr ⟨hfirst, htakes⟩, ?_, ?_⟩
      · simpa [receive] using hrefused
      · rw [writeAll, write_of_admits hpiece hfirst]
        dsimp only
        rw [hwrite, receive_receive]
        rfl

end Sink

namespace Forward

-- ---------------------------------------------------------------------------
-- Reports
-- ---------------------------------------------------------------------------

/-- The word characters that a text starts with, as far as they go. -/
def wordRun (t : Text) : Text := t.takeWhile Text.isWord

/-- A text that starts as the host's report of an uncaught error does: with a word of ASCII letters
that ends in `Error`, with the word `Uncaught`, or in one of two fixed ways. -/
def OpensReport (t : Text) : Prop :=
  ((∀ c ∈ wordRun t, c.isAlpha = true) ∧ "Error".toList <:+ wordRun t) ∨
  wordRun t = "Uncaught".toList ∨
  "node:internal".toList <+: t ∨
  "(Use `node --trace-uncaught".toList <+: t

theorem endsWord_iff {next : Option Char} :
    Text.endsWord next = true ↔ ∀ c, next = some c → Text.isWord c = false := by
  cases next with
  | none => simp [Text.endsWord]
  | some c => simp [Text.endsWord]

theorem wordRun_append {word rest : Text} (hword : ∀ c ∈ word, Text.isWord c = true)
    (hrest : Text.endsWord rest.head? = true) : wordRun (word ++ rest) = word :=
  Text.takeWhile_append_of_head? hword (endsWord_iff.mp hrest)

/-- Behind its first word characters a text goes on with something else, if it goes on. -/
theorem exists_wordRun (t : Text) :
    ∃ rest, t = wordRun t ++ rest ∧ Text.endsWord rest.head? = true := by
  refine ⟨t.dropWhile Text.isWord, List.takeWhile_append_dropWhile.symm, endsWord_iff.mpr ?_⟩
  intro c hc
  have hhead := List.head?_dropWhile_not Text.isWord t
  rw [hc] at hhead
  simpa using hhead

theorem isWord_of_isAlpha {c : Char} (h : c.isAlpha = true) : Text.isWord c = true :=
  Text.isWord_of_isAlphanum (by unfold Char.isAlphanum; rw [h, Bool.true_or])

theorem isAlpha_of_mem_errorName {letters : Text} (h : ∀ c ∈ letters, c.isAlpha = true) :
    ∀ c ∈ letters ++ "Error".toList, c.isAlpha = true := by
  intro c hc
  rcases List.mem_append.mp hc with hc | hc
  · exact h c hc
  · exact List.all_eq_true.mp (by decide : "Error".toList.all Char.isAlpha = true) c hc

/-- The name of an error as a pattern finds it: letters, `Error`, and no word character behind. The
test looks at the first word of the text as a whole, which amounts to the same. -/
theorem startsWithErrorName_iff {t : Text} :
    startsWithErrorName t = true ↔ ∃ letters rest, t = letters ++ "Error".toList ++ rest ∧
      (∀ c ∈ letters, c.isAlpha = true) ∧ Text.endsWord rest.head? = true := by
  unfold startsWithErrorName Text.closes
  rw [Bool.and_eq_true, List.isSuffixOf_iff_suffix]
  constructor
  · rintro ⟨⟨letters, hletters⟩, hend⟩
    refine ⟨letters, t.dropWhile Char.isAlpha, ?_, fun c hc => ?_, hend⟩
    · rw [hletters, List.takeWhile_append_dropWhile]
    · have hin : c ∈ t.takeWhile Char.isAlpha := hletters ▸ List.mem_append_left _ hc
      exact List.mem_takeWhile_imp hin
  · rintro ⟨letters, rest, rfl, hletters, hend⟩
    have hname := isAlpha_of_mem_errorName hletters
    have hrest : ∀ c, rest.head? = some c → c.isAlpha = false := by
      intro c hc
      have hword := endsWord_iff.mp hend c hc
      rw [← Bool.not_eq_true]
      intro halpha
      rw [isWord_of_isAlpha halpha] at hword
      exact Bool.noConfusion hword
    rw [Text.takeWhile_append_of_head? hname hrest, Text.dropWhile_append_of_head? hname hrest]
    exact ⟨List.suffix_append .., hend⟩

/-- A text starts with the name of an error exactly if its first word is made of letters and ends
with `Error`. -/
theorem exists_errorName_iff {t : Text} :
    (∃ letters rest, t = letters ++ "Error".toList ++ rest ∧
      (∀ c ∈ letters, c.isAlpha = true) ∧ Text.endsWord rest.head? = true) ↔
    (∀ c ∈ wordRun t, c.isAlpha = true) ∧ "Error".toList <:+ wordRun t := by
  constructor
  · rintro ⟨letters, rest, rfl, hletters, hend⟩
    have hname := isAlpha_of_mem_errorName hletters
    rw [wordRun_append (fun c hc => isWord_of_isAlpha (hname c hc)) hend]
    exact ⟨hname, List.suffix_append ..⟩
  · rintro ⟨halpha, letters, hletters⟩
    obtain ⟨rest, ht, hend⟩ := exists_wordRun t
    refine ⟨letters, rest, by rw [hletters, ← ht], fun c hc => ?_, hend⟩
    exact halpha c (hletters ▸ List.mem_append_left _ hc)

/-- A text starts with a word exactly if this is the first word as a whole. -/
theorem startsWithWord_iff {word t : Text} (hword : ∀ c ∈ word, Text.isWord c = true) :
    startsWithWord word t = true ↔ wordRun t = word := by
  unfold startsWithWord
  constructor
  · intro h
    split at h
    · next rest hrest =>
      obtain rfl := List.isPrefixOf?_eq_some_iff_append_eq.mp hrest
      exact wordRun_append hword h
    · exact absurd h Bool.false_ne_true
  · rintro rfl
    obtain ⟨rest, ht, hend⟩ := exists_wordRun t
    have hrest : (wordRun t).isPrefixOf? t = some rest :=
      List.isPrefixOf?_eq_some_iff_append_eq.mpr ht.symm
    rw [hrest]
    exact hend

/-- A line is a report by what it starts with. -/
theorem isReport_iff {t : Text} : isReport t = true ↔ OpensReport t := by
  have huncaught : ∀ c ∈ "Uncaught".toList, Text.isWord c = true :=
    List.all_eq_true.mp (by decide)
  unfold isReport OpensReport Text.opens
  rw [Bool.or_eq_true, Bool.or_eq_true, Bool.or_eq_true, startsWithErrorName_iff,
    exists_errorName_iff, startsWithWord_iff huncaught, List.isPrefixOf_iff_prefix,
    List.isPrefixOf_iff_prefix, or_assoc, or_assoc]

-- ---------------------------------------------------------------------------
-- Lines
-- ---------------------------------------------------------------------------

/-- The byte that ends a line. -/
def newline : UInt8 := 0x0A

/-- How output is cut into lines: nothing is left out, and every line goes on to its newline. Only
the last one may have none, and then it is not empty. -/
structure CutInto (bytes : Bytes) (ls : List Bytes) : Prop where
  whole : ls.flatten = bytes
  ended : ∀ l ∈ ls.dropLast, ∃ body, l = body ++ [newline] ∧ newline ∉ body
  last : ∀ l ∈ ls.getLast?, ∃ body, newline ∉ body ∧ (l = body ++ [newline] ∨ l = body ∧ l ≠ [])

/-- The first line ends at the first newline and keeps it. -/
theorem lines_of_ended {body : Bytes} (h : newline ∉ body) (rest : Bytes) :
    lines (body ++ newline :: rest) = (body ++ [newline]) :: lines rest := by
  induction body with
  | nil => simp [lines, newline]
  | cons b body ih =>
    rw [List.mem_cons, not_or] at h
    have hb : ¬ b = 0x0A := Ne.symm h.1
    rw [List.cons_append, lines, if_neg hb, ih h.2]
    rfl

/-- A last line without a newline is a line too. -/
theorem lines_of_open {body : Bytes} (h : newline ∉ body) (hne : body ≠ []) :
    lines body = [body] := by
  induction body with
  | nil => exact absurd rfl hne
  | cons b body ih =>
    rw [List.mem_cons, not_or] at h
    have hb : ¬ b = 0x0A := Ne.symm h.1
    rw [lines, if_neg hb]
    by_cases hnil : body = []
    · rw [hnil]
      rfl
    · rw [ih h.2 hnil]

/-- Output is empty, a last line without a newline, or a line and more output. -/
theorem lines_cases (bytes : Bytes) :
    (bytes = [] ∧ lines bytes = []) ∨
    (bytes ≠ [] ∧ newline ∉ bytes ∧ lines bytes = [bytes]) ∨
    ∃ body rest, bytes = body ++ newline :: rest ∧ newline ∉ body ∧
      lines bytes = (body ++ [newline]) :: lines rest := by
  by_cases hnl : newline ∈ bytes
  · obtain ⟨body, rest, rfl, hbody⟩ := List.eq_append_cons_of_mem hnl
    exact Or.inr (Or.inr ⟨body, rest, rfl, hbody, lines_of_ended hbody rest⟩)
  · by_cases hnil : bytes = []
    · exact Or.inl ⟨hnil, by rw [hnil, lines]⟩
    · exact Or.inr (Or.inl ⟨hnil, hnl, lines_of_open hnl hnil⟩)

/-- The lines of an output are a cut of it: each ends with its only newline, except that the last
one may have none. By induction on the number of bytes, one line at a time. -/
theorem cutInto_lines (bytes : Bytes) : CutInto bytes (lines bytes) := by
  induction hlength : bytes.length using Nat.strongRecOn generalizing bytes with
  | _ length ih =>
    rcases lines_cases bytes with ⟨rfl, hlines⟩ | ⟨hne, hnl, hlines⟩ |
      ⟨body, rest, rfl, hbody, hlines⟩
    · rw [hlines]
      exact ⟨rfl, by simp, by simp⟩
    · rw [hlines]
      refine ⟨by simp, by simp, fun l hl => ⟨bytes, hnl, Or.inr ?_⟩⟩
      obtain rfl : bytes = l := by simpa using hl
      exact ⟨rfl, hne⟩
    · -- a first line with its newline, and the lines of the rest by induction
      obtain ⟨hwhole, hended, hlast⟩ := ih rest.length (by simp at hlength; omega) rest rfl
      rw [hlines]
      refine ⟨by simp [hwhole], fun l hl => ?_, fun l hl => ?_⟩
      · cases hrest : lines rest with
        | nil => simp [hrest] at hl
        | cons next more =>
          rw [hrest, List.dropLast_cons_cons, List.mem_cons] at hl
          rcases hl with rfl | hl
          · exact ⟨body, rfl, hbody⟩
          · exact hended l (hrest ▸ hl)
      · cases hrest : lines rest with
        | nil =>
          obtain rfl : body ++ [newline] = l := by simpa [hrest] using hl
          exact ⟨body, hbody, Or.inl rfl⟩
        | cons next more =>
          rw [hrest, List.getLast?_cons_cons, ← hrest] at hl
          exact hlast l hl

/-- No line is empty. -/
theorem CutInto.ne_nil {bytes : Bytes} {ls : List Bytes} (h : CutInto bytes ls) :
    ∀ l ∈ ls, l ≠ [] := by
  intro l hl
  have hends : l ∈ ls.dropLast ∨ l ∈ ls.getLast? := by
    obtain ⟨init, last, rfl⟩ := (List.eq_nil_or_concat ls).resolve_left (List.ne_nil_of_mem hl)
    simpa [eq_comm] using hl
  rcases hends with hl | hl
  · obtain ⟨body, rfl, -⟩ := h.ended l hl
    simp
  · obtain ⟨body, -, rfl | ⟨-, hne⟩⟩ := h.last l hl
    · simp
    · exact hne

-- ---------------------------------------------------------------------------
-- Reading in pieces
-- ---------------------------------------------------------------------------

/-- A piece of output as it arrives. None is empty: that would be the end of the output. -/
structure Chunk where
  bytes : Bytes
  nonempty : bytes ≠ []

/-- Output that is being read: what has arrived, and the pieces that are still to come. -/
structure Reader where
  buffer : Bytes
  pending : List Chunk

/-- Everything that is left to be read. -/
def Reader.bytes (r : Reader) : Bytes := r.buffer ++ r.pending.flatMap Chunk.bytes

/-- Cuts bytes behind their first newline, if there is one. -/
def cut? : Bytes → Option (Bytes × Bytes)
  | [] => none
  | b :: rest => if b = newline then some ([b], rest) else (cut? rest).map (·.map (b :: ·) id)

/-- Reads up to the next newline, which is included. Pieces are fetched as long as there is none,
and the last line ends with the output. -/
def readLine (buffer : Bytes) (pending : List Chunk) : Bytes × Reader :=
  match cut? buffer with
  | some (l, rest) => (l, ⟨rest, pending⟩)
  | none =>
    match pending with
    | [] => (buffer, ⟨[], []⟩)
    | c :: cs => (readLine c.bytes cs).map (buffer ++ ·) id

/-- A cut gives the first line with its newline, and the rest. The body of the line holds no
newline, so that it is the first one at which the cut is made. -/
theorem cut?_eq_some {bytes l rest : Bytes} (h : cut? bytes = some (l, rest)) :
    ∃ body, l = body ++ [newline] ∧ newline ∉ body ∧ bytes = l ++ rest := by
  induction bytes generalizing l with
  | nil => simp [cut?] at h
  | cons b bytes ih =>
    rw [cut?] at h
    split at h
    · next hb =>
      obtain ⟨rfl, rfl⟩ := Prod.mk.inj (Option.some.inj h)
      exact ⟨[], by rw [hb]; rfl, by simp, rfl⟩
    · next hb =>
      obtain ⟨⟨l', rest'⟩, hcut, hmap⟩ := Option.map_eq_some_iff.mp h
      obtain ⟨rfl, rfl⟩ := Prod.mk.inj hmap
      obtain ⟨body, rfl, hbody, rfl⟩ := ih hcut
      refine ⟨b :: body, rfl, ?_, rfl⟩
      rw [List.mem_cons, not_or]
      exact ⟨Ne.symm hb, hbody⟩

/-- If there is nothing to cut, there is no newline. -/
theorem cut?_eq_none {bytes : Bytes} (h : cut? bytes = none) : newline ∉ bytes := by
  induction bytes with
  | nil => simp
  | cons b bytes ih =>
    rw [cut?] at h
    split at h
    · simp at h
    · next hb =>
      rw [List.mem_cons, not_or]
      exact ⟨Ne.symm hb, ih (Option.map_eq_none_iff.mp h)⟩

/-- What is read and what is left are what was there, and what is read is a line: either nothing is
left and it holds no newline, or it ends with its only one. -/
theorem readLine_spec (buffer : Bytes) (pending : List Chunk) :
    buffer ++ pending.flatMap Chunk.bytes =
      (readLine buffer pending).1 ++ (readLine buffer pending).2.bytes ∧
    ((readLine buffer pending).2.bytes = [] ∧ newline ∉ (readLine buffer pending).1 ∨
      ∃ body, (readLine buffer pending).1 = body ++ [newline] ∧ newline ∉ body) := by
  induction pending generalizing buffer with
  | nil =>
    rw [readLine]
    cases hcut : cut? buffer with
    | none => simpa [Reader.bytes] using Or.inl (cut?_eq_none hcut)
    | some found =>
      obtain ⟨body, hline, hbody, hbuffer⟩ := cut?_eq_some hcut
      exact ⟨by simp [Reader.bytes, hbuffer], Or.inr ⟨body, hline, hbody⟩⟩
  | cons c cs ih =>
    rw [readLine]
    cases hcut : cut? buffer with
    | none =>
      -- the line goes on in the next piece
      obtain ⟨hwhole, hline⟩ := ih c.bytes
      refine ⟨by simpa using hwhole, ?_⟩
      rcases hline with ⟨hnil, hnl⟩ | ⟨body, hbody, hnl⟩
      · exact Or.inl ⟨hnil, by simp [cut?_eq_none hcut, hnl]⟩
      · refine Or.inr ⟨buffer ++ body, by simp [hbody], ?_⟩
        simp [cut?_eq_none hcut, hnl]
    | some found =>
      obtain ⟨body, hline, hbody, hbuffer⟩ := cut?_eq_some hcut
      exact ⟨by simp [Reader.bytes, hbuffer], Or.inr ⟨body, hline, hbody⟩⟩

namespace Reader

/-- Reads the next line. -/
def next (r : Reader) : Bytes × Reader := readLine r.buffer r.pending

theorem bytes_next (r : Reader) : r.bytes = r.next.1 ++ r.next.2.bytes :=
  (readLine_spec r.buffer r.pending).1

/-- The next line is the first of the lines, and the lines of what is left are the others. -/
theorem lines_of_next {r : Reader} (h : r.next.1 ≠ []) :
    lines r.bytes = r.next.1 :: lines r.next.2.bytes := by
  rcases (readLine_spec r.buffer r.pending).2 with ⟨hnil, hnl⟩ | ⟨body, hbody, hnl⟩
  · have hopen : newline ∉ r.next.1 := hnl
    rw [bytes_next, show r.next.2.bytes = [] from hnil, List.append_nil, lines_of_open hopen h]
    rfl
  · rw [bytes_next, show r.next.1 = body ++ [newline] from hbody, List.append_assoc,
      List.singleton_append, lines_of_ended hnl]

theorem bytes_of_next_nil {r : Reader} (h : r.next.1 = []) : r.bytes = [] := by
  rcases (readLine_spec r.buffer r.pending).2 with ⟨hnil, -⟩ | ⟨body, hbody, -⟩
  · rw [bytes_next, h, show r.next.2.bytes = [] from hnil]
    rfl
  · exact absurd (hbody.symm.trans h) (by simp)

end Reader

/-- Passes on what is read, line by line, where a report may have been seen before. -/
def relayFrom (reported : Bool) (sink : Sink) (r : Reader) : Outcome × Sink :=
  if r.next.1 = [] then (⟨reported, false⟩, sink)
  else
    match sink.write r.next.1 with
    | (true, sink) => relayFrom (reported || isReport (Utf8.decodeLossy r.next.1)) sink r.next.2
    | (false, sink) => (⟨false, true⟩, sink)
termination_by r.bytes.length
decreasing_by
  have hlength := congrArg List.length r.bytes_next
  have hpos := List.length_pos_iff.mpr ‹¬ r.next.1 = []›
  rw [List.length_append] at hlength
  omega

/-- Passes on output that arrives in pieces. -/
def relay (sink : Sink) (chunks : List Chunk) : Outcome × Sink := relayFrom false sink ⟨[], chunks⟩

/-- The loop over a reader does what is said of the lines of the whole output, however the output
was cut into chunks. By induction on the number of bytes that are left, since each line that is read
makes them fewer. -/
theorem relayFrom_eq_pass (reported : Bool) (sink : Sink) (r : Reader) :
    relayFrom reported sink r = pass reported sink (lines r.bytes) := by
  induction hlength : r.bytes.length using Nat.strongRecOn generalizing reported sink r with
  | _ length ih =>
    rw [relayFrom]
    split
    · next hnil => rw [Reader.bytes_of_next_nil hnil, lines, pass]
    · next hne =>
      have hshorter := congrArg List.length r.bytes_next
      have hpos := List.length_pos_iff.mpr hne
      rw [List.length_append] at hshorter
      rw [Reader.lines_of_next hne, pass]
      rcases sink.write r.next.1 with ⟨_ | _, sink'⟩
      · rfl
      · exact ih _ (by omega) _ _ _ rfl

/-- A newline ends a line wherever the pieces are cut. -/
theorem relay_eq_stream (sink : Sink) (chunks : List Chunk) :
    relay sink chunks = stream sink (chunks.flatMap Chunk.bytes) :=
  relayFrom_eq_pass false sink ⟨[], chunks⟩

-- ---------------------------------------------------------------------------
-- The whole output
-- ---------------------------------------------------------------------------

/-- A line of a stream reports an uncaught error. -/
def reports (bytes : Bytes) : Bool := (lines bytes).any fun l => isReport (Utf8.decodeLossy l)

/-- Passing lines on, said at once: the lines are written until one is refused, and the report
counts only if none is. -/
theorem pass_eq (reported : Bool) (sink : Sink) (ls : List Bytes) :
    pass reported sink ls =
      (if (sink.writeAll ls).1 then
        ⟨reported || ls.any fun l => isReport (Utf8.decodeLossy l), false⟩
      else ⟨false, true⟩, (sink.writeAll ls).2) := by
  induction ls generalizing reported sink with
  | nil => simp [pass, Sink.writeAll]
  | cons l ls ih =>
    rw [pass, Sink.writeAll]
    rcases sink.write l with ⟨_ | _, sink'⟩
    · rfl
    · dsimp only
      rw [ih, List.any_cons, Bool.or_assoc]

/-- A report counts if it was written and every line was taken. -/
theorem stream_eq (sink : Sink) (bytes : Bytes) :
    stream sink bytes =
      (if (sink.writeAll (lines bytes)).1 then ⟨reports bytes, false⟩ else ⟨false, true⟩,
        (sink.writeAll (lines bytes)).2) := by
  unfold stream
  rw [pass_eq, Bool.false_or, reports]

/-- An output reports an error exactly if one of its lines opens a report. -/
theorem reports_iff {bytes : Bytes} :
    reports bytes = true ↔ ∃ l ∈ lines bytes, OpensReport (Utf8.decodeLossy l) := by
  unfold reports
  rw [List.any_eq_true]
  exact exists_congr fun l => and_congr_right fun _ => isReport_iff

/-- **Forwarding loses nothing and adds nothing.** Output is cut into its lines however it arrives.
A sink that takes every line receives each of them as one piece, and a report is seen exactly if a
line, read as text, starts as one. A sink that does not has received the lines before the first one
that it refuses, and forwarding has failed. -/
theorem relay_lossless (sink : Sink) (chunks : List Chunk) (bytes : Bytes)
    (harrived : chunks.flatMap Chunk.bytes = bytes) :
    relay sink chunks = stream sink bytes ∧
    CutInto bytes (lines bytes) ∧
    (sink.Takes (lines bytes) →
      (relay sink chunks).2 = sink.receive (lines bytes) ∧
      (relay sink chunks).1.lost = false ∧
      ((relay sink chunks).1.reported = true ↔
        ∃ l ∈ lines bytes, OpensReport (Utf8.decodeLossy l))) ∧
    (¬ sink.Takes (lines bytes) →
      (relay sink chunks).1.lost = true ∧
      ∃ before refused after, lines bytes = before ++ refused :: after ∧ sink.Takes before ∧
        sink.admits (sink.received ++ before) refused = false ∧
        (relay sink chunks).2 = sink.receive before) := by
  have hcut := cutInto_lines bytes
  have hrelay : relay sink chunks = stream sink bytes := by rw [relay_eq_stream, harrived]
  refine ⟨hrelay, hcut, fun htakes => ?_, fun hrefuses => ?_⟩
  · have hwrite := Sink.writeAll_of_takes hcut.ne_nil htakes
    rw [hrelay, stream_eq, hwrite]
    exact ⟨rfl, rfl, reports_iff⟩
  · obtain ⟨before, refused, after, hlines, htakes, hrefused, hwrite⟩ :=
      Sink.exists_refused hcut.ne_nil hrefuses
    rw [hrelay, stream_eq, hwrite]
    exact ⟨rfl, before, refused, after, hlines, htakes, hrefused, rfl⟩

/-- A report that is cut inside its name and inside a character, and a last line that is no text:
passed on to a sink that takes both lines, and to one that has room for the report only. -/
theorem relay_lossless_cut_report :
    let line : Bytes :=
      [0x54, 0x79, 0x70, 0x65, 0x45, 0x72, 0x72, 0x6F, 0x72, 0x3A, 0xC3, 0xA9, 0x0A]
    let chunks : List Chunk := [⟨[0x54, 0x79, 0x70, 0x65], by simp⟩,
      ⟨[0x45, 0x72, 0x72, 0x6F, 0x72, 0x3A, 0xC3], by simp⟩, ⟨[0xA9, 0x0A, 0xFF], by simp⟩]
    (relay .unbounded chunks).2.received = [line, [0xFF]] ∧
    (relay .unbounded chunks).1.reported = true ∧
    (relay (.bounded 13) chunks).1.lost = true := by
  intro line chunks
  have hlines : lines (line ++ [0xFF]) = [line, [0xFF]] := by decide
  have htext : Utf8.decodeLossy line = "TypeError:é\n".toList := by decide +kernel
  obtain ⟨-, -, htaken, -⟩ := relay_lossless .unbounded chunks (line ++ [0xFF]) rfl
  obtain ⟨-, -, -, hrefused⟩ := relay_lossless (.bounded 13) chunks (line ++ [0xFF]) rfl
  obtain ⟨hreceived, -, hreported⟩ := htaken fun _ _ _ _ => rfl
  refine ⟨?_, hreported.mpr ⟨line, ?_, Or.inl ?_⟩, (hrefused fun htakes => ?_).1⟩
  · rw [hreceived, hlines]
    rfl
  · rw [hlines]
    exact List.mem_cons_self ..
  · rw [htext]
    exact ⟨List.all_eq_true.mp (by decide), by decide⟩
  · exact absurd (htakes [line] [0xFF] [] hlines) (by decide)

end Forward

end Sandscript
