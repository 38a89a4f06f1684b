import Sandscript.Shell.Pattern

/-!
# Basic regular expressions

The expressions of the line tools: characters, `.`, sets, `*`, groups that can be referred back to,
and anchors. A match is looked for from the left; repetitions take as much as they can and give back
what the rest needs.
-/

namespace Sandscript

namespace Shell

/-- A piece of a regular expression. -/
inductive Regex where
  | one (c : Char)
  | any
  | set (negated : Bool) (members : List Member)
  | start
  | finish
  | group (index : Nat) (body : List Regex)
  | back (index : Nat)
  | repeated (body : Regex) (least : Nat) (most : Option Nat)

/-- A text position during a match: what is left, whether the front of the line is here, and the
texts of the groups. -/
structure Match where
  rest : Text
  atStart : Bool
  groups : List (Nat × Text)

/-- The match after the next `n` characters. -/
def Match.advance (m : Match) (n : Nat) : Match :=
  { m with rest := m.rest.drop n, atStart := m.atStart && n == 0 }

-- ---------------------------------------------------------------------------
-- Reading
-- ---------------------------------------------------------------------------

/-- Puts a repetition on the last piece. -/
def repeatLast (done : List Regex) (least : Nat) (most : Option Nat) : List Regex :=
  match done.reverse with
  | [] => [.one '*']
  | last :: before => before.reverse ++ [.repeated last least most]

/-- Reads pieces up to the end or the end of a group, which is taken; `count` groups were opened
before. -/
def readRegex (count : Nat) (done : List Regex) (t : Text) : Nat → List Regex × Nat × Text
  | 0 => (done, count, [])
  | fuel + 1 =>
    match t with
    | [] => (done, count, [])
    | '\\' :: '(' :: rest =>
      let (body, opened, rest) := readRegex (count + 1) [] rest fuel
      readRegex opened (done ++ [.group (count + 1) body]) rest fuel
    | '\\' :: ')' :: rest => (done, count, rest)
    | '\\' :: '+' :: rest => readRegex count (repeatLast done 1 none) rest fuel
    | '\\' :: '?' :: rest => readRegex count (repeatLast done 0 (some 1)) rest fuel
    | '\\' :: c :: rest =>
      let piece := if c.isDigit && c != '0' then .back (c.toNat - '0'.toNat)
        else if c = 'n' then .one '\n' else .one c
      readRegex count (done ++ [piece]) rest fuel
    | '*' :: rest =>
      if done.isEmpty then readRegex count [.one '*'] rest fuel
      else readRegex count (repeatLast done 0 none) rest fuel
    | '.' :: rest => readRegex count (done ++ [.any]) rest fuel
    | '^' :: rest =>
      readRegex count (done ++ [if done.isEmpty then .start else .one '^']) rest fuel
    | '$' :: rest =>
      let last := rest.isEmpty || Text.opens "\\)".toList rest
      readRegex count (done ++ [if last then .finish else .one '$']) rest fuel
    | '[' :: rest =>
      match readSet? ['^'] rest with
      | some (negated, members, rest) => readRegex count (done ++ [.set negated members]) rest fuel
      | none => readRegex count (done ++ [.one '[']) rest fuel
    | c :: rest => readRegex count (done ++ [.one c]) rest fuel

/-- The expression that a text writes. -/
def toRegex (t : Text) : List Regex := (readRegex 0 [] t (t.length + 1)).1

-- ---------------------------------------------------------------------------
-- Matching
-- ---------------------------------------------------------------------------

mutual

/-- Matches pieces in order and hands the match on. -/
def matchAll (rs : List Regex) (m : Match) (k : Match → Option Match) : Nat → Option Match
  | 0 => none
  | fuel + 1 =>
    match rs with
    | [] => k m
    | r :: rs => matchOne r m (fun m => matchAll rs m k fuel) fuel

/-- Matches one piece and hands the match on. -/
def matchOne (r : Regex) (m : Match) (k : Match → Option Match) : Nat → Option Match
  | 0 => none
  | fuel + 1 =>
    match r with
    | .one c => if m.rest.head? = some c then k (m.advance 1) else none
    | .any => if m.rest.isEmpty then none else k (m.advance 1)
    | .set negated members =>
      match m.rest with
      | c :: _ => if members.any (·.has c) != negated then k (m.advance 1) else none
      | [] => none
    | .start => if m.atStart then k m else none
    | .finish => if m.rest.isEmpty then k m else none
    | .group index body =>
      matchAll body m (fun after =>
        let taken := m.rest.take (m.rest.length - after.rest.length)
        k { after with groups := (index, taken) :: after.groups }) fuel
    | .back index =>
      match m.groups.lookup index with
      | some t => if Text.opens t m.rest then k (m.advance t.length) else none
      | none => none
    | .repeated body least most => matchMany body least most m k fuel

/-- Matches a piece as often as it can be, and less often if the rest needs it. -/
def matchMany (body : Regex) (least : Nat) (most : Option Nat) (m : Match)
    (k : Match → Option Match) : Nat → Option Match
  | 0 => none
  | fuel + 1 =>
    let more := if most = some 0 then none else
      matchOne body m (fun after =>
        if after.rest.length < m.rest.length then
          matchMany body (least - 1) (most.map (· - 1)) after k fuel
        else none) fuel
    match more with
    | some found => some found
    | none => if least = 0 then k m else none

end

/-- The match at the front of a text, if there is one. -/
def matchHere (rs : List Regex) (atStart : Bool) (t : Text) : Option Match :=
  matchAll rs ⟨t, atStart, []⟩ some (4 * t.length + 4 * rs.length + 64)

/-- The first match in a text: what stands before it, what it covers, and what was found. -/
def findMatch (rs : List Regex) (atStart : Bool) (before : Text) :
    Text → Option (Text × Text × Match)
  | [] => (matchHere rs atStart []).map fun m => (before, [], m)
  | c :: t =>
    match matchHere rs atStart (c :: t) with
    | some m => some (before, (c :: t).take (t.length + 1 - m.rest.length), m)
    | none => findMatch rs false (before ++ [c]) t

/-- An expression matches somewhere in a line. -/
def matchesIn (rs : List Regex) (line : Text) : Bool := (findMatch rs true [] line).isSome

-- ---------------------------------------------------------------------------
-- Replacing
-- ---------------------------------------------------------------------------

/-- The text that a replacement stands for. -/
def expandReplacement (covered : Text) (groups : List (Nat × Text)) : Text → Text
  | [] => []
  | '&' :: t => covered ++ expandReplacement covered groups t
  | '\\' :: 'n' :: t => '\n' :: expandReplacement covered groups t
  | '\\' :: c :: t =>
    (if c = '0' then covered
      else if c.isDigit then (groups.lookup (c.toNat - '0'.toNat)).getD [] else [c]) ++
      expandReplacement covered groups t
  | c :: t => c :: expandReplacement covered groups t

/-- Replaces the first match, or all, in what is left of a line; nothing if there is none. -/
def replace (rs : List Regex) (replacement : Text) (all atStart : Bool) (t : Text) :
    Nat → Option Text
  | 0 => none
  | fuel + 1 =>
    match findMatch rs atStart [] t with
    | none => none
    | some (before, covered, m) =>
      let text := before ++ expandReplacement covered m.groups replacement
      if !all then some (text ++ m.rest)
      else match covered, m.rest with
        | [], [] => some text
        | [], c :: rest =>
          some (text ++ [c] ++ ((replace rs replacement all false rest fuel).getD rest))
        | _, rest => some (text ++ ((replace rs replacement all false rest fuel).getD rest))

end Shell

end Sandscript
