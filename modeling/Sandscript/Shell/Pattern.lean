import Sandscript.Text.Basic

/-!
# Patterns of names

A pattern stands for a set of texts: `*` for any text, `?` for any character, brackets for one
character of a set, and any other character for itself. A character that was quoted stands for
itself in any case, so a pattern is a list of characters, each with a mark that says whether it was.
-/

namespace Sandscript

namespace Shell

/-- A text whose characters are marked as quoted or not. -/
abbrev Marked := List (Char × Bool)

/-- A text that is quoted throughout, or not at all. -/
def mark (quoted : Bool) (t : Text) : Marked := t.map (·, quoted)

/-- The text without its marks. -/
def unmark (m : Marked) : Text := m.map (·.1)

/-- A member of a set of characters. -/
inductive Member where
  | one (c : Char)
  | range (low high : Char)
  | named (name : Text)
deriving DecidableEq, Repr

/-- Named sets of characters. -/
def inClass (name : Text) (c : Char) : Bool :=
  match String.ofList name with
  | "alpha" => c.isAlpha
  | "digit" => c.isDigit
  | "alnum" => c.isAlphanum
  | "upper" => c.isUpper
  | "lower" => c.isLower
  | "space" => Text.isBlank c && c.toNat < 0x80
  | "blank" => c == ' ' || c == '\t'
  | "punct" => 0x20 < c.toNat && c.toNat < 0x7F && !c.isAlphanum
  | _ => false

/-- A character belongs to a member. -/
def Member.has (c : Char) : Member → Bool
  | one x => c == x
  | range low high => low ≤ c && c ≤ high
  | named name => inClass name c

/-- Reads the members of a set up to its closing bracket, which is taken; `first` says that a
closing bracket here is a member. -/
def readMembers (first : Bool) : Text → Nat → Option (List Member × Text)
  | _, 0 => none
  | t, fuel + 1 =>
    match t with
    | [] => none
    | ']' :: rest =>
      if first then (readMembers false rest fuel).map fun (ms, rest) => (.one ']' :: ms, rest)
      else some ([], rest)
    | '[' :: ':' :: rest =>
      let name := rest.takeWhile (· != ':')
      match rest.drop name.length with
      | ':' :: ']' :: rest =>
        (readMembers false rest fuel).map fun (ms, rest) => (.named name :: ms, rest)
      | _ => none
    | c :: '-' :: d :: rest =>
      if d = ']' then
        (readMembers false ('-' :: d :: rest) fuel).map fun (ms, rest) => (.one c :: ms, rest)
      else (readMembers false rest fuel).map fun (ms, rest) => (.range c d :: ms, rest)
    | c :: rest => (readMembers false rest fuel).map fun (ms, rest) => (.one c :: ms, rest)

/-- A set of characters after its opening bracket: whether it is negated, its members, and the rest.
-/
def readSet? (negations : List Char) (t : Text) : Option (Bool × List Member × Text) :=
  let negated := match t with
    | c :: _ => negations.contains c
    | [] => false
  let t := if negated then t.drop 1 else t
  (readMembers true t (t.length + 1)).map fun (ms, rest) => (negated, ms, rest)

/-- A piece of a pattern. -/
inductive Glob where
  | any
  | anyChar
  | one (c : Char)
  | set (negated : Bool) (members : List Member)
deriving DecidableEq, Repr

/-- The pieces of a marked text. -/
def readGlob (m : Marked) : Nat → List Glob
  | 0 => []
  | fuel + 1 =>
    match m with
    | [] => []
    | (c, quoted) :: rest =>
      if quoted then .one c :: readGlob rest fuel
      else if c = '*' then .any :: readGlob rest fuel
      else if c = '?' then .anyChar :: readGlob rest fuel
      else if c = '[' then
        match readSet? ['!', '^'] (unmark rest) with
        | some (negated, members, after) =>
          .set negated members :: readGlob (rest.drop (rest.length - after.length)) fuel
        | none => .one c :: readGlob rest fuel
      else .one c :: readGlob rest fuel

/-- The pattern of a marked text. -/
def toGlob (m : Marked) : List Glob := readGlob m (m.length + 1)

/-- A marked text that is more than a text. -/
def isPattern (m : Marked) : Bool := (toGlob m).any fun
  | .one _ => false
  | _ => true

/-- A pattern stands for a text. -/
def globMatches : List Glob → Text → Bool
  | [], t => t.isEmpty
  | .any :: gs, [] => globMatches gs []
  | .any :: gs, c :: t => globMatches gs (c :: t) || globMatches (.any :: gs) t
  | .anyChar :: gs, _ :: t => globMatches gs t
  | .one x :: gs, c :: t => x == c && globMatches gs t
  | .set negated members :: gs, c :: t =>
    (members.any (·.has c) != negated) && globMatches gs t
  | _ :: _, [] => false
termination_by gs t => gs.length + t.length

/-- The value without the part, at its start or end, that a pattern stands for: the longest such
part or the shortest. -/
def cutMatching (atEnd longest : Bool) (gs : List Glob) (t : Text) : Text :=
  -- the lengths of what is kept, in order of preference
  let lengths := List.range (t.length + 1)
  let kept := if longest then lengths else lengths.reverse
  if atEnd then
    match kept.find? fun n => globMatches gs (t.drop n) with
    | some n => t.take n
    | none => t
  else
    match kept.find? fun n => globMatches gs (t.take (t.length - n)) with
    | some n => t.drop (t.length - n)
    | none => t

end Shell

end Sandscript
