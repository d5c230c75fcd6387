import LintRepair.Shell.Regular.Syntax

/-!
Matching with regular expressions. All places that an expression can lead to are followed at once;
of two ways to the same place the one that takes more early on is kept. The match that counts begins
as early as possible and is then as long as possible.
-/

namespace LintRepair.Shell.Regular

/-- A place in a text, the character before it, and what groups have matched: from where to
where. -/
structure Spot where
  position : Nat
  before : Option Char
  rest : Raw
  groups : List (Nat × Nat × Nat) := []

/-- What a match may depend on beside the expression: whether case counts, and whether line ends
inside the text count as ends of lines. -/
structure Manner where
  ignoresCase : Bool := false
  manyLines : Bool := false
  text : Raw

namespace Spot

/-- The place after the next character. -/
def next (s : Spot) : Spot :=
  match s.rest with
  | c :: rest => { s with position := s.position + 1, before := some c, rest := rest }
  | [] => s

/-- The place after a number of characters. -/
def advance : Nat → Spot → Spot
  | 0, s => s
  | n + 1, s => advance n s.next

end Spot

/-- Keep the first of several ways to the same place. -/
def distinct (useGroups : Bool) : List Spot → List Spot → List Spot
  | taken, [] => taken.reverse
  | taken, s :: ss =>
    if taken.any fun t => t.position == s.position && (!useGroups || t.groups == s.groups) then
      distinct useGroups taken ss
    else distinct useGroups (s :: taken) ss

/-- Whether two characters count as equal. -/
def same (m : Manner) (c d : Char) : Bool := c == d || (m.ignoresCase && c.toLower == d.toLower)

def allows (m : Manner) (negated : Bool) (ms : List Member) (c : Char) : Bool :=
  let found := ms.any (·.contains c) ||
    (m.ignoresCase && (ms.any (·.contains c.toLower) || ms.any (·.contains c.toUpper)))
  found != negated

/-- Whether a place lies at the edge of a word. -/
def isEdge (s : Spot) : Bool := s.before.any isWordCharacter != s.rest.head?.any isWordCharacter

/-- Whether an expression refers to what a group has matched. -/
def refersBack : Regular → Bool
  | .again _ => true
  | .group _ inside => refersBack inside
  | .both first second => refersBack first || refersBack second
  | .either first second => refersBack first || refersBack second
  | .repeated inside _ _ => refersBack inside
  | _ => false

def hasGroup : Regular → Bool
  | .group _ _ => true
  | .both first second => hasGroup first || hasGroup second
  | .either first second => hasGroup first || hasGroup second
  | .repeated inside _ _ => hasGroup inside
  | _ => false

/-- The places after any number of steps, those after more steps first. Steps that lead nowhere are
not repeated. -/
def closure (step : Spot → List Spot) : Nat → Option Nat → List Spot → Spot → List Spot
  | 0, _, seen, s => s :: seen
  | _, some 0, seen, s => if seen.any (·.position == s.position) then seen else seen ++ [s]
  | bound + 1, most, seen, s =>
    if seen.any (·.position == s.position) then seen
    else
      let further := (step s).filter fun t => s.position < t.position
      let seen := further.foldl (fun seen t =>
        closure step bound (most.map (· - 1)) seen t) seen
      if seen.any (·.position == s.position) then seen else seen ++ [s]

/-- The places after a number of steps. -/
def stepsExactly (step : Spot → List Spot) (useGroups : Bool) : Nat → List Spot → List Spot
  | 0, ss => ss
  | n + 1, ss => stepsExactly step useGroups n (distinct useGroups [] (ss.flatMap step))

/-- The places after up to a number of steps, those after more steps first. -/
def stepsUpTo (step : Spot → List Spot) (useGroups : Bool) : Nat → List Spot → List Spot
  | 0, ss => ss
  | n + 1, ss =>
    let further := ss.flatMap fun s => (step s).filter fun t => s.position < t.position
    if further.isEmpty then ss
    else distinct useGroups [] (stepsUpTo step useGroups n (distinct useGroups [] further) ++ ss)

/-- The places that an expression leads to from a place. -/
def follow (m : Manner) (useGroups : Bool) : Regular → Spot → List Spot
  | .nothing, s => [s]
  | .character c, s =>
    match s.rest with
    | d :: _ => if same m c d then [s.next] else []
    | [] => []
  | .any, s => if s.rest.isEmpty then [] else [s.next]
  | .oneOf negated ms, s =>
    match s.rest with
    | c :: _ => if allows m negated ms c then [s.next] else []
    | [] => []
  | .lineStart, s =>
    if s.before.isNone || (m.manyLines && s.before == some '\n') then [s] else []
  | .lineEnd, s =>
    if s.rest.isEmpty || (m.manyLines && s.rest.head? == some '\n') then [s] else []
  | .textStart, s => if s.before.isNone then [s] else []
  | .textEnd, s => if s.rest.isEmpty then [s] else []
  | .wordStart, s => if isEdge s && s.rest.head?.any isWordCharacter then [s] else []
  | .wordEnd, s => if isEdge s && s.before.any isWordCharacter then [s] else []
  | .wordEdge, s => if isEdge s then [s] else []
  | .noWordEdge, s => if isEdge s then [] else [s]
  | .noWordBefore, s => if s.before.any isWordCharacter then [] else [s]
  | .noWordAfter, s => if s.rest.head?.any isWordCharacter then [] else [s]
  | .group number inside, s =>
    (follow m useGroups inside s).map fun t =>
      { t with
        groups := (number, s.position, t.position) :: t.groups.filter (·.1 != number) }
  | .again number, s =>
    match s.groups.lookup number with
    | some (first, last) =>
      let wanted := (m.text.take last).drop first
      let found := s.rest.take wanted.length
      if found.length = wanted.length && (wanted.zip found).all fun (c, d) => same m c d then
        [s.advance wanted.length]
      else []
    | none => []
  | .both first second, s =>
    distinct useGroups [] ((follow m useGroups first s).flatMap (follow m useGroups second))
  | .either first second, s =>
    distinct useGroups [] (follow m useGroups first s ++ follow m useGroups second s)
  | .repeated inside least most, s =>
    let ss := stepsExactly (follow m useGroups inside) useGroups least [s]
    match most with
    | some most => stepsUpTo (follow m useGroups inside) useGroups (most - least) ss
    | none =>
      if useGroups then
        stepsUpTo (follow m useGroups inside) useGroups (s.rest.length + 1) ss
      else
        ss.foldl (fun seen t =>
          closure (follow m useGroups inside) (s.rest.length + 1) none seen t) []

/-- A match: from where to where, with what the groups have matched. -/
structure Found where
  first : Nat
  last : Nat
  groups : List (Nat × Nat × Nat)

def longest : List Spot → Option Spot
  | [] => none
  | s :: ss =>
    match longest ss with
    | some t => if s.position < t.position then some t else some s
    | none => some s

/-- The first match from a place on. The bound is the number of places to try. -/
def searchFrom (m : Manner) (r : Regular) : Nat → Spot → Option Found
  | 0, _ => none
  | bound + 1, s =>
    match longest (follow m (refersBack r) r s) with
    | some t => some ⟨s.position, t.position, t.groups⟩
    | none => if s.rest.isEmpty then none else searchFrom m r bound s.next

def search (r : Regular) (ignoresCase manyLines : Bool) (text : Raw) (position : Nat := 0) :
    Option Found :=
  let m : Manner := { ignoresCase := ignoresCase, manyLines := manyLines, text := text }
  let start : Spot := { position := 0, before := none, rest := text }
  searchFrom m r (text.length + 1) (start.advance position)

/-- The end of the longest match that begins at the start of a text. -/
def matchAtStart (r : Regular) (text : Raw) : Option Found :=
  let m : Manner := { text := text }
  let start : Spot := { position := 0, before := none, rest := text }
  (longest (follow m (refersBack r) r start)).map fun t => ⟨0, t.position, t.groups⟩

def Found.group (f : Found) (text : Raw) (number : Nat) : Raw :=
  if number = 0 then (text.take f.last).drop f.first
  else
    match f.groups.lookup number with
    | some (first, last) => (text.take last).drop first
    | none => []

end LintRepair.Shell.Regular
