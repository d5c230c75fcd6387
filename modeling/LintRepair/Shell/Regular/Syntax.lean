import LintRepair.Shell.Number
import LintRepair.Shell.Pattern

/-!
Regular expressions and how they are written. There are two ways of writing them: in the plain one
most operators need a backslash, in the extended one a backslash takes their meaning away. Programs
differ in what they make of operators that have nothing to work on: some refuse them, and others are
lenient.
-/

namespace LintRepair.Shell

/-- Regular expressions. -/
inductive Regular where
  | nothing
  | character (c : Char)
  | any
  | oneOf (negated : Bool) (members : List Member)
  | lineStart
  | lineEnd
  | textStart
  | textEnd
  | wordStart
  | wordEnd
  | wordEdge
  | noWordEdge
  | noWordBefore
  | noWordAfter
  | group (number : Nat) (inside : Regular)
  | again (number : Nat)
  | both (first second : Regular)
  | either (first second : Regular)
  | repeated (inside : Regular) (least : Nat) (most : Option Nat)
deriving Repr

/-- Why an expression cannot be read. -/
inductive RegularFault where
  | openBracket
  | openGroup
  | closedGroup
  | badRepetition
  | openCount
  | badCount
  | badRange
  | badClass
  | badReference
  | lastBackslash
  | badPattern
  | tooBig
deriving DecidableEq, Repr

namespace RegularFault

def text : RegularFault → String
  | .openBracket => "Unmatched [, [^, [:, [., or [="
  | .openGroup => "Unmatched ( or \\("
  | .closedGroup => "Unmatched ) or \\)"
  | .badRepetition => "Invalid preceding regular expression"
  | .openCount => "Unmatched \\\x7b"
  | .badCount => "Invalid content of \\\x7b\\\x7d"
  | .badRange => "Invalid range end"
  | .badClass => "Invalid character class name"
  | .badReference => "Invalid back reference"
  | .lastBackslash => "Trailing backslash"
  | .badPattern => "Invalid regular expression"
  | .tooBig => "Regular expression too big"

end RegularFault

namespace Regular

def isWordCharacter (c : Char) : Bool := continuesName c

def wordMembers : List Member := [.named .alnum, .range '_' '_']

/-- What has been read of an expression: how many groups were opened, the operators that were found
where they have no meaning, and what is left. -/
structure Reading where
  extended : Bool
  lenient : Bool := false
  rest : Raw
  groups : Nat := 0
  closed : List Nat := []
  misplaced : List Char := []

abbrev Reader := StateT Reading (Except RegularFault)

namespace Reader

def skip (count : Nat) : Reader Unit := modify fun r => { r with rest := r.rest.drop count }

/-- The name of a class between brackets and colons, at the front, with what is left. -/
def className? (s : Raw) : Option (Raw × Raw) :=
  match s with
  | '[' :: ':' :: rest =>
    let name := rest.takeWhile fun c => c != ':' && c != ']'
    match rest.drop name.length with
    | ':' :: ']' :: rest => some (name, rest)
    | _ => none
  | _ => none

/-- A single character between brackets and points or equals signs, at the front, with what is
left. -/
def namedCharacter? (s : Raw) : Option (Char × Raw) :=
  match s with
  | '[' :: '.' :: c :: '.' :: ']' :: rest => some (c, rest)
  | '[' :: '=' :: c :: '=' :: ']' :: rest => some (c, rest)
  | _ => none

/-- Whether a range would begin here, behind something that cannot begin one. -/
def beginsRange (s : Raw) : Bool :=
  match s with
  | '-' :: c :: _ => c != ']'
  | _ => false

/-- The members of brackets up to the closing one, which counts as a member in front. -/
def members : Nat → Bool → Raw → Except RegularFault (List Member × Raw)
  | 0, _, _ => .error .openBracket
  | _, _, [] => .error .openBracket
  | bound + 1, inFront, c :: rest =>
    if c == ']' && !inFront then .ok ([], rest)
    else
      match className? (c :: rest) with
      | some (name, rest) =>
        match CharacterClass.ofName? name with
        | some cls => do
          if beginsRange rest then .error .badRange
          let (more, rest) ← members bound false rest
          return (.named cls :: more, rest)
        | none => .error .badClass
      | none =>
        let (c, rest) := (namedCharacter? (c :: rest)).getD (c, rest)
        match rest with
        | '-' :: last :: after =>
          if last == ']' then do
            let (more, rest) ← members bound false rest
            return (.range c c :: more, rest)
          else if (className? (last :: after)).isSome then .error .badRange
          else
            let (last, after) := (namedCharacter? (last :: after)).getD (last, after)
            if last < c || beginsRange after then .error .badRange
            else do
              let (more, rest) ← members bound false after
              return (.range c last :: more, rest)
        | _ => do
          let (more, rest) ← members bound false rest
          return (.range c c :: more, rest)

def brackets : Reader Regular := do
  let s := (← get).rest
  let negated := s.head? == some '^'
  let inside := if negated then s.drop 1 else s
  if inside.isEmpty then throw .badPattern
  match members (inside.length + 1) true inside with
  | .ok (ms, rest) =>
    modify fun r => { r with rest := rest }
    return .oneOf negated ms
  | .error fault => throw fault

/-- The least and greatest number of a repetition at the front, with what is left; no number at the
end means that there is no greatest one. -/
def counts? (extended : Bool) (s : Raw) : Option (Nat × Option Nat × Raw) :=
  let low := s.takeWhile Char.isDigit
  let least := Number.value 10 low
  let close (rest : Raw) : Option Raw := match rest with
    | '\x7d' :: rest => if extended then some rest else none
    | '\\' :: '\x7d' :: rest => if extended then none else some rest
    | _ => none
  match s.drop low.length with
  | ',' :: rest =>
    let high := rest.takeWhile Char.isDigit
    (close (rest.drop high.length)).map fun rest =>
      (least, if high.isEmpty then none else some (Number.value 10 high), rest)
  | rest =>
    if low.isEmpty then none
    else (close rest).map fun rest => (least, some least, rest)

/-- The fault of a repetition that says no number. -/
def countFault (s : Raw) : RegularFault :=
  let rest := (s.dropWhile Char.isDigit)
  let rest := match rest with
    | ',' :: t => t.dropWhile Char.isDigit
    | t => t
  if rest.isEmpty then .openCount else .badCount

/-- The greatest number of a repetition. -/
def mostCounts : Nat := 32767

/-- How often an expression is to be repeated, if that is said at the front: the least and greatest
number. In the extended form a lenient program takes braces that say no number for themselves. -/
def repetition? : Reader (Option (Nat × Option Nat)) := do
  let r ← get
  let counted (s : Raw) : Reader (Option (Nat × Option Nat)) := do
    match counts? r.extended s with
    | some (least, most, rest) =>
      if most.any (· < least) then throw .badCount
      if mostCounts < least || most.any (mostCounts < ·) then throw .tooBig
      set { r with rest := rest }
      return some (least, most)
    | none => if r.extended && r.lenient then return none else throw (countFault s)
  let found (count : Nat) (least : Nat) (most : Option Nat) :
      Reader (Option (Nat × Option Nat)) := do
    skip count
    return some (least, most)
  match r.extended, r.rest with
  | _, '*' :: _ => found 1 0 none
  | true, '+' :: _ => found 1 1 none
  | true, '?' :: _ => found 1 0 (some 1)
  | true, '\x7b' :: s => counted s
  | false, '\\' :: '+' :: _ => found 2 1 none
  | false, '\\' :: '?' :: _ => found 2 0 (some 1)
  | false, '\\' :: '\x7b' :: s => counted s
  | _, _ => return none

/-- An expression with the repetitions behind it. The bound is the length of the text. -/
def repetitions : Nat → Regular → Reader Regular
  | 0, inside => pure inside
  | bound + 1, inside => do
    match ← repetition? with
    | some (least, most) => repetitions bound (.repeated inside least most)
    | none => return inside

/-- Whether the text ends here for an anchor: at its end, or before a group or branch ends. -/
def endsHere (extended : Bool) (s : Raw) : Bool :=
  match s with
  | [] => true
  | '\\' :: ')' :: _ => !extended
  | '\\' :: '|' :: _ => !extended
  | _ => false

/-- The expression for an escaped character that is no operator. -/
def escaped (c : Char) : Reader Regular := do
  match c with
  | 'w' => return .oneOf false wordMembers
  | 'W' => return .oneOf true wordMembers
  | 's' => return .oneOf false [.named .space]
  | 'S' => return .oneOf true [.named .space]
  | '<' => return .wordStart
  | '>' => return .wordEnd
  | 'b' => return .wordEdge
  | 'B' => return .noWordEdge
  | '\x60' => return .textStart
  | '\'' => return .textEnd
  | _ =>
    if '1' ≤ c && c ≤ '9' then
      let n := c.toNat - '0'.toNat
      if (← get).closed.contains n then return .again n else throw .badReference
    else return .character c

/-- Whether a character of the extended form says how often something is to be repeated. -/
def isRepetition (lenient : Bool) (c : Char) (rest : Raw) : Bool :=
  "*+?".toList.contains c || (c == '\x7b' && (!lenient || (counts? true rest).isSome))

/-- Join what comes next to what was read. -/
def join (first second : Regular) : Regular :=
  match first with
  | .nothing => second
  | first => .both first second

mutual

/-- Branches up to the end of a group or of the text. -/
def branches : Nat → Nat → Reader Regular
  | 0, _ => pure .nothing
  | bound + 1, depth => do
    let first ← branch bound depth true .nothing
    let r ← get
    match r.rest, r.extended with
    | '|' :: _, true =>
      skip 1
      return .either first (← branches bound depth)
    | '\\' :: '|' :: _, false =>
      skip 2
      return .either first (← branches bound depth)
    | _, _ => return first

/-- One branch, after the expression read so far. -/
def branch : Nat → Nat → Bool → Regular → Reader Regular
  | 0, _, _, taken => pure taken
  | bound + 1, depth, inFront, taken => do
    let r ← get
    let add (count : Nat) (one : Regular) : Reader Regular := do
      skip count
      let whole ← repetitions (r.rest.length + 1) one
      branch bound depth false (join taken whole)
    let anchor (one : Regular) : Reader Regular := do
      skip 1
      branch bound depth inFront (join taken one)
    match r.rest with
    | [] => return taken
    | '\\' :: [] => throw .lastBackslash
    | '\\' :: c :: _ =>
      if !r.extended && c == '(' then
        skip 2
        let g ← group bound depth
        let whole ← repetitions (r.rest.length + 1) g
        branch bound depth false (join taken whole)
      else if !r.extended && c == ')' then
        if depth = 0 then throw .closedGroup else return taken
      else if !r.extended && c == '|' then return taken
      else if !r.extended && c == '\x7b' then
        if inFront && !r.lenient then throw .badRepetition else add 2 (.character c)
      else if r.extended && "|()\x7b\x7d+?*.[]^$".toList.contains c then add 2 (.character c)
      else
        let one ← escaped c
        add 2 one
    | '(' :: _ =>
      if r.extended then
        skip 1
        let g ← group bound depth
        let whole ← repetitions (r.rest.length + 1) g
        branch bound depth false (join taken whole)
      else add 1 (.character '(')
    | ')' :: _ =>
      if r.extended && depth != 0 then return taken
      else if r.extended && !r.lenient then throw .closedGroup
      else add 1 (.character ')')
    | '|' :: _ => if r.extended then return taken else add 1 (.character '|')
    | '[' :: _ =>
      skip 1
      let one ← brackets
      let whole ← repetitions (r.rest.length + 1) one
      branch bound depth false (join taken whole)
    | '.' :: _ => add 1 .any
    | '^' :: _ =>
      if r.extended || inFront then anchor .lineStart else add 1 (.character '^')
    | '$' :: rest =>
      if r.extended || endsHere false rest then
        skip 1
        branch bound depth false (join taken .lineEnd)
      else add 1 (.character '$')
    | c :: s =>
      if r.extended && inFront && isRepetition r.lenient c s then
        if !r.lenient then throw .badRepetition
        modify fun r => { r with misplaced := c :: r.misplaced }
        let _ ← repetition?
        branch bound depth false taken
      else add 1 (.character c)

/-- A group after its opening parenthesis, up to the closing one. -/
def group : Nat → Nat → Reader Regular
  | 0, _ => throw .openGroup
  | bound + 1, depth => do
    let number := (← get).groups + 1
    modify fun r => { r with groups := number }
    let inside ← branches bound (depth + 1)
    let r ← get
    match r.rest, r.extended with
    | ')' :: _, true => skip 1
    | '\\' :: ')' :: _, false => skip 2
    | _, _ => throw .openGroup
    modify fun r => { r with closed := number :: r.closed }
    return .group number inside

end

end Reader

/-- Read an expression, and tell the operators that have no meaning where they stand. -/
def read (extended lenient : Bool) (s : Raw) : Except RegularFault (Regular × List Char) := do
  let (r, left) ← (Reader.branches (3 * s.length + 3) 0).run
    { extended := extended, lenient := lenient, rest := s }
  return (r, left.misplaced.reverse)

def ofText (extended : Bool) (s : Raw) : Except RegularFault Regular := do
  return (← read extended false s).1

end Regular

end LintRepair.Shell
