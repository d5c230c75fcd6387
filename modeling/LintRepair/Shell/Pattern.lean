import LintRepair.Shell.CharacterClass

/-!
Patterns for names and texts: a star for any text, a question mark for any character, brackets for
one of several. A character that was quoted stands for itself.
-/

namespace LintRepair.Shell

/-- A character of a pattern, and whether it stands for itself. -/
structure Glyph where
  char : Char
  literal : Bool
deriving DecidableEq, Repr

namespace Glyph

/-- Whether a character has a special meaning and is the given one. -/
def isActive (g : Glyph) (c : Char) : Bool := !g.literal && g.char == c

/-- Let each backslash that was not quoted quote the next character. -/
def unescape : List Glyph → List Glyph
  | g :: next :: rest =>
    if g.isActive '\\' then { next with literal := true } :: unescape rest
    else g :: unescape (next :: rest)
  | gs => gs

end Glyph

/-- A member of brackets: a range of characters or a class of them. -/
inductive Member where
  | range (low high : Char)
  | named (cls : CharacterClass)
deriving DecidableEq, Repr

def Member.contains : Member → Char → Bool
  | .range low high, c => low ≤ c && c ≤ high
  | .named cls, c => cls.contains c

/-- What a pattern asks for at one place. -/
inductive PatternItem where
  | character (c : Char)
  | any
  | run
  | oneOf (negated : Bool) (members : List Member)
deriving DecidableEq, Repr

abbrev Pattern := List PatternItem

namespace Pattern

/-- The class named at the front, after its opening bracket. -/
def className? (gs : List Glyph) : Option (CharacterClass × List Glyph) :=
  let active (c : Char) : List Glyph → Option (List Glyph)
    | g :: rest => if g.isActive c then some rest else none
    | [] => none
  do
    let rest ← active ':' gs
    let name := rest.takeWhile fun g => !g.literal && g.char.isLower
    let cls ← CharacterClass.ofName? (name.map (·.char))
    let rest ← active ':' (rest.drop name.length)
    some (cls, ← active ']' rest)

/-- The members of brackets up to the closing one, which counts as a member in front. -/
def members : Nat → Bool → List Glyph → Option (List Member × List Glyph)
  | 0, _, _ => none
  | _, _, [] => none
  | bound + 1, inFront, g :: rest =>
    if g.isActive ']' && !inFront then some ([], rest)
    else
      let single : Option (List Member × List Glyph) := match rest with
        | dash :: last :: rest =>
          if dash.isActive '-' && !last.isActive ']' then some ([.range g.char last.char], rest)
          else some ([.range g.char g.char], dash :: last :: rest)
        | rest => some ([.range g.char g.char], rest)
      let first := if g.isActive '[' then
          match className? rest with
          | some (cls, rest) => some ([.named cls], rest)
          | none => single
        else single
      match first with
      | some (first, rest) =>
        (members bound false rest).map fun (more, rest) => (first ++ more, rest)
      | none => none

/-- Brackets after the opening one. Without a closing one they are no brackets. -/
def brackets? (gs : List Glyph) : Option (PatternItem × List Glyph) :=
  let negated := gs.head?.any (·.isActive '!')
  let inside := if negated then gs.drop 1 else gs
  (members (inside.length + 1) true inside).map fun (ms, rest) => (.oneOf negated ms, rest)

/-- Read a pattern; the bound is its length. -/
def read : Nat → List Glyph → Pattern
  | 0, _ => []
  | _, [] => []
  | bound + 1, g :: rest =>
    if g.isActive '*' then .run :: read bound rest
    else if g.isActive '?' then .any :: read bound rest
    else if g.isActive '[' then
      match brackets? rest with
      | some (item, rest) => item :: read bound rest
      | none => .character '[' :: read bound rest
    else .character g.char :: read bound rest

def ofGlyphs (gs : List Glyph) : Pattern :=
  let gs := Glyph.unescape gs
  read gs.length gs

/-- The ends of a text, the longest first. -/
def suffixes : Raw → List Raw
  | [] => [[]]
  | c :: s => (c :: s) :: suffixes s

/-- Whether a pattern matches the whole of a text. -/
def matchesAll : Pattern → Raw → Bool
  | [], s => s.isEmpty
  | .run :: ps, s => (suffixes s).any (matchesAll ps)
  | _ :: _, [] => false
  | .character c :: ps, d :: s => c == d && matchesAll ps s
  | .any :: ps, _ :: s => matchesAll ps s
  | .oneOf negated ms :: ps, d :: s => ms.any (·.contains d) != negated && matchesAll ps s

/-- What stands between positional parameters that become fields of their own. -/
def parameterEnd : Char := '\x00'

/-- The part of a text up to the first end of a positional parameter. -/
def firstParameter (s : Raw) : Raw := s.takeWhile (· != parameterEnd)

/-- The places where a text may be cut. Going forward, only the first of several positional
parameters is looked at; going backward, all of them are. -/
def cuts (forward : Bool) (s : Raw) : List Nat :=
  if forward then List.range ((firstParameter s).length + 1)
  else (List.range (s.length + 1)).reverse

/-- A text without the shortest or longest end that matches. -/
def withoutEnd (p : Pattern) (longest : Bool) (s : Raw) : Raw :=
  match (cuts longest s).find? fun n => matchesAll p (firstParameter (s.drop n)) with
  | some n => s.take n
  | none => s

/-- A text without the shortest or longest front that matches. -/
def withoutStart (p : Pattern) (longest : Bool) (s : Raw) : Raw :=
  match (cuts (!longest) s).find? fun n => matchesAll p (firstParameter (s.take n)) with
  | some n => s.drop n
  | none => s

/-! ### Names of files -/

/-- Whether brackets that start here are closed before the next slash. -/
def closesBrackets : Nat → List Glyph → Bool
  | 0, _ => false
  | _, [] => false
  | bound + 1, g :: rest =>
    if g.char == '/' then false
    else
      match rest with
      | [] => false
      | next :: _ => next.isActive ']' || closesBrackets bound rest

/-- Whether characters form more than a plain name. -/
def isMagic : List Glyph → Bool
  | [] => false
  | g :: rest =>
    g.isActive '*' || g.isActive '?' ||
      (g.isActive '[' &&
        closesBrackets rest.length (if rest.head?.any (·.isActive '!') then rest.drop 1 else rest))
      || isMagic rest

/-- The characters up to the first slash, and those behind it. -/
def firstPart : List Glyph → List Glyph × Option (List Glyph)
  | [] => ([], none)
  | g :: rest =>
    if g.char == '/' then ([], some rest)
    else
      let (front, back) := firstPart rest
      (g :: front, back)

/-- What file names are looked up in: the names in a directory, and whether a path leads to
anything. -/
structure Names where
  inside : Raw → List Raw
  doesExist : Raw → Bool

/-- Paths that match, behind a path that has been found. Names that begin with a dot are matched
only by a dot. The bound is the number of characters. -/
def pathsFrom (names : Names) : Nat → Raw → List Glyph → List Raw
  | 0, _, _ => []
  | bound + 1, path, gs =>
    let plain := gs.map (·.char)
    if !isMagic gs then
      if names.doesExist (path ++ plain) then [path ++ plain] else []
    else
      match firstPart gs with
      | (part, rest) =>
        if !isMagic part then
          pathsFrom names bound (path ++ part.map (·.char) ++ ['/']) (rest.getD [])
        else
          let pattern := read part.length part
          let showsDots := part.head?.any (·.char == '.')
          let found := (names.inside (if path.isEmpty then ['.'] else path)).filter fun name =>
            (name.head? != some '.' || showsDots) && pattern.matchesAll name
          match rest with
          | none => found.map (path ++ ·)
          | some rest => found.flatMap fun name =>
              pathsFrom names bound (path ++ name ++ ['/']) rest

/-- The paths that characters match, in order; none if they form a plain name. -/
def paths (names : Names) (gs : List Glyph) : List Raw :=
  let gs := Glyph.unescape gs
  if isMagic gs then
    (pathsFrom names (gs.length + 1) [] gs).mergeSort fun a b => !(b < a)
  else []

end Pattern

end LintRepair.Shell
