import LintRepair.Glob.Pattern

/-!
Reading a pattern text. A double star is special only as a whole segment: at the start of the
pattern or of an alternative, after a separator, and followed by a separator or the end. Elsewhere
it is two single stars. Inside a class the backslash, the braces and the stars mean themselves.
-/

namespace LintRepair.Glob

/-- A group that is still open: the tokens before it and its finished alternatives, both with the
last one first. -/
structure OpenGroup where
  before : List Token
  branches : List (List Token)

/-- What has been read: the last character, the tokens of the current alternative with the last
one first, and the open groups from the innermost outwards. -/
structure Progress where
  previous : Option Char
  tokens : List Token
  groups : List OpenGroup

namespace Progress

/-- Nothing read yet. -/
def start : Progress := ⟨none, [], []⟩

/-- Add tokens, the last of which was read up to the character `c`. -/
def push (p : Progress) (c : Char) (tokens : List Token) : Progress :=
  { p with previous := some c, tokens := tokens.reverse ++ p.tokens }

/-- Replace the last token. The separator before a double star is taken over by the token of the
double star; directories already taken over absorb a further double star. -/
def absorbStars (p : Progress) (c : Char) (t : Token) : Progress :=
  match p.tokens with
  | .leadingDirs :: _ => { p with previous := some c }
  | .trailingPath :: _ => { p with previous := some c }
  | _ :: before => { p with previous := some c, tokens := t :: before }
  | [] => { p with previous := some c, tokens := [t] }

/-- Whether a double star that follows other tokens can stand for directories: after a separator,
or, inside a group, after a comma or an opening brace. -/
def starsMayStand (p : Progress) : Bool :=
  p.previous == some '/' ||
    (!p.groups.isEmpty && (p.previous == some ',' || p.previous == some '\x7b'))

end Progress

/-- Extend the last range of a class up to `c`. -/
def extendLast (ranges : List (Char × Char)) (c : Char) : Except Error (List (Char × Char)) :=
  match ranges with
  | [] => .ok [(c, c)]
  | (low, _) :: more => if c < low then .error (.invalidRange low c) else .ok ((low, c) :: more)

mutual

/-- Read pattern text outside classes. -/
def scan (p : Progress) : List Char → Except Error (List Token)
  | [] => if p.groups.isEmpty then .ok p.tokens.reverse else .error .unclosedGroup
  | '?' :: rest => scan (p.push '?' [.anyByte]) rest
  | '*' :: '*' :: rest =>
    if p.tokens.isEmpty then
      match rest with
      | [] => scan (p.push '*' [.leadingDirs]) []
      | '/' :: more => scan (p.push '/' [.leadingDirs]) more
      | c :: more => scan (p.push '*' [.anyRun, .anyRun]) (c :: more)
    else if p.starsMayStand then
      match rest with
      | [] => scan (p.absorbStars '*' .trailingPath) []
      | '/' :: more => scan (p.absorbStars '/' .innerDirs) more
      | c :: more =>
        if (c = ',' ∨ c = '\x7d') ∧ p.groups.isEmpty = false then
          scan (p.absorbStars '*' .trailingPath) (c :: more)
        else scan (p.push '*' [.anyRun, .anyRun]) (c :: more)
    else scan (p.push '*' [.anyRun, .anyRun]) rest
  | '*' :: rest => scan (p.push '*' [.anyRun]) rest
  | '[' :: rest =>
    match rest with
    | '!' :: more => scanClass p true true false [] more
    | '^' :: more => scanClass p true true false [] more
    | more => scanClass p false true false [] more
  | '\x7b' :: rest => scan ⟨some '\x7b', [], ⟨p.tokens, []⟩ :: p.groups⟩ rest
  | '\x7d' :: rest =>
    match p.groups with
    | [] => .error .unopenedGroup
    | g :: groups =>
      let branches := (p.tokens.reverse :: g.branches).reverse
      scan ⟨some '\x7d', .alternatives branches :: g.before, groups⟩ rest
  | ',' :: rest =>
    match p.groups with
    | [] => scan (p.push ',' [.literal ',']) rest
    | g :: groups =>
      scan ⟨some ',', [], ⟨g.before, p.tokens.reverse :: g.branches⟩ :: groups⟩ rest
  | '\\' :: rest =>
    match rest with
    | [] => .error .danglingEscape
    | c :: more => scan (p.push c [.literal c]) more
  | c :: rest => scan (p.push c [.literal c]) rest

/-- Read the members of a class up to its closing bracket. A bracket or a hyphen in the first place
is a member, and so is a hyphen in the last. -/
def scanClass (p : Progress) (negated first inRange : Bool) (ranges : List (Char × Char)) :
    List Char → Except Error (List Token)
  | [] => .error .unclosedClass
  | c :: rest =>
    if c = ']' ∧ first = false then
      let members := if inRange then ('-', '-') :: ranges else ranges
      scan (p.push ']' [.charClass negated members.reverse]) rest
    else if c = '-' ∧ first = false ∧ inRange = false then
      scanClass p negated false true ranges rest
    else if inRange then
      match extendLast ranges c with
      | .ok ranges => scanClass p negated false false ranges rest
      | .error e => .error e
    else scanClass p negated false false ((c, c) :: ranges) rest

end

def parse (pattern : String) : Except Error (List Token) := scan .start pattern.toList

end LintRepair.Glob
