import LintRepair.Text.Utf8

/-!
Places in YAML text. Columns decide about nesting, so a cursor keeps the text that is left together
with its line, its column in characters, and the number of bytes before it.
-/

namespace LintRepair.Yaml

/-- The text that is left, and where it begins. -/
structure Cursor where
  rest : List Char
  index : Nat
  line : Nat
  column : Nat
deriving DecidableEq, Repr

/-- Space within a line. -/
def isBlank (c : Char) : Bool := c == ' ' || c == '\t'

/-- A line break. A carriage return and a line feed together are one break. -/
def isBreak (c : Char) : Bool :=
  c == '\n' || c == '\r' || c == '\x85' || c == '\u2028' || c == '\u2029'

/-- A letter, digit, hyphen or underscore. -/
def isWord (c : Char) : Bool := c.isAlphanum || c == '-' || c == '_'

/-- Whether a text is at its end, or goes on with space or a break. -/
def startsBlank : List Char → Bool
  | [] => true
  | c :: _ => isBlank c || isBreak c

/-- Characters that may stand in a YAML text at all. -/
def isAllowed (c : Char) : Bool :=
  let n := c.toNat
  n == 0x09 || n == 0x0A || n == 0x0D || (0x20 ≤ n && n ≤ 0x7E) || n == 0x85 ||
    (0xA0 ≤ n && n ≤ 0xD7FF) || (0xE000 ≤ n && n ≤ 0xFFFD) || 0x10000 ≤ n

namespace Cursor

def start (s : List Char) : Cursor := ⟨s, 0, 0, 0⟩

/-- Pass over characters that are not breaks. -/
def skip (n : Nat) (c : Cursor) : Cursor :=
  ⟨c.rest.drop n, c.index + Text.utf8Length (c.rest.take n), c.line, c.column + n⟩

/-- Pass over all characters of a kind that has no breaks in it. -/
def skipWhile (p : Char → Bool) (c : Cursor) : Cursor := c.skip (c.rest.takeWhile p).length

/-- Pass over a break, and give the character it stands for: a line feed, except for the line and
paragraph separators, which stand for themselves. -/
def passBreak (c : Cursor) : Option (Char × Cursor) :=
  match c.rest with
  | '\r' :: '\n' :: t => some ('\n', ⟨t, c.index + 2, c.line + 1, 0⟩)
  | d :: t =>
    if d = '\u2028' ∨ d = '\u2029' then some (d, ⟨t, c.index + d.utf8Size, c.line + 1, 0⟩)
    else if isBreak d then some ('\n', ⟨t, c.index + d.utf8Size, c.line + 1, 0⟩)
    else none
  | [] => none

/-- Whether the cursor is at the start of a line that separates documents. -/
def atDocumentMark (c : Cursor) : Bool :=
  c.column == 0 &&
    match c.rest with
    | '-' :: '-' :: '-' :: t => startsBlank t
    | '.' :: '.' :: '.' :: t => startsBlank t
    | _ => false

/-- Pass over the rest of a line that holds nothing but space and a comment. -/
def finishLine (c : Cursor) : Option Cursor :=
  let c := c.skipWhile isBlank
  let c := match c.rest with
    | '#' :: _ => c.skipWhile (!isBreak ·)
    | _ => c
  match c.rest with
  | [] => some c
  | _ => c.passBreak.map Prod.snd

end Cursor

end LintRepair.Yaml
