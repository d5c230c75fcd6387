import LintRepair.Shell.Raw

/-!
The named classes of characters that patterns and expressions may mention. Only ASCII characters
belong to a class.
-/

namespace LintRepair.Shell

/-- The named classes. -/
inductive CharacterClass where
  | alnum
  | alpha
  | blank
  | cntrl
  | digit
  | graph
  | lower
  | print
  | punct
  | space
  | upper
  | xdigit
deriving DecidableEq, Repr

namespace CharacterClass

def table : List (String × CharacterClass) :=
  [("alnum", .alnum), ("alpha", .alpha), ("blank", .blank), ("cntrl", .cntrl), ("digit", .digit),
    ("graph", .graph), ("lower", .lower), ("print", .print), ("punct", .punct), ("space", .space),
    ("upper", .upper), ("xdigit", .xdigit)]

def ofName? (name : Raw) : Option CharacterClass :=
  (table.find? fun (known, _) => known.toList == name).map (·.2)

def contains : CharacterClass → Char → Bool
  | .alnum, c => c.isAlphanum
  | .alpha, c => c.isAlpha
  | .blank, c => c == ' ' || c == '\t'
  | .cntrl, c => c < ' ' || c == '\x7f'
  | .digit, c => c.isDigit
  | .graph, c => '!' ≤ c && c ≤ '~'
  | .lower, c => c.isLower
  | .print, c => ' ' ≤ c && c ≤ '~'
  | .punct, c => '!' ≤ c && c ≤ '~' && !c.isAlphanum
  | .space, c => isBlank c
  | .upper, c => c.isUpper
  | .xdigit, c => c.isDigit || ('a' ≤ c && c ≤ 'f') || ('A' ≤ c && c ≤ 'F')

/-- All characters of a class, in order. -/
def members (k : CharacterClass) : List Char :=
  ((List.range 256).map Char.ofNat).filter k.contains

end CharacterClass

end LintRepair.Shell
