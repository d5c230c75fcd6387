import LintRepair.Json.Value
import LintRepair.Decimal.Shortest

/-!
The two written forms of a JSON value: compact, with no space between tokens, and pretty, with two
spaces of indentation a level. Inside strings only the quote, the backslash and the controls below
U+0020 are escaped.
-/

namespace LintRepair.Json

/-- A hexadecimal digit below sixteen, in lower case. -/
def hexDigit (n : Nat) : Char := Nat.digitChar n

def escapeChar (c : Char) : List Char :=
  if c = '"' then ['\\', '"']
  else if c = '\\' then ['\\', '\\']
  else if c = '\x08' then ['\\', 'b']
  else if c = '\x0c' then ['\\', 'f']
  else if c = '\n' then ['\\', 'n']
  else if c = '\r' then ['\\', 'r']
  else if c = '\t' then ['\\', 't']
  else if c.toNat < 0x20 then
    ['\\', 'u', '0', '0', hexDigit (c.toNat / 16), hexDigit (c.toNat % 16)]
  else [c]

def quote (s : String) : List Char := '"' :: s.toList.flatMap escapeChar ++ ['"']

def integer (i : Int) : List Char :=
  if i < 0 then '-' :: Nat.toDigits 10 i.natAbs else Nat.toDigits 10 i.natAbs

/-- A value that is neither an array nor an object; the text of those two is never asked for. -/
def scalar : Json → List Char
  | .null => ['n', 'u', 'l', 'l']
  | .bool true => ['t', 'r', 'u', 'e']
  | .bool false => ['f', 'a', 'l', 's', 'e']
  | .int i => integer i
  | .float negative m => if negative then '-' :: m.text else m.text
  | .string s => quote s
  | .array _ => []
  | .object _ => []

mutual

def compact : Json → List Char
  | .array items => '[' :: compactItems items ++ [']']
  | .object members => '\x7b' :: compactMembers members ++ ['\x7d']
  | v => v.scalar

def compactItems : List Json → List Char
  | [] => []
  | [v] => v.compact
  | v :: w :: rest => v.compact ++ ',' :: compactItems (w :: rest)

def compactMembers : List (String × Json) → List Char
  | [] => []
  | [(name, v)] => quote name ++ ':' :: v.compact
  | (name, v) :: w :: rest => quote name ++ ':' :: v.compact ++ ',' :: compactMembers (w :: rest)

end

def newline (depth : Nat) : List Char := '\n' :: List.replicate (2 * depth) ' '

mutual

/-- The pretty form at some depth; empty arrays and objects stay on one line. -/
def prettyAt (depth : Nat) : Json → List Char
  | .array [] => ['[', ']']
  | .array (v :: rest) =>
    '[' :: newline (depth + 1) ++ v.prettyAt (depth + 1) ++ prettyItems (depth + 1) rest ++
      newline depth ++ [']']
  | .object [] => ['\x7b', '\x7d']
  | .object ((name, v) :: rest) =>
    '\x7b' :: newline (depth + 1) ++ quote name ++ ':' :: ' ' :: v.prettyAt (depth + 1) ++
      prettyMembers (depth + 1) rest ++ newline depth ++ ['\x7d']
  | v => v.scalar

/-- The items after the first, each after a comma and on a line of its own. -/
def prettyItems (depth : Nat) : List Json → List Char
  | [] => []
  | v :: rest => ',' :: newline depth ++ v.prettyAt depth ++ prettyItems depth rest

def prettyMembers (depth : Nat) : List (String × Json) → List Char
  | [] => []
  | (name, v) :: rest =>
    ',' :: newline depth ++ quote name ++ ':' :: ' ' :: v.prettyAt depth ++
      prettyMembers depth rest

end

def pretty (v : Json) : List Char := v.prettyAt 0

def compactText (v : Json) : String := String.ofList v.compact

def prettyText (v : Json) : String := String.ofList v.pretty

end LintRepair.Json
