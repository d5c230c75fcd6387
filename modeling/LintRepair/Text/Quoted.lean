import LintRepair.Text.Printable

/-!
Texts quoted inside messages: between double quotes, with short escapes for the usual controls, and
the code point in braces for any other character that would not show.
-/

namespace LintRepair.Text

/-- A number in lower-case hexadecimal. -/
def hexDigits (n : Nat) : List Char := Nat.toDigits 16 n

def quotedChar (c : Char) : List Char :=
  if c = '\x00' then ['\\', '0']
  else if c = '\t' then ['\\', 't']
  else if c = '\r' then ['\\', 'r']
  else if c = '\n' then ['\\', 'n']
  else if c = '"' then ['\\', '"']
  else if c = '\\' then ['\\', '\\']
  else if isPrintable c then [c]
  else ['\\', 'u', '\x7b'] ++ hexDigits c.toNat ++ ['\x7d']

def quoted (s : List Char) : List Char := '"' :: s.flatMap quotedChar ++ ['"']

end LintRepair.Text
