import LintRepair.Text.Utf8

/-!
Text as a shell sees it. A shell knows bytes, not characters, so each byte is written as the
character with its number, and a character outside ASCII is as many characters here as it has bytes.
-/

namespace LintRepair.Shell

/-- Bytes, each as the character with its number. -/
abbrev Raw := List Char

namespace Raw

def ofBytes (bytes : ByteArray) : Raw := bytes.toList.map fun b => Char.ofNat b.toNat

def toBytes (s : Raw) : ByteArray := ⟨(s.map fun c => UInt8.ofNat c.toNat).toArray⟩

def ofString (s : String) : Raw := ofBytes s.toUTF8

/-- The text that the bytes stand for, with a replacement character for what is malformed. -/
def text (s : Raw) : String := Text.textLossy (toBytes s)

def ofNat (n : Nat) : Raw := Nat.toDigits 10 n

/-- The decimal digits of a number, with its sign. -/
def ofInt (n : Int) : Raw := if n < 0 then '-' :: ofNat n.natAbs else ofNat n.natAbs

/-- The parts of a text between separators, empty ones included. -/
def parts (separator : Char) : Raw → List Raw
  | [] => [[]]
  | c :: s =>
    match c == separator, parts separator s with
    | true, ps => [] :: ps
    | false, p :: ps => (c :: p) :: ps
    | false, [] => [[c]]

/-- The lines of a text. The last one need not have an end. -/
def lines (s : Raw) : List Raw :=
  let all := parts '\n' s
  if all.getLast? == some [] then all.dropLast else all

def ofLines (lines : List Raw) : Raw := lines.flatMap (· ++ ['\n'])

/-- Blanks in front of a text until it has a width. -/
def padLeft (width : Nat) (s : Raw) : Raw := List.replicate (width - s.length) ' ' ++ s

/-- Whether a text does not come behind another one in the order of bytes. -/
def isUpTo : Raw → Raw → Bool
  | [], _ => true
  | _ :: _, [] => false
  | c :: s, d :: t => c < d || (c == d && isUpTo s t)

def sorted (texts : List Raw) : List Raw := texts.mergeSort isUpTo

end Raw

/-- A letter or an underscore, which a name may begin with. -/
def beginsName (c : Char) : Bool := c.isAlpha || c == '_'

def continuesName (c : Char) : Bool := c.isAlphanum || c == '_'

/-- The name at the front of a text; empty if there is none. -/
def nameAtFront (s : Raw) : Raw :=
  match s with
  | c :: _ => if beginsName c then s.takeWhile continuesName else []
  | [] => []

def isName (s : Raw) : Bool := !s.isEmpty && nameAtFront s == s

/-- A parameter that is no name: what the shell itself sets. -/
def isSpecialParameter (c : Char) : Bool := c.isDigit || "#?$!-*@".toList.contains c

/-- A blank in the sense of numbers and fields. -/
def isBlank (c : Char) : Bool := c == ' ' || ('\t' ≤ c && c ≤ '\r')

end LintRepair.Shell
