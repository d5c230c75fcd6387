/-!
White space and lines. Blank characters are those with the Unicode property `White_Space`; a text is
blank when it holds nothing else, and a line ends at a line feed, with at most one carriage return
before the line feed taken as part of the ending.
-/

namespace LintRepair.Text

/-- Code points with the property `White_Space`. A zero-width space and a byte order mark are
not among them. -/
def isBlank (c : Char) : Bool :=
  let n := c.toNat
  (9 ≤ n && n ≤ 13) || n == 0x20 || n == 0x85 || n == 0xA0 || n == 0x1680 ||
    (0x2000 ≤ n && n ≤ 0x200A) || n == 0x2028 || n == 0x2029 || n == 0x202F ||
    n == 0x205F || n == 0x3000

/-- Remove the blank characters at the front. -/
def trimStart (s : List Char) : List Char := s.dropWhile isBlank

/-- Remove the blank characters at the back. -/
def trimEnd (s : List Char) : List Char := (s.reverse.dropWhile isBlank).reverse

/-- Remove the blank characters at both ends. -/
def trim (s : List Char) : List Char := trimEnd (trimStart s)

/-- Nothing but blank characters; the empty text is blank too. -/
def isBlankText (s : String) : Bool := s.toList.all isBlank

/-- The lines of a text. The last line needs no line feed, and a line feed at the very end opens
no further line. -/
def lines : List Char → List (List Char)
  | [] => []
  | '\r' :: '\n' :: rest => [] :: lines rest
  | c :: rest =>
    if c = '\n' then [] :: lines rest
    else match lines rest with
      | [] => [[c]]
      | line :: more => (c :: line) :: more

/-- Whether `needle` stands at some place inside the text. -/
def hasInfix (needle : List Char) : List Char → Bool
  | [] => needle.isEmpty
  | c :: rest => needle.isPrefixOf (c :: rest) || hasInfix needle rest

/-- What follows `lead` in the text, if the text starts with it. -/
def dropLead? : List Char → List Char → Option (List Char)
  | [], s => some s
  | _ :: _, [] => none
  | c :: lead, d :: s => if c = d then dropLead? lead s else none

end LintRepair.Text
