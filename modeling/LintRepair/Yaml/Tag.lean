import LintRepair.Text.Utf8
import LintRepair.Yaml.ScalarText
import LintRepair.Yaml.Token

/-!
Anchors, tags and directives in YAML text. A tag is written as a whole between angle brackets, or as
a handle and a suffix; bytes of other characters are written in hexadecimal after a percent sign.
-/

namespace LintRepair.Yaml

/-- A character of a tag. Commas and square brackets belong only to tags that are written whole. -/
def isTagCharacter (whole : Bool) (c : Char) : Bool :=
  isWord c || ";/?:@&=+$.!~*'()".toList.contains c || (whole && (c == ',' || c == '[' || c == ']'))

/-- The number of bytes of a character, by its first byte. -/
def byteCount? (first : Nat) : Option Nat :=
  if first < 0x80 then some 1
  else if 0xC0 ≤ first ∧ first < 0xE0 then some 2
  else if 0xE0 ≤ first ∧ first < 0xF0 then some 3
  else if 0xF0 ≤ first ∧ first < 0xF8 then some 4
  else none

/-- A byte written as a percent sign and two hexadecimal digits. -/
def escapedByte? : List Char → Option Nat
  | '%' :: a :: b :: _ => do return (← hexValue? a) * 16 + (← hexValue? b)
  | _ => none

/-- A character written byte by byte, and the length of its writing. -/
def escapedCharacter? (s : List Char) : Option (List UInt8 × Nat) := do
  let first ← escapedByte? s
  let count ← byteCount? first
  let more ← ((List.range count).drop 1).mapM fun i => escapedByte? (s.drop (3 * i))
  if more.all fun b => decide (0x80 ≤ b ∧ b < 0xC0) then
    some ((first :: more).map UInt8.ofNat, 3 * count)
  else none

def tagRun (whole : Bool) : Nat → Cursor → Option (List UInt8 × Cursor)
  | 0, _ => none
  | bound + 1, c =>
    match c.rest with
    | [] => some ([], c)
    | d :: _ =>
      if d = '%' then do
        let (bytes, length) ← escapedCharacter? c.rest
        let (more, after) ← tagRun whole bound (c.skip length)
        some (bytes ++ more, after)
      else if isTagCharacter whole d then
        (tagRun whole bound (c.skip 1)).map fun (more, after) => (d.toUInt8 :: more, after)
      else some ([], c)

/-- What a run of tag characters writes: a zero byte and all after it do not count. -/
def tagText (bytes : List UInt8) : List UInt8 := bytes.takeWhile (· != 0)

/-- A run of tag characters that is not empty. -/
def someTagRun (whole : Bool) (c : Cursor) : Option (List UInt8 × Cursor) := do
  let (bytes, after) ← tagRun whole (c.rest.length + 1) c
  if bytes.isEmpty then none else some (tagText bytes, after)

/-- The word after an exclamation mark, and whether a second mark closes it. -/
def handleWord (c : Cursor) : List Char × Bool × Cursor :=
  let word := c.rest.takeWhile isWord
  let c := c.skip word.length
  match c.rest with
  | '!' :: _ => (word, true, c.skip 1)
  | _ => (word, false, c)

/-- The handle and the suffix of a tag after its exclamation mark. -/
def tagParts (c : Cursor) : Option (String × List UInt8 × Cursor) :=
  match c.rest with
  | '<' :: _ => do
    let (whole, after) ← someTagRun true (c.skip 1)
    match after.rest with
    | '>' :: _ => some ("", whole, after.skip 1)
    | _ => none
  | _ =>
    match handleWord c with
    | (word, true, after) => do
      let (suffix, after) ← someTagRun false after
      some (String.ofList ('!' :: word ++ ['!']), suffix, after)
    | (word, false, after) => do
      let (more, after) ← tagRun false (after.rest.length + 1) after
      match tagText (Text.utf8 word ++ more) with
      | [] => some ("", Text.utf8 ['!'], after)
      | suffix => some ("!", suffix, after)

/-- A tag after its exclamation mark. Space follows it, or inside brackets and braces a comma. -/
def readTag (flow : Bool) (c : Cursor) : Option (Token × Cursor) := do
  let (handle, suffix, after) ← tagParts c
  let commaFollows := match after.rest with
    | ',' :: _ => flow
    | _ => false
  if commaFollows || startsBlank after.rest then some (.tag handle suffix, after) else none

/-- The name of an anchor or of a reference to one, after its mark. -/
def readAnchorName (c : Cursor) : Option (String × Cursor) :=
  let name := c.rest.takeWhile isWord
  let after := c.skip name.length
  let closed := match after.rest with
    | [] => true
    | d :: _ => isBlank d || isBreak d || "?:,]\x7d%@".toList.contains d || d == '\x60'
  if closed && !name.isEmpty then some (String.ofList name, after) else none

/-! ### Directives -/

/-- A number of a version: one to nine digits. -/
def versionNumber (c : Cursor) : Option (Nat × Cursor) :=
  let digits := c.rest.takeWhile Char.isDigit
  if digits.isEmpty || 9 < digits.length then none
  else some (digits.foldl (fun n d => n * 10 + (d.toNat - '0'.toNat)) 0, c.skip digits.length)

def versionDirective (c : Cursor) : Option (Token × Cursor) := do
  let (major, c) ← versionNumber (c.skipWhile isBlank)
  match c.rest with
  | '.' :: _ =>
    let (minor, c) ← versionNumber (c.skip 1)
    some (.version major minor, c)
  | _ => none

def handleDirective (c : Cursor) : Option (Token × Cursor) := do
  let c := c.skipWhile isBlank
  match c.rest with
  | '!' :: _ =>
    let (word, closed, c) := handleWord (c.skip 1)
    if closed || word.isEmpty then
      let blanks := (c.rest.takeWhile isBlank).length
      if blanks = 0 then none
      else
        let (expansion, after) ← someTagRun true (c.skip blanks)
        let handle := '!' :: word ++ (if closed then ['!'] else [])
        if startsBlank after.rest then
          some (.tagHandle (String.ofList handle) expansion, after)
        else none
    else none
  | _ => none

/-- A directive after its percent sign, to the end of its line. -/
def readDirective (c : Cursor) : Option (Token × Cursor) := do
  let name := c.rest.takeWhile isWord
  let after := c.skip name.length
  if startsBlank after.rest then
    let (token, after) ←
      if name = "YAML".toList then versionDirective after
      else if name = "TAG".toList then handleDirective after
      else none
    let after ← after.finishLine
    some (token, after)
  else none

end LintRepair.Yaml
