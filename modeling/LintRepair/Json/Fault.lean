import LintRepair.Text.Quoted
import LintRepair.Text.Utf8
import LintRepair.Decimal.Shortest

/-!
Why and where a JSON text cannot be read. A fault keeps the text that was not yet consumed, so that
readers need not track positions; the position is worked out once, against the whole text.
-/

namespace LintRepair.Json

open Decimal (Binary64)

/-- What stands where something else was expected. -/
inductive Found where
  | null
  | bool (value : Bool)
  | int (value : Int)
  | float (negative : Bool) (magnitude : Binary64)
  | string (text : List Char)
  | sequence
  | map

/-- Causes of failure. The last seven concern values that are well formed and unsuitable. -/
inductive Cause where
  | eofInValue
  | eofInList
  | eofInObject
  | eofInString
  | expectedValue
  | expectedWord
  | expectedColon
  | expectedListEnd
  | expectedObjectEnd
  | keyNotString
  | trailingComma
  | trailingCharacters
  | invalidNumber
  | numberOutOfRange
  | invalidEscape
  | loneSurrogate
  | unfinishedSurrogate
  | controlCharacter
  | tooDeep
  | wrongType (found : Found) (expected : List Char)
  | wrongValue (value : Int) (expected : List Char)
  | wrongLength (length : Nat) (expected : List Char)
  | missingField (name : String)
  | repeatedField (name : String)
  | unknownVariant (name : List Char) (variants : List String)

/-- A failure: its cause, the text not yet consumed, and how many bytes of that text had already
been looked at. -/
structure Fault where
  cause : Cause
  rest : List Char
  ahead : Nat

/-- A place in a text: lines count from one, columns are bytes since the last line feed. -/
structure Position where
  line : Nat
  column : Nat
deriving DecidableEq, Repr

def Position.advance : Nat → List Char → Position → Position
  | _, [], p => p
  | bytes, c :: rest, p =>
    if bytes = 0 then p
    else if bytes < c.utf8Size then ⟨p.line, p.column + bytes⟩
    else advance (bytes - c.utf8Size) rest
      (if c = '\n' then ⟨p.line + 1, 0⟩ else ⟨p.line, p.column + c.utf8Size⟩)

/-- Where a fault lies in the text that was read. -/
def Fault.position (text : List Char) (f : Fault) : Position :=
  Position.advance (Text.utf8Length text - Text.utf8Length f.rest + f.ahead) text ⟨1, 0⟩

def digits (n : Nat) : List Char := Nat.toDigits 10 n

def signed (i : Int) : List Char :=
  if i < 0 then '-' :: digits i.natAbs else digits i.natAbs

/-- A word between backticks. -/
def ticked (s : List Char) : List Char := '\x60' :: s ++ ['\x60']

def Found.describe : Found → List Char
  | .null => "null".toList
  | .bool b => "boolean ".toList ++ ticked (if b then "true".toList else "false".toList)
  | .int i => "integer ".toList ++ ticked (signed i)
  | .float negative m =>
    "floating point ".toList ++ ticked (if negative then '-' :: m.text else m.text)
  | .string s => "string ".toList ++ Text.quoted s
  | .sequence => "sequence".toList
  | .map => "map".toList

/-- The choices a message offers: two are joined by `or`, more are listed. -/
def choices : List String → List Char
  | [a] => ticked a.toList
  | [a, b] => ticked a.toList ++ " or ".toList ++ ticked b.toList
  | all => "one of ".toList ++ List.intercalate ", ".toList (all.map fun v => ticked v.toList)

def Cause.message : Cause → List Char
  | .eofInValue => "EOF while parsing a value".toList
  | .eofInList => "EOF while parsing a list".toList
  | .eofInObject => "EOF while parsing an object".toList
  | .eofInString => "EOF while parsing a string".toList
  | .expectedValue => "expected value".toList
  | .expectedWord => "expected ident".toList
  | .expectedColon => "expected ".toList ++ ticked [':']
  | .expectedListEnd => "expected ".toList ++ ticked [','] ++ " or ".toList ++ ticked [']']
  | .expectedObjectEnd => "expected ".toList ++ ticked [','] ++ " or ".toList ++ ticked ['\x7d']
  | .keyNotString => "key must be a string".toList
  | .trailingComma => "trailing comma".toList
  | .trailingCharacters => "trailing characters".toList
  | .invalidNumber => "invalid number".toList
  | .numberOutOfRange => "number out of range".toList
  | .invalidEscape => "invalid escape".toList
  | .loneSurrogate => "lone leading surrogate in hex escape".toList
  | .unfinishedSurrogate => "unexpected end of hex escape".toList
  | .controlCharacter =>
    "control character (\\u0000-\\u001F) found while parsing a string".toList
  | .tooDeep => "recursion limit exceeded".toList
  | .wrongType found expected =>
    "invalid type: ".toList ++ found.describe ++ ", expected ".toList ++ expected
  | .wrongValue i expected =>
    "invalid value: integer ".toList ++ ticked (signed i) ++ ", expected ".toList ++ expected
  | .wrongLength n expected =>
    "invalid length ".toList ++ digits n ++ ", expected ".toList ++ expected
  | .missingField name => "missing field ".toList ++ ticked name.toList
  | .repeatedField name => "duplicate field ".toList ++ ticked name.toList
  | .unknownVariant name variants =>
    "unknown variant ".toList ++ ticked name ++ ", expected ".toList ++ choices variants

/-- The full message: cause, line and column. -/
def Fault.message (text : List Char) (f : Fault) : String :=
  let p := f.position text
  String.ofList (f.cause.message ++ " at line ".toList ++ digits p.line ++ " column ".toList ++
    digits p.column)

end LintRepair.Json
