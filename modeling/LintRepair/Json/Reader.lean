import LintRepair.Json.Fault
import LintRepair.Json.Value
import LintRepair.Decimal.Scaled

/-!
Reading JSON text from the front. A reader takes the text not yet consumed and gives a value with
the text after it, or a fault. There are two ways to pass over a value: values that are wanted are
read, with every rule checked; values that nobody asked for are skipped, and then surrogates, the
size of numbers and the depth of nesting are not checked.
-/

namespace LintRepair.Json

open Decimal (Binary64)

abbrev Reader (α : Type) := List Char → Except Fault (α × List Char)

/-- Whether a value is wanted or only passed over. -/
inductive Mode where
  | read
  | skip
deriving DecidableEq

/-- Fail at the text not yet consumed. -/
def failAt {α : Type} (cause : Cause) (s : List Char) : Except Fault α := .error ⟨cause, s, 0⟩

/-- Fail at the next byte, which has been looked at and not consumed. -/
def failPeek {α : Type} (cause : Cause) (s : List Char) : Except Fault α :=
  .error ⟨cause, s, if s.isEmpty then 0 else 1⟩

/-- White space between tokens. -/
def isSpace (c : Char) : Bool := c == ' ' || c == '\n' || c == '\t' || c == '\r'

/-- Pass over white space. -/
def skipSpace (s : List Char) : List Char := s.dropWhile isSpace

def word : List Char → Reader Unit
  | [], s => .ok ((), s)
  | _ :: _, [] => failAt .eofInValue []
  | c :: more, d :: s => if c = d then word more s else failPeek .expectedWord (d :: s)

/-! ### Strings -/

/-- The character that a one-letter escape stands for. -/
def shortEscape (c : Char) : Option Char :=
  if c = '"' then some '"'
  else if c = '\\' then some '\\'
  else if c = '/' then some '/'
  else if c = 'b' then some '\x08'
  else if c = 'f' then some '\x0c'
  else if c = 'n' then some '\n'
  else if c = 'r' then some '\r'
  else if c = 't' then some '\t'
  else none

def hexValue (c : Char) : Option Nat :=
  if '0' ≤ c ∧ c ≤ '9' then some (c.toNat - '0'.toNat)
  else if 'a' ≤ c ∧ c ≤ 'f' then some (c.toNat - 'a'.toNat + 10)
  else if 'A' ≤ c ∧ c ≤ 'F' then some (c.toNat - 'A'.toNat + 10)
  else none

/-- The number written by four hexadecimal digits. -/
def hexQuad (a b c d : Char) : Option Nat := do
  let a ← hexValue a
  let b ← hexValue b
  let c ← hexValue c
  let d ← hexValue d
  return ((a * 16 + b) * 16 + c) * 16 + d

/-- The fault of a four-digit escape that cannot be read: four bytes are looked at, unless the
text ends before. -/
def badQuad (s : List Char) : Fault :=
  if 4 ≤ Text.utf8Length s then ⟨.invalidEscape, s, 4⟩ else ⟨.eofInString, [], 0⟩

/-- A code unit that opens a surrogate pair. -/
def isLeading (n : Nat) : Bool := 0xD800 ≤ n && n ≤ 0xDBFF

/-- A code unit that closes a surrogate pair. -/
def isTrailing (n : Nat) : Bool := 0xDC00 ≤ n && n ≤ 0xDFFF

/-- The code point of a surrogate pair. -/
def pairValue (lead trail : Nat) : Nat := (lead - 0xD800) * 0x400 + (trail - 0xDC00) + 0x10000

/-- The rest of a string, after its opening quote. Escaped code units beyond U+FFFF must come as
surrogate pairs; in a skipped string lone ones pass and stand as U+FFFD. -/
def stringBody (mode : Mode) : Reader (List Char)
  | [] => failAt .eofInString []
  | c :: s =>
    if c = '"' then .ok ([], s)
    else if c = '\\' then
      match s with
      | [] => failAt .eofInString []
      | 'u' :: t =>
        match t with
        | a :: b :: c :: d :: r =>
          match hexQuad a b c d with
          | none => .error (badQuad t)
          | some n =>
            if mode = .skip then
              (stringBody mode r).map fun (cs, r) => ('\uFFFD' :: cs, r)
            else if isTrailing n then failAt .loneSurrogate r
            else if isLeading n then
              match r with
              | [] => failAt .eofInString []
              | '\\' :: r₁ =>
                match r₁ with
                | [] => failAt .eofInString []
                | 'u' :: r₂ =>
                  match r₂ with
                  | a :: b :: c :: d :: r₃ =>
                    match hexQuad a b c d with
                    | none => .error (badQuad r₂)
                    | some m =>
                      if isTrailing m then
                        (stringBody mode r₃).map fun (cs, r) =>
                          (Char.ofNat (pairValue n m) :: cs, r)
                      else failAt .loneSurrogate r₃
                  | _ => .error (badQuad r₂)
                | _ :: _ => .error ⟨.unfinishedSurrogate, r₁, 1⟩
              | _ :: _ => .error ⟨.unfinishedSurrogate, r, 1⟩
            else (stringBody mode r).map fun (cs, r) => (Char.ofNat n :: cs, r)
        | _ => .error (badQuad t)
      | e :: t =>
        match shortEscape e with
        | some ch => (stringBody mode t).map fun (cs, r) => (ch :: cs, r)
        | none => failPeek .invalidEscape s
    else if c.toNat < 0x20 then
      match mode with
      | .read => failPeek .controlCharacter (c :: s)
      | .skip => failAt .controlCharacter (c :: s)
    else (stringBody mode s).map fun (cs, r) => (c :: cs, r)

/-! ### Numbers -/

/-- The parts of a number: whole digits, digits after the point, exponent with its sign. -/
structure Numeral where
  whole : List Char
  fraction : List Char
  pointed : Bool
  exponent : Option (Bool × List Char)

/-- Fail for want of a digit: a text that ends here is only unfinished, if the number is wanted. -/
def missingDigit {α : Type} (mode : Mode) (s : List Char) : Except Fault α :=
  match mode, s with
  | .read, [] => failAt .eofInValue []
  | _, s => failPeek .invalidNumber s

/-- The exponent of a number, if one follows. -/
def exponentPart (mode : Mode) : Reader (Option (Bool × List Char))
  | c :: s =>
    if c = 'e' ∨ c = 'E' then
      let (positive, t) := match s with
        | '+' :: t => (true, t)
        | '-' :: t => (false, t)
        | t => (true, t)
      let ds := t.takeWhile Char.isDigit
      if ds.isEmpty then missingDigit mode t
      else .ok (some (positive, ds), t.drop ds.length)
    else .ok (none, c :: s)
  | [] => .ok (none, [])

/-- A number after its sign. A leading zero stands alone. -/
def numeral (mode : Mode) : Reader Numeral := fun s =>
  let whole := s.takeWhile Char.isDigit
  let rest := s.drop whole.length
  match whole with
  | [] => missingDigit mode s
  | '0' :: _ :: _ => failPeek .invalidNumber (s.drop 1)
  | _ =>
    match rest with
    | '.' :: t =>
      let fraction := t.takeWhile Char.isDigit
      let after := t.drop fraction.length
      if fraction.isEmpty then missingDigit mode after
      else do
        let (e, r) ← exponentPart mode after
        return (⟨whole, fraction, true, e⟩, r)
    | _ => do
      let (e, r) ← exponentPart mode rest
      return (⟨whole, [], false, e⟩, r)

/-- The greatest exponent that is taken as a number. -/
def exponentLimit : Nat := 2147483647

/-- The exponent's digits as a number, or, past the limit, the digits that were not consumed. -/
def exponentValue : Nat → List Char → Except (List Char) Nat
  | n, [] => .ok n
  | n, c :: ds =>
    let next := n * 10 + Decimal.digitValue c
    if next ≤ exponentLimit then exponentValue next ds else .error ds

/-- The number a numeral stands for. Whole numbers that fit 64 bits stay whole, except a negative
zero; all others become doubles, and one too large for a double is out of range. `rest` is the text
after the numeral. -/
def Numeral.value (negative : Bool) (n : Numeral) (rest : List Char) : Except Fault Json := do
  let (significand, surplus) := Decimal.absorb 0 n.whole
  if n.pointed ∨ n.exponent.isSome ∨ surplus ≠ [] then
    let (full, dropped) :=
      if n.pointed then Decimal.absorb significand n.fraction else (significand, [])
    let scale : Int := surplus.length - (n.fraction.length - dropped.length : Nat)
    let (positive, ds) := n.exponent.getD (true, [])
    match exponentValue 0 ds with
    | .error left =>
      if full ≠ 0 ∧ positive then failAt .numberOutOfRange (left ++ rest)
      else return .float negative Binary64.zero
    | .ok e =>
      match Decimal.ofScaled full (if positive then scale + e else scale - e) with
      | some x => return .float negative x
      | none => failAt .numberOutOfRange rest
  else if negative then
    if 1 ≤ significand ∧ significand ≤ UInt64.size / 2 then return .int (-significand)
    else
      match Decimal.ofScaled significand 0 with
      | some x => return .float true x
      | none => failAt .numberOutOfRange rest
  else return .int significand

/-- A number after its sign, evaluated. -/
def number (negative : Bool) : Reader Json := fun s => do
  let (n, r) ← numeral .read s
  let v ← n.value negative r
  return (v, r)

/-! ### Arrays and objects -/

/-- The rest of an array after its opening bracket, item by item. The count bounds the number of
items and is at least the length of the text. -/
def arrayBody {α : Type} (mode : Mode) (item : Reader α) : Nat → Bool → Reader (List α)
  | 0, _, s => failPeek .eofInList s
  | bound + 1, first, s =>
    match skipSpace s with
    | [] => failAt .eofInList []
    | ']' :: r => .ok ([], r)
    | c :: r =>
      if first then do
        let (a, r) ← item (c :: r)
        let (more, r) ← arrayBody mode item bound false r
        return (a :: more, r)
      else if c = ',' then
        match mode, skipSpace r with
        | _, [] => failAt .eofInValue []
        | .read, ']' :: t => failPeek .trailingComma (']' :: t)
        | _, t => do
          let (a, r) ← item t
          let (more, r) ← arrayBody mode item bound false r
          return (a :: more, r)
      else failPeek .expectedListEnd (c :: r)

/-- The colon after a member's name. -/
def colon : Reader Unit := fun s =>
  match skipSpace s with
  | ':' :: r => .ok ((), r)
  | [] => failAt .eofInObject []
  | t => failPeek .expectedColon t

/-- The rest of an object after its opening brace. Each member is handed its name and the state
built so far, with the text right after the name; it reads the colon and the value. -/
def objectBody {σ : Type} (mode : Mode) (member : List Char → σ → Reader σ) :
    Nat → Bool → σ → Reader σ
  | 0, _, _, s => failPeek .eofInObject s
  | bound + 1, first, state, s =>
    match skipSpace s with
    | [] => failAt .eofInObject []
    | '\x7d' :: r => .ok (state, r)
    | c :: r =>
      if first then
        if c = '"' then do
          let (name, r) ← stringBody mode r
          let (state, r) ← member name state r
          objectBody mode member bound false state r
        else failPeek .keyNotString (c :: r)
      else if c = ',' then
        match mode, skipSpace r with
        | .read, [] => failAt .eofInValue []
        | .skip, [] => failAt .eofInObject []
        | _, '"' :: r => do
          let (name, r) ← stringBody mode r
          let (state, r) ← member name state r
          objectBody mode member bound false state r
        | .read, '\x7d' :: t => failPeek .trailingComma ('\x7d' :: t)
        | _, t => failPeek .keyNotString t
      else failPeek .expectedObjectEnd (c :: r)

/-- Any value, nested at most `depth` levels. Members come out in the order written. -/
def value (mode : Mode) : Nat → Reader Json
  | depth, s =>
    match skipSpace s with
    | [] => failAt .eofInValue []
    | 'n' :: r => (word ['u', 'l', 'l'] r).map fun (_, r) => (.null, r)
    | 't' :: r => (word ['r', 'u', 'e'] r).map fun (_, r) => (.bool true, r)
    | 'f' :: r => (word ['a', 'l', 's', 'e'] r).map fun (_, r) => (.bool false, r)
    | '"' :: r => (stringBody mode r).map fun (cs, r) => (.string (String.ofList cs), r)
    | '-' :: r =>
      match mode with
      | .read => number true r
      | .skip => (numeral .skip r).map fun (_, r) => (.null, r)
    | '[' :: r =>
      match depth with
      | 0 => failPeek .tooDeep ('[' :: r)
      | depth + 1 =>
        (arrayBody mode (value mode depth) (r.length + 1) true r).map fun (items, r) =>
          (.array items, r)
    | '\x7b' :: r =>
      match depth with
      | 0 => failPeek .tooDeep ('\x7b' :: r)
      | depth + 1 =>
        let member (name : List Char) (sofar : List (String × Json)) :
            Reader (List (String × Json)) := fun s => do
          let (_, s) ← colon s
          let (v, s) ← value mode depth s
          return ((String.ofList name, v) :: sofar, s)
        (objectBody mode member (r.length + 1) true [] r).map fun (members, r) =>
          (.object members.reverse, r)
    | c :: r =>
      if c.isDigit then
        match mode with
        | .read => number false (c :: r)
        | .skip => (numeral .skip (c :: r)).map fun (_, r) => (.null, r)
      else failPeek .expectedValue (c :: r)

/-- How many levels of arrays and objects are read. -/
def maxDepth : Nat := 127

/-- Pass over a value of any depth. -/
def skipValue : Reader Unit := fun s =>
  (value .skip (s.length + 1) s).map fun (_, r) => ((), r)

/-- Nothing but white space may follow. -/
def finish {α : Type} (read : Reader α) (text : List Char) : Except Fault α := do
  let (a, r) ← read text
  match skipSpace r with
  | [] => return a
  | t => failPeek .trailingCharacters t

def parse (text : List Char) : Except Fault Json := finish (value .read maxDepth) text

end LintRepair.Json
