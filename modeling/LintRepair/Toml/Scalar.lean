import LintRepair.Decimal.Binary64
import LintRepair.Toml.Value

/-!
TOML numbers, truth values, dates and times, all written without quotes. Underscores may stand
between digits only, a decimal number has no leading zero, and a date must exist in the calendar.
-/

namespace LintRepair.Toml

/-- The value of a digit in a base of at most sixteen. -/
def digit? (base : Nat) (c : Char) : Option Nat :=
  let v :=
    if '0' ≤ c ∧ c ≤ '9' then c.toNat - '0'.toNat
    else if 'a' ≤ c ∧ c ≤ 'f' then c.toNat - 'a'.toNat + 10
    else if 'A' ≤ c ∧ c ≤ 'F' then c.toNat - 'A'.toNat + 10
    else 16
  if v < base then some v else none

/-- Digits with single underscores between them, as a number. The flag tells whether the last
character was a digit. -/
def digitRun (base : Nat) : Nat → Bool → List Char → Option Nat
  | n, afterDigit, [] => if afterDigit then some n else none
  | n, afterDigit, c :: rest =>
    if c = '_' then if afterDigit then digitRun base n false rest else none
    else
      match digit? base c with
      | some d => digitRun base (n * base + d) true rest
      | none => none

/-- A decimal number without leading zeros. -/
def plainDecimal (s : List Char) : Option Nat :=
  match s with
  | '0' :: _ :: _ => none
  | _ => digitRun 10 0 false s

/-- A whole number. Signs belong to decimal numbers only. -/
def integer? (s : List Char) : Option Int :=
  match s with
  | '0' :: 'x' :: rest => (digitRun 16 0 false rest).map Int.ofNat
  | '0' :: 'o' :: rest => (digitRun 8 0 false rest).map Int.ofNat
  | '0' :: 'b' :: rest => (digitRun 2 0 false rest).map Int.ofNat
  | '+' :: rest => (plainDecimal rest).map Int.ofNat
  | '-' :: rest => (plainDecimal rest).map fun n => -(n : Int)
  | rest => (plainDecimal rest).map Int.ofNat

/-- The exponent of a floating-point number; none is zero. -/
def exponent? (s : List Char) : Option Int :=
  match s with
  | [] => some 0
  | c :: rest =>
    if c = 'e' ∨ c = 'E' then
      match rest with
      | '+' :: ds => (digitRun 10 0 false ds).map Int.ofNat
      | '-' :: ds => (digitRun 10 0 false ds).map fun n => -(n : Int)
      | ds => (digitRun 10 0 false ds).map Int.ofNat
    else none

/-- Whether a significand and a power of ten give a number within the range of doubles. -/
def isFinite (significand : Nat) (e : Int) : Bool :=
  let place : Int := (Nat.toDigits 10 significand).length + e
  if significand = 0 ∨ place < 300 then true
  else if 320 < place then false
  else if 0 ≤ e then (Decimal.Binary64.ofRatio (significand * Nat.pow 10 e.toNat) 1).isSome
  else (Decimal.Binary64.ofRatio significand (Nat.pow 10 (-e).toNat)).isSome

/-- A floating-point number without its sign. -/
def unsignedFloat? (s : List Char) : Option Toml :=
  if s = "inf".toList ∨ s = "nan".toList then some (.float true)
  else
    let isStop (c : Char) : Bool := c == '.' || c == 'e' || c == 'E'
    let front := s.takeWhile (!isStop ·)
    match plainDecimal front, s.drop front.length with
    | some whole, '.' :: rest =>
      let fraction := rest.takeWhile (!isStop ·)
      match digitRun 10 whole false fraction, exponent? (rest.drop fraction.length) with
      | some n, some e =>
        some (.float (isFinite n (e - (fraction.filter Char.isDigit).length)))
      | _, _ => none
    | some n, c :: rest => (exponent? (c :: rest)).map fun e => .float (isFinite n e)
    | _, _ => none

def float? (s : List Char) : Option Toml :=
  match s with
  | '+' :: rest => unsignedFloat? rest
  | '-' :: rest => unsignedFloat? rest
  | rest => unsignedFloat? rest

/-! ### Dates and times -/

/-- A number of exactly so many digits, and what follows it. -/
def fixedDigits (count : Nat) (s : List Char) : Option (Nat × List Char) :=
  let run := s.takeWhile Char.isDigit
  if run.length = count then (digitRun 10 0 false run).map fun n => (n, s.drop count) else none

/-- What follows a given character. -/
def after? (c : Char) : List Char → Option (List Char)
  | d :: rest => if c = d then some rest else none
  | [] => none

def daysIn (year month : Nat) : Nat :=
  if month = 2 then
    if year % 4 = 0 ∧ (year % 100 ≠ 0 ∨ year % 400 = 0) then 29 else 28
  else if month = 4 ∨ month = 6 ∨ month = 9 ∨ month = 11 then 30
  else 31

def date? (s : List Char) : Option (List Char) := do
  let (year, s) ← fixedDigits 4 s
  let s ← after? '-' s
  let (month, s) ← fixedDigits 2 s
  let s ← after? '-' s
  let (day, s) ← fixedDigits 2 s
  if 1 ≤ month ∧ month ≤ 12 ∧ 1 ≤ day ∧ day ≤ daysIn year month then some s else none

/-- What follows a time of day; the seconds may be missing, and a leap second is allowed. -/
def time? (s : List Char) : Option (List Char) := do
  let (hour, s) ← fixedDigits 2 s
  let s ← after? ':' s
  let (minute, s) ← fixedDigits 2 s
  if 23 < hour ∨ 59 < minute then none
  else
    match s with
    | ':' :: s => do
      let (second, s) ← fixedDigits 2 s
      if 60 < second then none
      else
        match s with
        | '.' :: s =>
          let fraction := s.takeWhile Char.isDigit
          if fraction.isEmpty then none else some (s.drop fraction.length)
        | s => some s
    | s => some s

/-- What follows the distance from universal time, which may be missing. -/
def offset? (s : List Char) : Option (List Char) :=
  match s with
  | [] => some []
  | c :: rest =>
    if c = 'Z' ∨ c = 'z' then some rest
    else if c = '+' ∨ c = '-' then do
      let (hours, s) ← fixedDigits 2 rest
      let s ← after? ':' s
      let (minutes, s) ← fixedDigits 2 s
      if 23 < hours ∨ 59 < minutes then none else some s
    else some (c :: rest)

/-- Whether a text is a time of day, a date, or both with or without an offset. -/
def isDatetime (s : List Char) : Bool :=
  match date? s with
  | none => time? s == some []
  | some [] => true
  | some (c :: rest) =>
    (c == 'T' || c == 't' || c == ' ') &&
      match time? rest with
      | some s => offset? s == some []
      | none => false

/-- The value of a text without quotes. -/
def scalar? (s : List Char) : Option Toml :=
  if s = "true".toList then some (.boolean true)
  else if s = "false".toList then some (.boolean false)
  else if isDatetime s then some .datetime
  else
    match integer? s with
    | some i => some (.integer i)
    | none => float? s

end LintRepair.Toml
