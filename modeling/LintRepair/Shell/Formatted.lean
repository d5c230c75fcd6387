import LintRepair.Decimal.Binary64
import LintRepair.Shell.Number

/-!
Text with escapes and places for arguments, as the printing commands of a shell take it.
-/

namespace LintRepair.Shell

/-! ### Escapes -/

def isOctal (c : Char) : Bool := '0' ≤ c && c ≤ '7'

/-- The byte of octal digits; what exceeds a byte is cut off. -/
def octalByte (digits : Raw) : Char := Char.ofNat (Number.value 8 digits % 256)

def letterEscapes : List (Char × Char) :=
  [('\\', '\\'), ('a', '\x07'), ('b', '\x08'), ('f', '\x0c'), ('n', '\n'), ('r', '\r'),
    ('t', '\t'), ('v', '\x0b')]

/-- The character of an escape after its backslash, with what is left. An escape that is unknown is
a backslash. -/
def escapeAt (s : Raw) : Char × Raw :=
  match s with
  | [] => ('\\', [])
  | c :: rest =>
    if isOctal c then
      let digits := (s.take 3).takeWhile isOctal
      (octalByte digits, s.drop digits.length)
    else
      match letterEscapes.lookup c with
      | some d => (d, rest)
      | none => ('\\', s)

/-- The text with its escapes replaced, and whether one says that nothing is to follow. Octal digits
may have one more zero in front. -/
def unescaped : Nat → Raw → Raw × Bool
  | 0, _ => ([], false)
  | _, [] => ([], false)
  | bound + 1, '\\' :: s =>
    match s with
    | 'c' :: _ => ([], true)
    | '0' :: d :: rest =>
      let (c, rest) := escapeAt (if isOctal d then d :: rest else s)
      let (text, ended) := unescaped bound rest
      (c :: text, ended)
    | _ =>
      let (c, rest) := escapeAt s
      let (text, ended) := unescaped bound rest
      (c :: text, ended)
  | bound + 1, c :: s =>
    let (text, ended) := unescaped bound s
    (c :: text, ended)

/-- The arguments with blanks between them and the end of a line, their escapes replaced. -/
def echoed (withLine : Bool) : List Raw → Raw
  | [] => if withLine then ['\n'] else []
  | a :: rest =>
    let (text, ended) := unescaped (a.length + 1) a
    if ended then text
    else if rest.isEmpty then if withLine then text ++ ['\n'] else text
    else text ++ ' ' :: echoed withLine rest

/-! ### Numbers in a format -/

/-- A place for an argument: flags, the least width, how much of the value is shown, and the letter
that tells what the value is. -/
structure Place where
  flags : Raw := []
  width : Nat := 0
  precision : Option Nat := none
  letter : Char := 's'

namespace Place

def has (p : Place) (flag : Char) : Bool := p.flags.contains flag

/-- Fill up to the width, with zeros between a sign and the digits if asked for. -/
def filled (p : Place) (zeros : Bool) (sign body : Raw) : Raw :=
  let missing := p.width - (sign.length + body.length)
  if p.has '-' then sign ++ body ++ List.replicate missing ' '
  else if zeros && p.has '0' then sign ++ List.replicate missing '0' ++ body
  else List.replicate missing ' ' ++ sign ++ body

/-- A text, cut to the precision. -/
def text (p : Place) (s : Raw) : Raw :=
  p.filled false [] (match p.precision with
    | some n => s.take n
    | none => s)

def sign (p : Place) (negative : Bool) : Raw :=
  if negative then ['-']
  else if p.has '+' then ['+']
  else if p.has ' ' then [' ']
  else []

/-- Digits of a whole number, with at least as many as the precision asks for. -/
def digits (p : Place) (base n : Nat) : Raw :=
  let ds := if n = 0 && p.precision == some 0 then [] else Nat.toDigits base n
  List.replicate (p.precision.getD 0 - ds.length) '0' ++ ds

def signed (p : Place) (n : Int) : Raw :=
  p.filled p.precision.isNone (p.sign (n < 0)) (p.digits 10 n.natAbs)

/-- A whole number without a sign, in the base of the letter. -/
def unsigned (p : Place) (n : Nat) : Raw :=
  let plain := p.filled p.precision.isNone
  if p.letter == 'o' then
    let ds := p.digits 8 n
    plain [] (if p.has '#' && ds.head? != some '0' then '0' :: ds else ds)
  else if p.letter == 'x' then
    plain (if p.has '#' && n != 0 then ['0', 'x'] else []) (p.digits 16 n)
  else if p.letter == 'X' then
    plain (if p.has '#' && n != 0 then ['0', 'X'] else []) ((p.digits 16 n).map Char.toUpper)
  else plain [] (p.digits 10 n)

/-- A quotient as digits with a number of them behind the point. -/
def fixed (p : Place) (places num den : Nat) : Raw :=
  let n := Decimal.Binary64.nearest (num * Nat.pow 10 places) den
  let ds := Nat.toDigits 10 n
  let ds := List.replicate (places + 1 - ds.length) '0' ++ ds
  let whole := ds.take (ds.length - places)
  let part := ds.drop (ds.length - places)
  if part.isEmpty && !p.has '#' then whole else whole ++ '.' :: part

/-- The exponent of ten of a quotient that is not zero. The bound is a number of steps. -/
def exponentOf : Nat → Nat → Nat → Int → Int
  | 0, _, _, e => e
  | bound + 1, num, den, e =>
    if den * 10 ≤ num then exponentOf bound num (den * 10) (e + 1)
    else if num < den then exponentOf bound (num * 10) den (e - 1)
    else e

/-- The steps that are enough to find the exponent of any double. -/
def exponentBound : Nat := 400

/-- A quotient as digits with a power of ten: the digits in front and the exponent. -/
def scientificParts (places num den : Nat) : Nat × Int :=
  if num = 0 then (0, 0)
  else
    let e := exponentOf exponentBound num den 0
    let (a, b) :=
      if 0 ≤ e then (num, den * Nat.pow 10 e.toNat) else (num * Nat.pow 10 (-e).toNat, den)
    let n := Decimal.Binary64.nearest (a * Nat.pow 10 places) b
    if n = Nat.pow 10 (places + 1) then (Nat.pow 10 places, e + 1) else (n, e)

def exponentText (e : Int) : Raw :=
  let ds := Nat.toDigits 10 e.natAbs
  ['e', if e < 0 then '-' else '+'] ++ List.replicate (2 - ds.length) '0' ++ ds

/-- Digits with a point after the first. -/
def pointed (p : Place) (places : Nat) (n : Nat) : Raw :=
  let ds := Nat.toDigits 10 n
  let ds := ds ++ List.replicate (places + 1 - ds.length) '0'
  let part := (ds.drop 1).take places
  ds.take 1 ++ (if part.isEmpty && !p.has '#' then [] else '.' :: part)

/-- A number without the zeros at the end of its part behind the point. -/
def withoutZeros (s : Raw) : Raw :=
  if s.contains '.' then
    let kept := s.reverse.dropWhile (· == '0')
    (if kept.head? == some '.' then kept.drop 1 else kept).reverse
  else s

/-- A magnitude as the letter asks for it. -/
def magnitude (p : Place) (num den : Nat) : Raw :=
  let precision := p.precision.getD 6
  let lower := p.letter.toLower
  if lower == 'f' then p.fixed precision num den
  else if lower == 'e' then
    let (n, e) := scientificParts precision num den
    p.pointed precision n ++ exponentText e
  else
    let count := if precision = 0 then 1 else precision
    let (n, e) := scientificParts (count - 1) num den
    let trim (s : Raw) := if p.has '#' then s else withoutZeros s
    if e < -4 || (count : Int) ≤ e then trim (p.pointed (count - 1) n) ++ exponentText e
    else trim (p.fixed ((count : Int) - 1 - e).toNat num den)

/-- A number that need not be whole. -/
def real (p : Place) (negative : Bool) (x : Option Decimal.Binary64) : Raw :=
  let cased (s : Raw) : Raw := if p.letter.isUpper then s.map Char.toUpper else s
  match x with
  | none => p.filled false (p.sign negative) (cased "inf".toList)
  | some x =>
    let (num, den) := x.ratio
    p.filled true (p.sign negative) (cased (p.magnitude num den))

end Place

/-! ### Formats -/

/-- What printing in a format gives: the text, complaints about arguments, and what the format
cannot have, if it ends the command. -/
structure Formatted where
  text : List Raw := []
  complaints : List Raw := []
  refusal : Option Raw := none
  ended : Bool := false

/-- A format being carried out: the arguments left, and what it gave so far, in reverse order. -/
structure Formatting where
  arguments : List Raw
  taken : Bool := false
  result : Formatted := {}

namespace Formatting

def push (f : Formatting) (s : Raw) : Formatting :=
  { f with result := { f.result with text := s :: f.result.text } }

def complain (f : Formatting) (s : Raw) : Formatting :=
  { f with result := { f.result with complaints := s :: f.result.complaints } }

def take (f : Formatting) : Option Raw × Formatting :=
  match f.arguments with
  | a :: rest => (some a, { f with arguments := rest, taken := true })
  | [] => (none, f)

/-- A complaint about an argument of which some part is no number. -/
def check (f : Formatting) (argument rest : Raw) (inRange : Bool) : Formatting :=
  if rest.isEmpty then
    if inRange then f else f.complain (argument ++ ": Numerical result out of range".toList)
  else if rest == argument then f.complain (argument ++ ": expected numeric value".toList)
  else f.complain (argument ++ ": not completely converted".toList)

/-- The greatest number without a sign. -/
def greatestUnsigned : Nat := 18446744073709551615

/-- The next argument as a whole number; a quote in front of a character stands for its code. -/
def takeWhole (isSigned : Bool) (f : Formatting) : Int × Formatting :=
  match f.take with
  | (none, f) => (0, f)
  | (some argument, f) =>
    match argument with
    | '"' :: rest => (((rest.head?.map Char.toNat).getD 0 : Nat), f)
    | '\'' :: rest => (((rest.head?.map Char.toNat).getD 0 : Nat), f)
    | _ =>
      if isSigned then
        match Number.front? 0 argument with
        | some n => (n.value, f.check argument n.rest n.inRange)
        | none => (0, f.check argument argument true)
      else
        let blanks := argument.takeWhile isBlank
        let (negative, digits) := match argument.drop blanks.length with
          | '-' :: s => (true, s)
          | '+' :: s => (false, s)
          | s => (false, s)
        match Number.unsigned? 0 digits with
        | some (n, rest) =>
          let inRange := n ≤ greatestUnsigned
          let n : Nat := if inRange then n else greatestUnsigned
          let value : Nat := if negative && inRange && n != 0 then greatestUnsigned + 1 - n else n
          (value, f.check argument rest inRange)
        | none => (0, f.check argument argument true)

/-- Digits with a point among them at the front of a text: their value, how many stand behind the
point, and what is left; `none` if there are none. -/
def pointedDigits (base : Nat) (s : Raw) : Option (Nat × Nat × Raw) :=
  let whole := s.takeWhile (Number.isDigit base)
  let (part, rest) : Raw × Raw := match s.drop whole.length with
    | '.' :: t =>
      let part := t.takeWhile (Number.isDigit base)
      (part, if whole.isEmpty && part.isEmpty then '.' :: t else t.drop part.length)
    | t => ([], t)
  if whole.isEmpty && part.isEmpty then none
  else some (Number.value base (whole ++ part), part.length, rest)

/-- The exponent behind one of two letters, with what is left. -/
def exponentAt (letter : Char) (s : Raw) : Int × Raw :=
  match s with
  | e :: t =>
    if e.toLower == letter then
      let (down, ds) := match t with
        | '-' :: u => (true, u)
        | '+' :: u => (false, u)
        | u => (false, u)
      let n := ds.takeWhile Char.isDigit
      if n.isEmpty then (0, s)
      else
        let size : Int := Number.value 10 n
        (if down then -size else size, ds.drop n.length)
    else (0, s)
  | [] => (0, [])

/-- Exponents beyond this leave no finite number but zero. -/
def exponentLimit : Int := 5000

/-- The double nearest to digits with a power of a base. -/
def scaled (base digits : Nat) (exponent : Int) : Option Decimal.Binary64 :=
  if digits = 0 then some .zero
  else if exponentLimit < exponent then none
  else if exponent < -exponentLimit then some .zero
  else if 0 ≤ exponent then Decimal.Binary64.ofRatio (digits * Nat.pow base exponent.toNat) 1
  else Decimal.Binary64.ofRatio digits (Nat.pow base (-exponent).toNat)

/-- The magnitude at the front of a text, none inside if it is infinite, with what is left. -/
def magnitudeAt (s : Raw) : Option (Option Decimal.Binary64 × Raw) :=
  let decimal : Option (Option Decimal.Binary64 × Raw) :=
    (pointedDigits 10 s).map fun (digits, places, rest) =>
      let (exponent, rest) := exponentAt 'e' rest
      (scaled 10 digits (exponent - places), rest)
  match s with
  | '0' :: x :: t =>
    if x == 'x' || x == 'X' then
      match pointedDigits 16 t with
      | some (digits, places, rest) =>
        let (exponent, rest) := exponentAt 'p' rest
        some (scaled 2 digits (exponent - 4 * places), rest)
      | none => decimal
    else decimal
  | _ =>
    if (s.take 3).map Char.toLower == "inf".toList then some (none, s.drop 3) else decimal

/-- The next argument as a number that need not be whole: its sign and its magnitude, none if that
is infinite. -/
def takeReal (f : Formatting) : (Bool × Option Decimal.Binary64) × Formatting :=
  match f.take with
  | (none, f) => ((false, some .zero), f)
  | (some argument, f) =>
    let code (rest : Raw) := scaled 10 ((rest.head?.map Char.toNat).getD 0) 0
    match argument.dropWhile isBlank with
    | '"' :: rest => ((false, code rest), f)
    | '\'' :: rest => ((false, code rest), f)
    | s =>
      let (negative, s) := match s with
        | '-' :: s => (true, s)
        | '+' :: s => (false, s)
        | s => (false, s)
      match magnitudeAt s with
      | some (x, rest) =>
        ((negative, x), f.check argument rest (x.isSome || !s.any Char.isDigit))
      | none => ((false, some .zero), f.check argument argument true)

/-- Print the next argument at a place; `none` if the letter is unknown. -/
def place (p : Place) (f : Formatting) : Option Formatting :=
  let c := p.letter
  if c == 's' then
    let (s, f) := f.take
    some (f.push (p.text (s.getD [])))
  else if c == 'b' then
    let (s, f) := f.take
    let s := s.getD []
    let (text, ended) := unescaped (s.length + 1) s
    some ({ f with result := { f.result with ended := ended } }.push (p.text text))
  else if c == 'c' then
    let (s, f) := f.take
    let c := (s.getD []).head?.getD '\x00'
    some (f.push (p.filled false [] [c]))
  else if c == 'd' || c == 'i' then
    let (n, f) := f.takeWhole true
    some (f.push (p.signed n))
  else if "ouxX".toList.contains c then
    let (n, f) := f.takeWhole false
    some (f.push (p.unsigned n.toNat))
  else if "eEfFgG".toList.contains c then
    let ((negative, x), f) := f.takeReal
    some (f.push (p.real negative x))
  else none

/-- The number of values of a width or precision. -/
def sizeModulus : Nat := 4294967296

/-- A width or precision at the front: digits, or a star that takes an argument. A negative one is
told apart. -/
def size (s : Raw) (f : Formatting) : Option Int × Raw × Formatting :=
  match s with
  | '*' :: rest =>
    let (n, f) := f.takeWhole true
    (some (n.bmod sizeModulus), rest, f)
  | s =>
    let digits := s.takeWhile Char.isDigit
    let rest := (s.drop digits.length).dropWhile fun c => c.isDigit || c == '*'
    (if digits.isEmpty then none else some (Number.value 10 digits), rest, f)

def once : Nat → Raw → Formatting → Formatting
  | 0, _, f => f
  | _, [], f => f
  | bound + 1, '\\' :: s, f =>
    let (c, rest) := escapeAt s
    once bound rest (f.push [c])
  | bound + 1, '%' :: '%' :: s, f => once bound s (f.push ['%'])
  | bound + 1, '%' :: s, f =>
    let flags := s.takeWhile fun c => "#-+ 0".toList.contains c
    let (width, rest, f) := f.size (s.drop flags.length)
    let (precision, rest, f) : Option Int × Raw × Formatting := match rest with
      | '.' :: rest =>
        let (n, rest, f) := f.size rest
        (some (n.getD 0), rest, f)
      | rest => (none, rest, f)
    let width := width.getD 0
    match rest with
    | [] =>
      { f with result := { f.result with refusal := some "missing format character".toList } }
    | c :: after =>
      let p : Place := {
        flags := if width < 0 then '-' :: flags else flags
        width := width.natAbs
        precision := precision.bind fun n => if n < 0 then none else some n.toNat
        letter := c }
      match f.place p with
      | some f => if f.result.ended then f else once bound after f
      | none =>
        let directive := '%' :: s.take (s.length - after.length)
        { f with
          result := { f.result with refusal := some (directive ++ ": invalid directive".toList) } }
  | bound + 1, c :: s, f => once bound s (f.push [c])

/-- Carry out a format as often as there are arguments for it. -/
def repeated (format : Raw) : Nat → Formatting → Formatting
  | 0, f => f
  | bound + 1, f =>
    let g := once (format.length + 1) format { f with taken := false }
    if g.result.ended || g.result.refusal.isSome || !g.taken || g.arguments.isEmpty then g
    else repeated format bound g

end Formatting

def formatted (format : Raw) (arguments : List Raw) : Formatted :=
  (Formatting.repeated format (arguments.length + 1) { arguments := arguments }).result

end LintRepair.Shell
