import LintRepair.Shell.Formatted
import LintRepair.Shell.Regular.Matching
import LintRepair.Shell.Tool

/-!
Programs that calculate: rows of numbers, and expressions over numbers and texts.
-/

namespace LintRepair.Shell.Tool

open Working

/-! ### Rows of numbers -/

/-- A number with decimal places: how many units of the last place it has, and how many places. -/
structure Scaled where
  units : Int
  places : Nat
  width : Nat

namespace Scaled

/-- The units of a number at a place that is at least as far behind the point. -/
def unitsAt (x : Scaled) (places : Nat) : Int := x.units * Nat.pow 10 (places - x.places)

/-- The number that a text stands for. -/
def ofText? (s : Raw) : Option Scaled :=
  let (negative, bare) := match s.dropWhile isBlank with
    | '-' :: s => (true, s)
    | '+' :: s => (false, s)
    | s => (false, s)
  let signed (n : Nat) : Int := if negative then -n else n
  let width := bare.length + (if negative then 1 else 0)
  let whole := bare.takeWhile Char.isDigit
  let hexadecimal : Option Scaled := match bare with
    | '0' :: x :: ds =>
      if (x == 'x' || x == 'X') && !ds.isEmpty && ds.all (Number.isDigit 16) then
        some ⟨signed (Number.value 16 ds), 0, width⟩
      else none
    | _ => none
  let (part, rest) : Raw × Raw := match bare.drop whole.length with
    | '.' :: s =>
      let part := s.takeWhile Char.isDigit
      (part, s.drop part.length)
    | s => ([], s)
  let units := signed (Number.value 10 (whole ++ part))
  match hexadecimal with
  | some x => some x
  | none =>
    if whole.isEmpty && part.isEmpty then none
    else if rest.isEmpty then some ⟨units, part.length, width⟩
    else
      let (exponent, left) := exponentAt rest
      if !left.isEmpty then none
      else if exponent < 0 then some ⟨units, part.length + exponent.natAbs, width⟩
      else if exponent.natAbs ≤ part.length then
        some ⟨units, part.length - exponent.natAbs, width⟩
      else some ⟨units * Nat.pow 10 (exponent.natAbs - part.length), 0, width⟩
where
  /-- A power of ten behind the digits. -/
  exponentAt (s : Raw) : Int × Raw :=
    match Formatting.exponentAt 'e' s with
    | (e, rest) => if Formatting.exponentLimit < e.natAbs then (0, s) else (e, rest)

/-- A number of units written out with a point before the last places. -/
def textOf (places : Nat) (units : Int) : Raw :=
  let digits := Raw.ofNat units.natAbs
  let filled := List.replicate (places + 1 - digits.length) '0' ++ digits
  let whole := filled.take (filled.length - places)
  let sign := if units < 0 then ['-'] else []
  sign ++ whole ++ (if places = 0 then [] else '.' :: filled.drop whole.length)

/-- A number written with zeros in front until it has a width. -/
def wide (width : Nat) (s : Raw) : Raw :=
  match s with
  | '-' :: ds => '-' :: List.replicate (width - s.length) '0' ++ ds
  | ds => List.replicate (width - s.length) '0' ++ ds

/-- The width of the number as it was written, at a number of places. -/
def widthAt (x : Scaled) (places : Nat) : Nat :=
  let whole := if x.places = 0 then x.width else x.width - (x.places + 1)
  if places = 0 then whole else whole + places + 1

end Scaled

/-- Whether an argument begins like an option but is a negative number. -/
def isNegative (s : Raw) : Bool :=
  match s with
  | '-' :: c :: _ => c.isDigit || c == '.'
  | _ => false

/-- Split arguments in front of the first negative number. -/
def beforeNegative (arguments : List Raw) : List Raw × List Raw :=
  let front := arguments.takeWhile fun a => !isNegative a
  (front, arguments.drop front.length)

def seq : Tool := fun arguments => do
  let (front, behind) := beforeNegative arguments
  let g ← given (plainRules [('w', "equal-width")] ++ valuedRules [('s', "separator"),
    ('f', "format")]) 1 true (front.length + 1) front
  let operands := g.operands ++ behind
  let read (s : Raw) : Working Scaled :=
    match Scaled.ofText? s with
    | some x => pure x
    | none => misused 1 ("invalid floating point argument: ".toList ++ quoted s)
  let one : Scaled := ⟨1, 0, 1⟩
  let (first, step, last) ← match operands with
    | [] => misused 1 "missing operand".toList
    | [last] => pure (one, one, ← read last)
    | [first, last] => pure (← read first, one, ← read last)
    | [first, step, last] =>
      let a ← read first
      let b ← read step
      if b.units = 0 then
        misused 1 ("invalid Zero increment value: ".toList ++ quoted step)
      pure (a, b, ← read last)
    | _ :: _ :: _ :: extra :: _ => misused 1 ("extra operand ".toList ++ quoted extra)
  let fine := first.places.max (step.places.max last.places)
  let a := first.unitsAt fine
  let b := step.unitsAt fine
  let c := last.unitsAt fine
  let count := if 0 < b then (c - a) / b + 1 else (a - c) / (-b) + 1
  let places := first.places.max step.places
  let shown (i : Nat) : Int := (a + b * i) / (Nat.pow 10 (fine - places) : Nat)
  let width := if g.has 'w' then (first.widthAt places).max (last.widthAt places) else 0
  let number (i : Nat) : Raw := Scaled.wide width (Scaled.textOf places (shown i))
  let texts ← match g.value? 'f' with
    | none => pure ((List.range count.toNat).map number)
    | some format =>
      if !format.contains '%' then
        fail 1 ("format ".toList ++ quoted format ++ " has no % directive".toList)
      pure ((List.range count.toNat).map fun i =>
        ((formatted format [Scaled.textOf places (shown i)]).text.reverse).flatten)
  if !texts.isEmpty then printLine (((g.value? 's').getD ['\n']).intercalate texts)

/-! ### Expressions -/

/-- The value of an expression, which is a text; it may count as a number. -/
abbrev Value := Raw

namespace Value

def number? (v : Value) : Option Int :=
  let digits := match v with
    | '-' :: ds => ds
    | ds => ds
  if digits.isEmpty || !digits.all Char.isDigit then none
  else
    let n : Int := Number.value 10 digits
    some (if v.head? == some '-' then -n else n)

/-- Whether a value counts as nothing: it is empty or zero. -/
def isNull (v : Value) : Bool :=
  v.isEmpty || (v.number? == some 0 && v.all fun c => c == '0' || c == '-')

def ofBool (b : Bool) : Value := if b then ['1'] else ['0']

end Value

namespace Calculation

def fault {α : Type} (text : Raw) : Working α := fail 2 text

/-- A fault in how an expression is written. -/
def misread {α : Type} (text : Raw) : Working α := fault ("syntax error: ".toList ++ text)

def number (v : Value) : Working Int :=
  match v.number? with
  | some n => pure n
  | none => fault "non-integer argument".toList

/-- What an operator makes of two numbers. -/
def combined (operator : Raw) (a b : Value) : Working Value := do
  let m ← number a
  let n ← number b
  if operator == ['+'] then return Raw.ofInt (m + n)
  else if operator == ['-'] then return Raw.ofInt (m - n)
  else if operator == ['*'] then return Raw.ofInt (m * n)
  else if n = 0 then fault "division by zero".toList
  else if operator == ['/'] then return Raw.ofInt (m.tdiv n)
  else return Raw.ofInt (m.tmod n)

/-- Whether a comparison holds, of numbers if both sides are numbers. -/
def compared (operator : Raw) (a b : Value) : Bool :=
  let (less, equal) : Bool × Bool := match a.number?, b.number? with
    | some m, some n => (m < n, m == n)
    | _, _ => (Raw.isUpTo a b && a != b, a == b)
  if operator == ['<'] then less
  else if operator == ['<', '='] then less || equal
  else if operator == ['='] || operator == ['=', '='] then equal
  else if operator == ['!', '='] then !equal
  else if operator == ['>', '='] then !less
  else !less && !equal

/-- What a text has in common with a pattern from its start: the part in the first group, or if
there is none, the length. -/
def matched (text pattern : Value) : Working Value := do
  match Regular.read false true pattern with
  | .error reason => fault reason.text.toList
  | .ok (r, _) =>
    let hasGroup := Regular.hasGroup r
    match r.matchAtStart text with
    | some found =>
      return if hasGroup then found.group text 1 else Raw.ofNat (found.last - found.first)
    | none => return if hasGroup then [] else ['0']

/-- The operators that bind equally, loosest first. -/
def levels : List (List String) :=
  [["|"], ["&"], ["<", "<=", "=", "==", "!=", ">=", ">"], ["+", "-"], ["*", "/", "%"], [":"]]

def isAmong (operators : List String) (word : Raw) : Bool := operators.any (·.toList == word)

/-- What an operator makes of two values. -/
def applied (operator : Raw) (a b : Value) : Working Value :=
  if operator == ['|'] then
    pure (if !a.isNull then a else if b.isNull then ['0'] else b)
  else if operator == ['&'] then pure (if a.isNull || b.isNull then ['0'] else a)
  else if operator == [':'] then matched a b
  else if isAmong ["+", "-", "*", "/", "%"] operator then combined operator a b
  else pure (Value.ofBool (compared operator a b))

def substring (text place length : Value) : Value :=
  match place.number?, length.number? with
  | some i, some n => if i ≤ 0 || n ≤ 0 then [] else (text.drop (i.toNat - 1)).take n.toNat
  | _, _ => []

/-- The place of the first character of a text that is in a set; zero if there is none. -/
def placeOf (text set : Value) : Value :=
  match text.findIdx? fun c => set.contains c with
  | some i => Raw.ofNat (i + 1)
  | none => ['0']

mutual

/-- The value of a chain of operands at a level, with the words left. -/
def chain : Nat → Nat → Raw → List Raw → Working (Value × List Raw)
  | 0, _, _, words => pure ([], words)
  | bound + 1, level, before, words => do
    match levels[level]? with
    | none => single bound before words
    | some operators =>
      let (a, words) ← chain bound (level + 1) before words
      rest bound level operators a words

/-- The value of what follows in a chain. -/
def rest : Nat → Nat → List String → Value → List Raw → Working (Value × List Raw)
  | 0, _, _, a, words => pure (a, words)
  | bound + 1, level, operators, a, words => do
    match words with
    | operator :: words =>
      if isAmong operators operator then
        let (b, left) ← chain bound (level + 1) operator words
        rest bound level operators (← applied operator a b) left
      else return (a, operator :: words)
    | [] => return (a, [])

/-- The value of a single operand, with the words left. -/
def single : Nat → Raw → List Raw → Working (Value × List Raw)
  | 0, _, words => pure ([], words)
  | bound + 1, before, words => do
    match words with
    | [] => misread ("missing argument after ".toList ++ quoted before)
    | ['+'] :: word :: words => return (word, words)
    | ['+'] :: [] => misread ("missing argument after ".toList ++ quoted ['+'])
    | ['('] :: words =>
      let (a, left) ← chain bound 0 ['('] words
      match left with
      | [')'] :: left => return (a, left)
      | [] =>
        misread ("expecting ')' after ".toList ++ quoted (words.getLastD ['(']))
      | other :: _ => misread ("expecting ')' instead of ".toList ++ quoted other)
    | [')'] :: _ => misread "unexpected ')'".toList
    | word :: words =>
      if word == "length".toList then
        let (a, left) ← single bound word words
        return (Raw.ofNat a.length, left)
      else if word == "match".toList then
        let (a, left) ← single bound word words
        let (b, left) ← single bound (words.headD []) left
        return (← matched a b, left)
      else if word == "index".toList then
        let (a, left) ← single bound word words
        let (b, left) ← single bound (words.headD []) left
        return (placeOf a b, left)
      else if word == "substr".toList then
        let (a, left) ← single bound word words
        let (b, left) ← single bound (words.headD []) left
        let (c, left) ← single bound (words.getD 1 []) left
        return (substring a b c, left)
      else return (word, words)

end

end Calculation

/-- Write the value of an expression. -/
def expr : Tool := fun arguments => do
  let words := match arguments with
    | ['-', '-'] :: rest => rest
    | all => all
  if words.isEmpty then misused 2 "missing operand".toList
  let (value, left) ← Calculation.chain (16 * words.length + 16) 0 [] words
  match left with
  | [] =>
    printLine value
    atLeast (if value.isNull then 1 else 0)
  | word :: _ => Calculation.misread ("unexpected argument ".toList ++ quoted word)

end LintRepair.Shell.Tool
