import LintRepair.Decimal.Binary64

/-!
The shortest decimal text of a double. Of all decimals that round to the double, those with the
fewest digits are taken, and of these the nearest one.
-/

namespace LintRepair.Decimal

/-- The reals that round to a double, as numerators over one denominator; the ends belong to it
exactly when the mantissa is even. -/
structure Interval where
  lower : Nat
  upper : Nat
  denominator : Nat
  closed : Bool

/-- The rounding interval of a magnitude. Below a power of two the next double is half as far. -/
def Binary64.interval (x : Binary64) : Interval :=
  let narrow := x.mantissa == hiddenBit && decide (-1074 < x.exponent)
  let lower := if narrow then 4 * x.mantissa - 1 else 4 * x.mantissa - 2
  let upper := 4 * x.mantissa + 2
  let closed := x.mantissa % 2 == 0
  if 2 ≤ x.exponent then
    let unit := Nat.pow 2 (x.exponent - 2).toNat
    ⟨lower * unit, upper * unit, 1, closed⟩
  else ⟨lower, upper, Nat.pow 2 (2 - x.exponent).toNat, closed⟩

/-- Whether the decimal `digits · 10 ^ e` lies in the interval. -/
def Interval.holds (i : Interval) (digits : Nat) (e : Int) : Bool :=
  let (value, scale) :=
    if 0 ≤ e then (digits * Nat.pow 10 e.toNat * i.denominator, 1)
    else (digits * i.denominator, Nat.pow 10 (-e).toNat)
  if i.closed then decide (i.lower * scale ≤ value) && decide (value ≤ i.upper * scale)
  else decide (i.lower * scale < value) && decide (value < i.upper * scale)

/-- The place of the leading decimal digit of `n / d`, as a power of ten. -/
def leadingPlace (n d : Nat) : Int :=
  if d ≤ n then ((Nat.toDigits 10 (n / d)).length : Int) - 1
  else
    let k := (Nat.toDigits 10 (d / n)).length
    if n * Nat.pow 10 (k - 1) < d then -(k : Int) else -((k : Int) - 1)

/-- On the decimal grid of step `10 ^ e`, the neighbour of `n / d` that lies in the interval; of
two the nearer, and of two equally near the even one. -/
def gridPoint (n d : Nat) (i : Interval) (e : Int) : Option Nat :=
  let (a, b) := if 0 ≤ e then (n, d * Nat.pow 10 e.toNat) else (n * Nat.pow 10 (-e).toNat, d)
  let below := a / b
  let r := a % b
  let nearer := if 2 * r < b ∨ (2 * r = b ∧ below % 2 = 0) then below else below + 1
  let farther := if nearer = below then below + 1 else below
  if nearer ≠ 0 ∧ i.holds nearer e then some nearer
  else if farther ≠ 0 ∧ i.holds farther e then some farther
  else none

def searchGrids (n d : Nat) (i : Interval) (top : Int) : Nat → Nat → Nat × Int
  | 0, _ => (n / d, 0)
  | fuel + 1, count =>
    let e := top - (count : Int)
    match gridPoint n d i e with
    | some digits => (digits, e)
    | none => searchGrids n d i top fuel (count + 1)

/-- The shortest digits of a positive magnitude and the power of ten they stand at. Seventeen
digits always suffice. -/
def Binary64.shortest (x : Binary64) : Nat × Int :=
  let (n, d) := x.ratio
  searchGrids n d x.interval (leadingPlace n d) 18 0

/-- Digits without the zeros at their end. -/
def stripZeros (digits : List Char) : List Char :=
  (digits.reverse.dropWhile (· == '0')).reverse

/-- The text of a magnitude: plain notation, always with a point, while the leading digit stands
between `10 ^ -5` and `10 ^ 15`; otherwise an exponent with a sign. -/
def Binary64.text (x : Binary64) : List Char :=
  if x.isZero then ['0', '.', '0']
  else
    let (n, e) := x.shortest
    let all := Nat.toDigits 10 n
    let place : Int := e + (all.length : Int) - 1
    let digits := stripZeros all
    if 0 ≤ place ∧ place ≤ 15 then
      let whole := place.toNat + 1
      let front := digits.take whole
      let back := digits.drop whole
      front ++ List.replicate (whole - front.length) '0' ++
        '.' :: (if back = [] then ['0'] else back)
    else if -5 ≤ place ∧ place < 0 then
      ['0', '.'] ++ List.replicate ((-place).toNat - 1) '0' ++ digits
    else
      let sign := if place < 0 then '-' else '+'
      digits.take 1 ++ (if digits.length = 1 then [] else '.' :: digits.drop 1) ++
        'e' :: sign :: Nat.toDigits 10 place.natAbs

end LintRepair.Decimal
