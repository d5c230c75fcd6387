/-!
Double-precision numbers as exact data. A finite magnitude is `mantissa · 2 ^ exponent`; every
operation computes the exact rational first and rounds once, to the nearest double, a tie to the
even mantissa.
-/

namespace LintRepair.Decimal

/-- A finite magnitude, `mantissa · 2 ^ exponent`. -/
structure Binary64 where
  mantissa : Nat
  exponent : Int
deriving DecidableEq, Repr

namespace Binary64

def zero : Binary64 := ⟨0, -1074⟩

def isZero (x : Binary64) : Bool := x.mantissa == 0

/-- The least mantissa of 53 bits, which all but the smallest magnitudes reach. -/
def hiddenBit : Nat := Nat.pow 2 52

/-- Numerator and denominator of `n / d` measured in units of `2 ^ e`. -/
def inUnits (n d : Nat) (e : Int) : Nat × Nat :=
  if 0 ≤ e then (n, d * Nat.pow 2 e.toNat) else (n * Nat.pow 2 (-e).toNat, d)

/-- The unit of the last place for `n / d`: the quotient has 53 bits, unless the number is so
small that the least unit, `2 ^ -1074`, leaves it fewer. -/
def unitFor (n d : Nat) : Int :=
  let guess : Int := (Nat.log2 n : Int) - (Nat.log2 d : Int) - 52
  let (a, b) := inUnits n d guess
  let unit := if a / b < hiddenBit then guess - 1 else guess
  if unit < -1074 then -1074 else unit

/-- The quotient rounded to the nearest whole number, a tie to the even one. -/
def nearest (a b : Nat) : Nat :=
  let q := a / b
  let r := a % b
  if 2 * r < b then q
  else if b < 2 * r then q + 1
  else if q % 2 = 0 then q else q + 1

/-- The double nearest to `n / d`, or `none` when it exceeds every finite one. -/
def ofRatio (n d : Nat) : Option Binary64 :=
  if n = 0 then some zero
  else
    let unit := unitFor n d
    let (a, b) := inUnits n d unit
    let q := nearest a b
    let x : Binary64 := if q = 2 * hiddenBit then ⟨hiddenBit, unit + 1⟩ else ⟨q, unit⟩
    if 971 < x.exponent then none else some x

/-- The magnitude as numerator and denominator. -/
def ratio (x : Binary64) : Nat × Nat :=
  if 0 ≤ x.exponent then (x.mantissa * Nat.pow 2 x.exponent.toNat, 1)
  else (x.mantissa, Nat.pow 2 (-x.exponent).toNat)

/-- Product, rounded. -/
def mul (x y : Binary64) : Option Binary64 :=
  let (a, b) := x.ratio
  let (c, d) := y.ratio
  ofRatio (a * c) (b * d)

/-- Quotient, rounded; by zero it exceeds every finite number. -/
def div (x y : Binary64) : Option Binary64 :=
  let (a, b) := x.ratio
  let (c, d) := y.ratio
  if c = 0 then none else ofRatio (a * d) (b * c)

end Binary64

end LintRepair.Decimal
