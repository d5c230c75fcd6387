import LintRepair.Decimal.Binary64

/-!
Decimal numerals as doubles. A numeral is a whole significand below `2 ^ 64` and a power of ten; the
significand is rounded first, and the scaling rounds again, in steps of at most `10 ^ 308`.
-/

namespace LintRepair.Decimal

/-- The greatest significand that is kept exactly. -/
def significandLimit : Nat := UInt64.size - 1

def digitValue (c : Char) : Nat := c.toNat - '0'.toNat

/-- Append decimal digits to a significand while it stays within the limit; the digits that no
longer fit are given back. -/
def absorb : Nat → List Char → Nat × List Char
  | n, [] => (n, [])
  | n, c :: digits =>
    let next := n * 10 + digitValue c
    if next ≤ significandLimit then absorb next digits else (n, c :: digits)

/-- A power of ten as a double. -/
def power (k : Nat) : Option Binary64 := Binary64.ofRatio (Nat.pow 10 k) 1

/-- Divide by `10 ^ 308` until the exponent is within a single step of zero. -/
def scaleDown : Nat → Binary64 → Int → Option Binary64
  | 0, _, _ => some Binary64.zero
  | steps + 1, x, e =>
    if -308 ≤ e then do x.div (← power (-e).toNat)
    else if x.isZero then some x
    else do scaleDown steps (← x.div (← power 308)) (e + 308)

/-- The double written as a significand and a power of ten, or `none` if it is out of range. Three
whole steps down leave zero of every significand, so four steps are enough. -/
def ofScaled (significand : Nat) (e : Int) : Option Binary64 := do
  let x ← Binary64.ofRatio significand 1
  if 0 ≤ e then
    if e ≤ 308 then x.mul (← power e.toNat)
    else if x.isZero then some x
    else none
  else scaleDown 5 x e

end LintRepair.Decimal
