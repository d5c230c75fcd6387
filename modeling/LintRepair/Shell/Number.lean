import LintRepair.Shell.Raw

/-!
Numbers as they are written in scripts: with a sign, in base ten, or in base eight or sixteen where
the first digits say so. Values are 64-bit integers; one that is out of range is told apart.
-/

namespace LintRepair.Shell.Number

/-- The value of a digit in bases up to thirty-six. -/
def digit? (c : Char) : Option Nat :=
  if c.isDigit then some (c.toNat - '0'.toNat)
  else if c.isLower then some (c.toNat - 'a'.toNat + 10)
  else if c.isUpper then some (c.toNat - 'A'.toNat + 10)
  else none

def isDigit (base : Nat) (c : Char) : Bool := (digit? c).any (· < base)

def value (base : Nat) (digits : Raw) : Nat :=
  digits.foldl (fun n c => n * base + (digit? c).getD 0) 0

def least : Int := -9223372036854775808

def greatest : Int := 9223372036854775807

/-- A number at the front of a text. -/
structure Front where
  value : Int
  rest : Raw
  inRange : Bool := true

/-- The number without a sign at the front of a text; in base zero its first digits tell the
base. -/
def unsigned? (base : Nat) (s : Raw) : Option (Nat × Raw) :=
  let digits (base : Nat) (s : Raw) : Option (Nat × Raw) :=
    let ds := s.takeWhile (isDigit base)
    if ds.isEmpty then none else some (value base ds, s.drop ds.length)
  match s with
  | '0' :: x :: d :: rest =>
    if (base = 0 || base = 16) && (x == 'x' || x == 'X') && isDigit 16 d then
      digits 16 (d :: rest)
    else if base = 0 then digits 8 s
    else digits base s
  | '0' :: _ => if base = 0 then digits 8 s else digits base s
  | _ => digits (if base = 0 then 10 else base) s

/-- The number at the front of a text, after blanks and a sign. -/
def front? (base : Nat) (s : Raw) : Option Front :=
  let s := s.dropWhile isBlank
  let (negative, unsigned) := match s with
    | '-' :: rest => (true, rest)
    | '+' :: rest => (false, rest)
    | rest => (false, rest)
  (unsigned? base unsigned).map fun (n, rest) =>
    let exact : Int := if negative then -(n : Int) else n
    if exact < least then ⟨least, rest, false⟩
    else if greatest < exact then ⟨greatest, rest, false⟩
    else ⟨exact, rest, true⟩

/-- The number that a text is, blanks around it aside. -/
def integer? (base : Nat) (s : Raw) : Option Int :=
  match front? base s with
  | some f => if f.inRange && f.rest.all isBlank then some f.value else none
  | none => none

def decimal? (s : Raw) : Option Int := integer? 10 s

/-- The greatest number of a status, a count or a stream. -/
def greatestCount : Int := 2147483647

def count? (s : Raw) : Option Nat :=
  match decimal? s with
  | some n => if 0 ≤ n && n ≤ greatestCount then some n.toNat else none
  | none => none

/-- The value of a variable in an expression; one without a value counts as zero. -/
def binding? (s : Raw) : Option Int :=
  if s.all isBlank then some 0 else integer? 0 s

/-- A complaint about a text that is no number. -/
def fault (s : Raw) : Raw := "Illegal number: ".toList ++ s

end LintRepair.Shell.Number
