/-!
The budget of a repair loop: how many requests have been sent, out of how many iterations allowed.
At least one iteration is always allowed.
-/

namespace LintRepair

/-- Requests sent so far, and the number of iterations allowed. -/
structure Budget where
  spent : UInt32
  limit : UInt32
  limit_pos : 1 ≤ limit.toNat
deriving DecidableEq

namespace Budget

/-- A budget whose limit is raised to one if it was zero. -/
def of (spent limit : UInt32) : Budget :=
  if h : 1 ≤ limit.toNat then ⟨spent, limit, h⟩ else ⟨spent, 1, by decide⟩

def isSpent (b : Budget) : Bool := b.limit ≤ b.spent

/-- The number of the next request. It stays at the greatest count once that is reached. -/
def next (b : Budget) : UInt32 :=
  if b.spent.toNat + 1 < UInt32.size then b.spent + 1 else b.spent

/-- A further request leaves room for the run that answers it. -/
def mayRequest (b : Budget) : Bool := b.next < b.limit

end Budget

end LintRepair
