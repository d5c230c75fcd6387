import LintRepair.Decimal.Binary64

/-!
JSON values. An object keeps its members in the order written, repeated names included, because
readers of records have to see a repeated member in order to refuse it.
-/

namespace LintRepair

open Decimal (Binary64)

inductive Json where
  | null
  | bool (value : Bool)
  | int (value : Int)
  | float (negative : Bool) (magnitude : Binary64)
  | string (text : String)
  | array (items : List Json)
  | object (members : List (String × Json))

namespace Json

/-- A whole number without a sign. -/
def nat (n : Nat) : Json := .int n

def count (n : UInt32) : Json := .int n.toNat

end Json

end LintRepair
