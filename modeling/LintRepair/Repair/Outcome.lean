import LintRepair.Json.Printer
import LintRepair.Repair.FixRequest

/-!
How a run ends.
-/

namespace LintRepair

/-- Why a run did no lint work at all. -/
inductive SkipReason where
  | noChanges
  | noTargets
  | historyUnavailable
  | budgetExhausted (prior : UInt32)
deriving DecidableEq

/-- The end of a run: nothing was done, everything is clean, another attempt was asked for, or the
budget allows none. -/
inductive Outcome where
  | skipped (reason : SkipReason)
  | passed
  | requested (request : FixRequest)
  | exhausted (iteration : UInt32) (results : List CheckResult)
deriving DecidableEq

namespace SkipReason

def name : SkipReason → String
  | .noChanges => "no_changes"
  | .noTargets => "no_targets"
  | .historyUnavailable => "history_unavailable"
  | .budgetExhausted _ => "budget_exhausted"

/-- The count that belongs to the reason, if any. -/
def priorJson : SkipReason → Json
  | .budgetExhausted prior => .count prior
  | _ => .null

def explanation : SkipReason → String
  | .noChanges => "no changed files"
  | .noTargets => "no lint target matches the changed files"
  | .historyUnavailable => "conversation history could not be read"
  | .budgetExhausted prior =>
    "iteration budget spent (" ++ String.ofList (Nat.toDigits 10 prior.toNat) ++
      " prior fix requests)"

end SkipReason

namespace Outcome

def hasErrors : Outcome → Bool
  | .requested _ => true
  | .exhausted _ _ => true
  | _ => false

def toJson : Outcome → Json
  | .skipped reason =>
    .object [("outcome", .string "skipped"), ("reason", .string reason.name),
      ("priorAttempts", reason.priorJson)]
  | .passed => .object [("outcome", .string "passed")]
  | .requested request =>
    .object [("outcome", .string "requested"), ("request", request.toJson)]
  | .exhausted iteration results =>
    .object [("outcome", .string "exhausted"), ("iteration", .count iteration),
      ("results", CheckResult.listJson results)]

end Outcome

end LintRepair
