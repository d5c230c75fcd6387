import LintRepair.Json.Printer
import LintRepair.Lint.CheckResult
import LintRepair.Repair.Budget

/-!
Fix requests: what is sent into the conversation when errors remain. The payload is compact JSON on
one line, because the compact form is what a later run recognises and counts.
-/

namespace LintRepair

/-- A request to fix the errors that remain. -/
structure FixRequest where
  iteration : UInt32
  maxIterations : UInt32
  results : List CheckResult
deriving DecidableEq

namespace FixRequest

/-- The task that marks a message as a fix request. -/
def task : String := "fix_lint_errors"

def instruction : String := "Fix these lint errors by editing files. Do not disable lint rules."

/-- The request that a run with this budget sends. -/
def of (budget : Budget) (results : List CheckResult) : FixRequest :=
  ⟨budget.next, budget.limit, results⟩

def toJson (r : FixRequest) : Json :=
  .object [("task", .string task), ("instruction", .string instruction),
    ("iteration", .count r.iteration), ("maxIterations", .count r.maxIterations),
    ("results", CheckResult.listJson r.results)]

def payload (r : FixRequest) : String := r.toJson.compactText

end FixRequest

end LintRepair
