import LintRepair.Lint.CheckResult

/-!
One repair cycle of a target: check, and if that finds anything, fix and check again. What a fix
command reports is not looked at; only the second check counts.
-/

namespace LintRepair

/-- Something that can check and fix targets, and changes its state by doing so. -/
structure Runner (σ : Type) where
  check : Target → σ → CheckResult × σ
  fix : Target → σ → σ

namespace Runner

variable {σ : Type}

/-- Check a target, fix it if needed, and keep the second result if it still has errors. -/
def cycle (runner : Runner σ) (t : Target) (s : σ) : Option CheckResult × σ :=
  let (first, s) := runner.check t s
  if first.isClean then (none, s)
  else
    let s := runner.fix t s
    let (second, s) := runner.check t s
    (if second.isClean then none else some second, s)

/-- The results that still have errors after a cycle of each target, in the order of the
targets. -/
def remaining (runner : Runner σ) : List Target → σ → List CheckResult × σ
  | [], s => ([], s)
  | t :: targets, s =>
    let (left, s) := runner.cycle t s
    let (more, s) := remaining runner targets s
    (left.toList ++ more, s)

end Runner

end LintRepair
