import LintRepair.Config.Basic
import LintRepair.Lint.Selection
import LintRepair.Repair.Conversation
import LintRepair.Repair.Cycle
import LintRepair.Repair.Outcome

/-!
One run of the repair loop: find the targets of the changed files, check and fix them, and decide.
Nothing is remembered between runs but the conversation, from which the budget is recounted. A run
that is skipped makes no check, no fix, no notice and no request.
-/

namespace LintRepair

/-- The kind of a notice. -/
inductive NoticeLevel where
  | info
  | success
  | error
deriving DecidableEq, Repr

def NoticeLevel.name : NoticeLevel → String
  | .info => "info"
  | .success => "success"
  | .error => "error"

/-- Everything a run depends on and acts upon. `history` gives nothing when the conversation cannot
be read; `prompt` tells whether the text was delivered. -/
structure Workplace (σ : Type) extends Runner σ where
  changedFiles : σ → List String
  history : σ → Option Conversation
  prompt : String → σ → Bool × σ
  notify : NoticeLevel → String → σ → σ

namespace Workplace

variable {σ : Type}

def startedNotice : String := "Running lint checks..."

def passedNotice : String := "Lint passed ✓"

/-- The notice that errors remain and the budget is spent. -/
def exhaustedNotice : String := "Lint failed after retries"

/-- Decide on what the cycles left over. A request that cannot be delivered is still the
outcome. -/
def decide (w : Workplace σ) (budget : Budget) (left : List CheckResult) (s : σ) : Outcome × σ :=
  match left with
  | [] => (.passed, w.notify .success passedNotice s)
  | _ :: _ =>
    if budget.mayRequest then
      let request := FixRequest.of budget left
      let (_, s) := w.prompt request.payload s
      (.requested request, s)
    else (.exhausted budget.next left, w.notify .error exhaustedNotice s)

def run (w : Workplace σ) (config : Config) (s : σ) : Outcome × σ :=
  let files := w.changedFiles s
  if files.isEmpty then (.skipped .noChanges, s)
  else
    let targets := Selection.targets config.targets files
    if targets.isEmpty then (.skipped .noTargets, s)
    else
      match w.history s with
      | none => (.skipped .historyUnavailable, s)
      | some conversation =>
        let budget := conversation.budget config.maxIterations
        if budget.isSpent then (.skipped (.budgetExhausted budget.spent), s)
        else
          let s := w.notify .info startedNotice s
          let (left, s) := w.toRunner.remaining targets s
          w.decide budget left s

end Workplace

end LintRepair
