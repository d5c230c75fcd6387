import LintRepair.Repair.Run

/-!
Runs that work on several targets at once. Every selected target has a lane in which its cycle goes
on call by call, and a list of turns says whose call comes next. The results are collected in the
order of the targets, whatever the turns were.
-/

namespace LintRepair

/-- The next call of a cycle, or what a cycle that is over has left. -/
inductive Stage where
  | check
  | fix
  | recheck
  | ended (left : Option CheckResult)
deriving DecidableEq

/-- A target and how far its cycle has come. -/
structure Lane where
  target : Target
  stage : Stage
deriving DecidableEq

/-- What the cycle of a lane has left so far. -/
def Lane.left (lane : Lane) : Option CheckResult :=
  match lane.stage with
  | .ended left => left
  | _ => none

namespace Runner

variable {σ : Type}

/-- Make the next call of a lane. A cycle that is over makes none. -/
def advance (runner : Runner σ) (lane : Lane) (s : σ) : Lane × σ :=
  match lane.stage with
  | .check =>
    let (first, s) := runner.check lane.target s
    (⟨lane.target, if first.isClean then .ended none else .fix⟩, s)
  | .fix => (⟨lane.target, .recheck⟩, runner.fix lane.target s)
  | .recheck =>
    let (second, s) := runner.check lane.target s
    (⟨lane.target, .ended (if second.isClean then none else some second)⟩, s)
  | .ended _ => (lane, s)

/-- Let the lane at a position make its next call, if there is such a lane. -/
def takeTurn (runner : Runner σ) (turn : Nat) (lanes : List Lane) (s : σ) : List Lane × σ :=
  match lanes[turn]? with
  | some lane =>
    let (lane, s) := runner.advance lane s
    (lanes.set turn lane, s)
  | none => (lanes, s)

/-- Let lanes make their calls in turns. -/
def takeTurns (runner : Runner σ) : List Nat → List Lane → σ → List Lane × σ
  | [], lanes, s => (lanes, s)
  | turn :: turns, lanes, s =>
    let (lanes, s) := runner.takeTurn turn lanes s
    takeTurns runner turns lanes s

/-- Go on with a lane to the end of its cycle; no cycle makes more than three calls. -/
def conclude (runner : Runner σ) (lane : Lane) (s : σ) : Lane × σ :=
  let (lane, s) := runner.advance lane s
  let (lane, s) := runner.advance lane s
  runner.advance lane s

/-- Go on with one lane after another, and collect what they leave. -/
def concludeAll (runner : Runner σ) : List Lane → σ → List CheckResult × σ
  | [], s => ([], s)
  | lane :: lanes, s =>
    let (lane, s) := runner.conclude lane s
    let (more, s) := concludeAll runner lanes s
    (lane.left.toList ++ more, s)

/-- The results that still have errors after a cycle of each target, when the calls are made in
these turns. Calls that are still due after the last turn follow in the order of the targets. -/
def interleaved (runner : Runner σ) (turns : List Nat) (targets : List Target) (s : σ) :
    List CheckResult × σ :=
  let (lanes, s) := runner.takeTurns turns (targets.map fun t => ⟨t, .check⟩) s
  runner.concludeAll lanes s

end Runner

namespace Workplace

variable {σ : Type}

/-- The budget of a run, or why it has nothing to do. The reasons are tried in this order. -/
def clearance (w : Workplace σ) (config : Config) (s : σ) : Except SkipReason Budget :=
  if (w.changedFiles s).isEmpty then .error .noChanges
  else if (Selection.targets config.targets (w.changedFiles s)).isEmpty then .error .noTargets
  else
    match w.history s with
    | none => .error .historyUnavailable
    | some conversation =>
      let budget := conversation.budget config.maxIterations
      if budget.isSpent then .error (.budgetExhausted budget.spent) else .ok budget

/-- The cycles of some targets, in turns if the configuration allows that, and else one target after
another. -/
def pass (w : Workplace σ) (turns : List Nat) (config : Config) (targets : List Target) (s : σ) :
    List CheckResult × σ :=
  if config.parallel then w.toRunner.interleaved turns targets s
  else w.toRunner.remaining targets s

/-- One run whose calls are made in these turns. -/
def runInTurns (w : Workplace σ) (turns : List Nat) (config : Config) (s : σ) : Outcome × σ :=
  match w.clearance config s with
  | .error reason => (.skipped reason, s)
  | .ok budget =>
    let targets := Selection.targets config.targets (w.changedFiles s)
    let (left, s) := w.pass turns config targets (w.notify .info startedNotice s)
    w.decide budget left s

end Workplace

end LintRepair
