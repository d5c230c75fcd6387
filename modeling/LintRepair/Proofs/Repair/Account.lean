import LintRepair.Proofs.Lint.Selection
import LintRepair.Proofs.Repair.Course

/-! What a run does to the world, call by call. A workplace is made to write down every call it is
asked for; the run does not notice, and what is written down is accounted for in full. -/

namespace LintRepair

/-- A call that a run makes, a check with what it answered. -/
inductive Call where
  | check (t : Target) (result : CheckResult)
  | fix (t : Target)
  | notice (level : NoticeLevel) (text : String)
  | prompt (text : String)
deriving DecidableEq

/-- What a cycle of a target sees: a check that is clean, or a check that is not
and a second one after the fix. -/
inductive Visit where
  | clean (t : Target) (first : CheckResult) (isClean : first.isClean = true)
  | fixed (t : Target) (first second : CheckResult) (notClean : first.isClean = false)

namespace Visit

def target : Visit → Target
  | .clean t _ _ => t
  | .fixed t _ _ _ => t

def calls : Visit → List Call
  | .clean t first _ => [.check t first]
  | .fixed t first second _ => [.check t first, .fix t, .check t second]

def last : Visit → CheckResult
  | .clean _ first _ => first
  | .fixed _ _ second _ => second

end Visit

namespace Workplace

variable {σ : Type}

/-- The same workplace, with every call written down behind the earlier ones. -/
def recording (w : Workplace σ) : Workplace (σ × List Call) where
  check t s :=
    let (result, after) := w.check t s.1
    (result, after, s.2 ++ [.check t result])
  fix t s := (w.fix t s.1, s.2 ++ [.fix t])
  changedFiles s := w.changedFiles s.1
  history s := w.history s.1
  prompt text s :=
    let (delivered, after) := w.prompt text s.1
    (delivered, after, s.2 ++ [.prompt text])
  notify level text s := (w.notify level text s.1, s.2 ++ [.notice level text])

/-- The results that visits leave over: those of the last checks that are not
clean. -/
def leftOver (visits : List Visit) : List CheckResult :=
  (visits.map Visit.last).filter fun r => !r.isClean

/-- Behind the guards the selected targets are visited in their order. -/
structure Visited (w : Workplace σ) (config : Config) (s : σ) (c : Conversation)
    (visits : List Visit) : Prop extends Admitted w config s c where
  targets : visits.map Visit.target = w.selected config s

/-- The outcome of a run with the calls it makes. A run that is skipped makes
none. Any other begins with the notice that work starts and visits the selected
targets; then its end adds a single call. -/
inductive Account (w : Workplace σ) (config : Config) (s : σ) : Outcome → List Call → Prop where
  | noChanges (unchanged : w.changedFiles s = []) : Account w config s (.skipped .noChanges) []
  | noTargets (changed : w.changedFiles s ≠ []) (unselected : w.selected config s = []) :
      Account w config s (.skipped .noTargets) []
  | historyUnavailable (changed : w.changedFiles s ≠ []) (selected : w.selected config s ≠ [])
      (unread : w.history s = none) : Account w config s (.skipped .historyUnavailable) []
  | budgetExhausted {c : Conversation} (changed : w.changedFiles s ≠ [])
      (selected : w.selected config s ≠ []) (history : w.history s = some c)
      (spent : (c.budget config.maxIterations).isSpent = true) :
      Account w config s (.skipped (.budgetExhausted c.requestsSent)) []
  | passed {c : Conversation} {visits : List Visit} (visited : w.Visited config s c visits)
      (clean : ∀ v ∈ visits, v.last.isClean = true) :
      Account w config s .passed (.notice .info startedNotice ::
        (visits.flatMap Visit.calls ++ [.notice .success passedNotice]))
  | requested {c : Conversation} {visits : List Visit} (visited : w.Visited config s c visits)
      (failing : ∃ v ∈ visits, v.last.isClean = false)
      (room : (c.budget config.maxIterations).mayRequest = true) {request : FixRequest}
      (isRequest : request = .of (c.budget config.maxIterations) (leftOver visits)) :
      Account w config s (.requested request) (.notice .info startedNotice ::
        (visits.flatMap Visit.calls ++ [.prompt request.payload]))
  | exhausted {c : Conversation} {visits : List Visit} (visited : w.Visited config s c visits)
      (failing : ∃ v ∈ visits, v.last.isClean = false)
      (full : (c.budget config.maxIterations).mayRequest = false) :
      Account w config s (.exhausted (c.budget config.maxIterations).next (leftOver visits))
        (.notice .info startedNotice ::
          (visits.flatMap Visit.calls ++ [.notice .error exhaustedNotice]))

/-- Writing calls down does not change a cycle, and what is written down is a
visit of the target. -/
theorem cycle_recording (w : Workplace σ) (t : Target) (s : σ) (calls : List Call) :
    ∃ visit : Visit, visit.target = t ∧
      w.recording.toRunner.cycle t (s, calls) =
        ((w.toRunner.cycle t s).1, (w.toRunner.cycle t s).2, calls ++ visit.calls) ∧
      (w.toRunner.cycle t s).1 = if visit.last.isClean then none else some visit.last := by
  cases hFirst : (w.check t s).1.isClean with
  | true =>
      refine ⟨.clean t _ hFirst, rfl, ?_⟩
      simp only [Runner.cycle, recording, hFirst, if_true, Visit.last, Visit.calls, and_self]
  | false =>
      refine ⟨.fixed t _ (w.check t (w.fix t (w.check t s).2)).1 hFirst, rfl, ?_⟩
      simp only [Runner.cycle, recording, hFirst, Bool.false_eq_true, if_false, Visit.last,
        Visit.calls, List.append_assoc, List.cons_append, List.nil_append, true_and]
      rfl

theorem leftOver_cons (v : Visit) (visits : List Visit) :
    leftOver (v :: visits) =
      (if v.last.isClean then none else some v.last).toList ++ leftOver visits := by
  simp only [leftOver, List.map_cons, List.filter_cons]
  cases v.last.isClean <;> rfl

/-- The cycles of a list of targets are visits of these targets, one after the
other. -/
theorem remaining_recording (w : Workplace σ) (targets : List Target) (s : σ)
    (calls : List Call) :
    ∃ visits : List Visit, visits.map Visit.target = targets ∧
      w.recording.toRunner.remaining targets (s, calls) =
        ((w.toRunner.remaining targets s).1, (w.toRunner.remaining targets s).2,
          calls ++ visits.flatMap Visit.calls) ∧
      (w.toRunner.remaining targets s).1 = leftOver visits := by
  induction targets generalizing s calls with
  | nil => exact ⟨[], rfl, by simp [Runner.remaining], rfl⟩
  | cons t targets ih =>
      obtain ⟨visit, rfl, hCycle, hLeft⟩ := w.cycle_recording t s calls
      obtain ⟨visits, rfl, hRemaining, hMore⟩ :=
        ih (w.toRunner.cycle visit.target s).2 (calls ++ visit.calls)
      refine ⟨visit :: visits, rfl, ?_, ?_⟩
      · simp only [Runner.remaining, hCycle, hRemaining, List.flatMap_cons, List.append_assoc]
      · simp only [Runner.remaining, hLeft, hMore, leftOver_cons]

theorem leftOver_eq_nil_iff (visits : List Visit) :
    leftOver visits = [] ↔ ∀ v ∈ visits, v.last.isClean = true := by
  simp [leftOver, List.filter_eq_nil_iff]

theorem leftOver_ne_nil_iff (visits : List Visit) :
    leftOver visits ≠ [] ↔ ∃ v ∈ visits, v.last.isClean = false := by
  simp [leftOver, List.filter_eq_nil_iff]

/-- What a recording workplace's cycles leave is left by the cycles themselves,
and the log holds the visits. -/
theorem Worked.of_recording {w : Workplace σ} {config : Config} {s : σ} {c : Conversation}
    {left : List CheckResult} {after : σ × List Call}
    (h : w.recording.Worked config (s, []) c left after) :
    w.Worked config s c left after.1 ∧ ∃ visits, w.Visited config s c visits ∧
      left = leftOver visits ∧
      after.2 = .notice .info startedNotice :: visits.flatMap Visit.calls := by
  obtain ⟨visits, hTargets, hRecorded, hLeft⟩ := w.remaining_recording (w.selected config s)
    (w.notify .info startedNotice s) [.notice .info startedNotice]
  have hRemaining := h.remaining.symm.trans hRecorded
  simp only [Prod.ext_iff] at hRemaining
  obtain ⟨rfl, hState, hCalls⟩ := hRemaining
  have hAdmitted : w.Admitted config s c := ⟨h.changed, h.selected, h.history, h.unspent⟩
  refine ⟨⟨hAdmitted, ?_⟩, visits, ⟨hAdmitted, hTargets⟩, hLeft, hCalls⟩
  rw [hState]

/-- A course of the recording workplace is a course of the workplace itself, with
an account of the calls. -/
theorem Course.of_recording {w : Workplace σ} {config : Config} {s : σ}
    {final : Outcome × (σ × List Call)} (h : w.recording.Course config (s, []) final) :
    w.Course config s (final.1, final.2.1) ∧ w.Account config s final.1 final.2.2 := by
  cases h with
  | noChanges unchanged => exact ⟨.noChanges unchanged, .noChanges unchanged⟩
  | noTargets changed unselected =>
      exact ⟨.noTargets changed unselected, .noTargets changed unselected⟩
  | historyUnavailable changed selected unread =>
      exact ⟨.historyUnavailable changed selected unread, .historyUnavailable changed selected unread⟩
  | budgetExhausted changed selected history spent =>
      exact ⟨.budgetExhausted changed selected history spent,
        .budgetExhausted changed selected history spent⟩
  | passed worked =>
      obtain ⟨hWorked, visits, hVisited, hLeft, hCalls⟩ := worked.of_recording
      refine ⟨.passed hWorked, ?_⟩
      simp only [recording, hCalls, List.cons_append]
      exact .passed hVisited ((leftOver_eq_nil_iff visits).mp hLeft.symm)
  | requested worked failing room =>
      obtain ⟨hWorked, visits, hVisited, rfl, hCalls⟩ := worked.of_recording
      refine ⟨.requested hWorked failing room, ?_⟩
      simp only [recording, hCalls, List.cons_append]
      exact .requested hVisited ((leftOver_ne_nil_iff visits).mp failing) room rfl
  | exhausted worked failing full =>
      obtain ⟨hWorked, visits, hVisited, rfl, hCalls⟩ := worked.of_recording
      refine ⟨.exhausted hWorked failing full, ?_⟩
      simp only [recording, hCalls, List.cons_append]
      exact .exhausted hVisited ((leftOver_ne_nil_iff visits).mp failing) full

/-- The same workplace with another way to deliver prompts. -/
def delivering (w : Workplace σ) (prompt : String → σ → Bool × σ) : Workplace σ :=
  { w with prompt }

/-- A prompt is the last thing a run does, so nothing before it can depend on how
it is delivered. -/
theorem Course.of_delivering {w : Workplace σ} {prompt : String → σ → Bool × σ} {config : Config}
    {s : σ} {final : Outcome × (σ × List Call)}
    (h : (w.delivering prompt).recording.Course config (s, []) final) :
    ∃ own, w.recording.Course config (s, []) (final.1, own, final.2.2) := by
  have hWorked : ∀ {c left after}, (w.delivering prompt).recording.Worked config (s, []) c left after →
      w.recording.Worked config (s, []) c left after := fun worked =>
    ⟨⟨worked.changed, worked.selected, worked.history, worked.unspent⟩, worked.remaining⟩
  cases h with
  | noChanges unchanged => exact ⟨_, .noChanges unchanged⟩
  | noTargets changed unselected => exact ⟨_, .noTargets changed unselected⟩
  | historyUnavailable changed selected unread =>
      exact ⟨_, .historyUnavailable changed selected unread⟩
  | budgetExhausted changed selected history spent =>
      exact ⟨_, .budgetExhausted changed selected history spent⟩
  | passed worked => exact ⟨_, .passed (hWorked worked)⟩
  | requested worked failing room => exact ⟨_, .requested (hWorked worked) failing room⟩
  | exhausted worked failing full => exact ⟨_, .exhausted (hWorked worked) failing full⟩

/-- A run is accounted for in full. Written down, its calls are those of the one
course it takes: the guards in their order with no call at all, or the notice
that work starts, the visits of the selected targets, which stand in configured
order, and a single call at the end. The writing changes nothing, and another
way to deliver the prompt changes neither the outcome nor a call. -/
theorem run_accounted (w : Workplace σ) (config : Config) (s : σ) :
    ((w.recording.run config (s, [])).1, (w.recording.run config (s, [])).2.1) =
        w.run config s ∧
      w.Account config s (w.recording.run config (s, [])).1 (w.recording.run config (s, [])).2.2 ∧
      (w.selected config s).Sublist config.targets ∧
      ∀ prompt : String → σ → Bool × σ,
        ((w.delivering prompt).recording.run config (s, [])).1 =
            (w.recording.run config (s, [])).1 ∧
          ((w.delivering prompt).recording.run config (s, [])).2.2 =
            (w.recording.run config (s, [])).2.2 := by
  obtain ⟨hCourse, hAccount⟩ := (w.recording.run_course config (s, [])).of_recording
  refine ⟨hCourse.run_eq.symm, hAccount, Selection.targets_sublist _ _, fun prompt => ?_⟩
  obtain ⟨own, hOwn⟩ := ((w.delivering prompt).recording.run_course config (s, [])).of_delivering
  rw [hOwn.run_eq]
  exact ⟨rfl, rfl⟩

end Workplace

end LintRepair
