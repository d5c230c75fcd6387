import LintRepair.Proofs.Repair.Counting

/-! All that a run can do, said once. Later modules ask for the course of a run and never open its
definition again. -/

namespace LintRepair

namespace Workplace

variable {σ : Type}

/-- The targets a run in this state works on. -/
def selected (w : Workplace σ) (config : Config) (s : σ) : List Target :=
  Selection.targets config.targets (w.changedFiles s)

/-- A run passes every guard, with this conversation. -/
structure Admitted (w : Workplace σ) (config : Config) (s : σ) (c : Conversation) : Prop where
  changed : w.changedFiles s ≠ []
  selected : w.selected config s ≠ []
  history : w.history s = some c
  unspent : (c.budget config.maxIterations).isSpent = false

/-- Behind the guards the cycles of the selected targets leave these results and
this state. -/
structure Worked (w : Workplace σ) (config : Config) (s : σ) (c : Conversation)
    (left : List CheckResult) (after : σ) : Prop extends Admitted w config s c where
  remaining : w.toRunner.remaining (w.selected config s) (w.notify .info startedNotice s) =
    (left, after)

/-- The ways a run can go. The guards stand in the order in which they are
tried: each course but the first excludes the ones before it. -/
inductive Course (w : Workplace σ) (config : Config) (s : σ) : Outcome × σ → Prop where
  | noChanges (unchanged : w.changedFiles s = []) : Course w config s (.skipped .noChanges, s)
  | noTargets (changed : w.changedFiles s ≠ []) (unselected : w.selected config s = []) :
      Course w config s (.skipped .noTargets, s)
  | historyUnavailable (changed : w.changedFiles s ≠ []) (selected : w.selected config s ≠ [])
      (unread : w.history s = none) : Course w config s (.skipped .historyUnavailable, s)
  | budgetExhausted {c : Conversation} (changed : w.changedFiles s ≠ [])
      (selected : w.selected config s ≠ []) (history : w.history s = some c)
      (spent : (c.budget config.maxIterations).isSpent = true) :
      Course w config s (.skipped (.budgetExhausted c.requestsSent), s)
  | passed {c : Conversation} {after : σ} (worked : w.Worked config s c [] after) :
      Course w config s (.passed, w.notify .success passedNotice after)
  | requested {c : Conversation} {left : List CheckResult} {after : σ}
      (worked : w.Worked config s c left after) (failing : left ≠ [])
      (room : (c.budget config.maxIterations).mayRequest = true) :
      Course w config s (.requested (.of (c.budget config.maxIterations) left),
        (w.prompt (FixRequest.of (c.budget config.maxIterations) left).payload after).2)
  | exhausted {c : Conversation} {left : List CheckResult} {after : σ}
      (worked : w.Worked config s c left after) (failing : left ≠ [])
      (full : (c.budget config.maxIterations).mayRequest = false) :
      Course w config s (.exhausted (c.budget config.maxIterations).next left,
        w.notify .error exhaustedNotice after)

/-- What is decided on the results that are left belongs to a course of the run. -/
theorem Worked.course {w : Workplace σ} {config : Config} {s : σ} {c : Conversation}
    {left : List CheckResult} {after : σ} (h : w.Worked config s c left after) :
    w.Course config s (w.decide (c.budget config.maxIterations) left after) := by
  cases left with
  | nil => exact .passed h
  | cons r more =>
      cases hRoom : (c.budget config.maxIterations).mayRequest with
      | true =>
          simp only [Workplace.decide, hRoom, if_true]
          exact .requested h (List.cons_ne_nil r more) hRoom
      | false =>
          simp only [Workplace.decide, hRoom, Bool.false_eq_true, if_false]
          exact .exhausted h (List.cons_ne_nil r more) hRoom

/-- Every run takes one of the courses. -/
theorem run_course (w : Workplace σ) (config : Config) (s : σ) :
    w.Course config s (w.run config s) := by
  simp only [run]
  split
  · rename_i hUnchanged
    exact .noChanges (List.isEmpty_iff.mp hUnchanged)
  rename_i hChanged
  rw [List.isEmpty_iff] at hChanged
  split
  · rename_i hUnselected
    exact .noTargets hChanged (List.isEmpty_iff.mp hUnselected)
  rename_i hSelected
  rw [List.isEmpty_iff] at hSelected
  split
  · rename_i hUnread
    exact .historyUnavailable hChanged hSelected hUnread
  rename_i c hHistory
  split
  · rename_i hSpent
    rw [Conversation.spent_budget]
    exact .budgetExhausted hChanged hSelected hHistory hSpent
  · rename_i hUnspent
    exact Worked.course ⟨⟨hChanged, hSelected, hHistory, Bool.eq_false_iff.mpr hUnspent⟩, rfl⟩

theorem targets_eq_selected (w : Workplace σ) (config : Config) (s : σ) :
    Selection.targets config.targets (w.changedFiles s) = w.selected config s := rfl

/-- Behind the guards the run is the decision. -/
theorem Worked.run_eq {w : Workplace σ} {config : Config} {s : σ} {c : Conversation}
    {left : List CheckResult} {after : σ} (h : w.Worked config s c left after) :
    w.run config s = w.decide (c.budget config.maxIterations) left after := by
  simp [run, targets_eq_selected, h.changed, h.selected, h.history, h.unspent, h.remaining]

/-- The courses exclude one another: a run has no other than its own. -/
theorem Course.run_eq {w : Workplace σ} {config : Config} {s : σ} {final : Outcome × σ}
    (h : w.Course config s final) : w.run config s = final := by
  cases h with
  | noChanges unchanged => simp [run, unchanged]
  | noTargets changed unselected => simp [run, targets_eq_selected, changed, unselected]
  | historyUnavailable changed selected unread =>
      simp [run, targets_eq_selected, changed, selected, unread]
  | budgetExhausted changed selected history spent =>
      simp [run, targets_eq_selected, changed, selected, history, spent]
  | passed worked => exact worked.run_eq
  | @requested c left after worked failing room =>
      obtain ⟨r, more, rfl⟩ := List.exists_cons_of_ne_nil failing
      rw [worked.run_eq, decide, if_pos room]
  | @exhausted c left after worked failing full =>
      obtain ⟨r, more, rfl⟩ := List.exists_cons_of_ne_nil failing
      rw [worked.run_eq, decide, if_neg (Bool.eq_false_iff.mp full)]

end Workplace

end LintRepair
