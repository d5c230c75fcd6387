import LintRepair.Proofs.Lint.Selection
import LintRepair.Proofs.Repair.Course
import LintRepair.Proofs.Repair.Turns

/-! What a run asks before it works, and what it says at the end. A run in turns is admitted like
the plain one, and behind the guards only the results that are left decide. -/

namespace LintRepair

namespace Workplace

variable {σ : Type}

/-- Why a run is not admitted, or that it is. The guards stand in the order in
which they are tried. -/
inductive Admission (w : Workplace σ) (config : Config) (s : σ) :
    Except SkipReason Budget → Prop where
  | noChanges (unchanged : w.changedFiles s = []) : Admission w config s (.error .noChanges)
  | noTargets (changed : w.changedFiles s ≠ []) (unselected : w.selected config s = []) :
      Admission w config s (.error .noTargets)
  | historyUnavailable (changed : w.changedFiles s ≠ []) (selected : w.selected config s ≠ [])
      (unread : w.history s = none) : Admission w config s (.error .historyUnavailable)
  | budgetExhausted {c : Conversation} (changed : w.changedFiles s ≠ [])
      (selected : w.selected config s ≠ []) (history : w.history s = some c)
      (spent : (c.budget config.maxIterations).isSpent = true) :
      Admission w config s (.error (.budgetExhausted c.requestsSent))
  | admitted {c : Conversation} (admitted : w.Admitted config s c) :
      Admission w config s (.ok (c.budget config.maxIterations))

theorem clearance_admission (w : Workplace σ) (config : Config) (s : σ) :
    w.Admission config s (w.clearance config s) := by
  unfold clearance
  split
  · rename_i hUnchanged
    exact .noChanges (List.isEmpty_iff.mp hUnchanged)
  rename_i hChanged
  rw [List.isEmpty_iff] at hChanged
  split
  · rename_i hUnselected
    exact .noTargets hChanged (List.isEmpty_iff.mp hUnselected)
  rename_i hSelected
  rw [List.isEmpty_iff] at hSelected
  split
  · rename_i hUnread
    exact .historyUnavailable hChanged hSelected hUnread
  rename_i c hHistory
  dsimp only
  split
  · rename_i hSpent
    rw [Conversation.spent_budget]
    exact .budgetExhausted hChanged hSelected hHistory hSpent
  · rename_i hUnspent
    exact .admitted ⟨hChanged, hSelected, hHistory, Bool.eq_false_iff.mpr hUnspent⟩

theorem selected_sublist (w : Workplace σ) (config : Config) (s : σ) :
    (w.selected config s).Sublist config.targets := Selection.targets_sublist _ _

/-- What the cycles of the selected targets leave, once the notice that work
starts is out. -/
def worked (w : Workplace σ) (turns : List Nat) (config : Config) (s : σ) :
    List CheckResult × σ :=
  w.pass turns config (w.selected config s) (w.notify .info startedNotice s)

/-- What notices keep, and the checks and fixes of configured targets, is kept until
the decision, in whatever turns the cycles go on. -/
theorem worked_keeps {w : Workplace σ} {config : Config} {P : σ → Prop}
    (hCheck : ∀ t ∈ config.targets, ∀ s, P s → P (w.check t s).2)
    (hFix : ∀ t ∈ config.targets, ∀ s, P s → P (w.fix t s))
    (hNotify : ∀ level text s, P s → P (w.notify level text s)) (turns : List Nat) {s : σ}
    (h : P s) : P (w.worked turns config s).2 := by
  rw [worked, pass_eq_interleaved]
  obtain ⟨final, hMoves, -, -⟩ := w.toRunner.interleaved_moves
    (if config.parallel then turns else []) (w.selected config s) (w.notify .info startedNotice s)
  refine Runner.Move.keeps hCheck hFix hMoves ?_ (hNotify _ _ _ h)
  rw [Runner.targets_lanesOf]
  exact (w.selected_sublist config s).subset

theorem runInTurns_eq (w : Workplace σ) (turns : List Nat) (config : Config) (s : σ) :
    w.runInTurns turns config s =
      match w.clearance config s with
      | .error reason => (.skipped reason, s)
      | .ok budget =>
        w.decide budget (w.worked turns config s).1 (w.worked turns config s).2 := rfl

/-- While the conversation cannot be read every run is skipped, for that reason if
it has targets. -/
theorem runInTurns_of_unread {w : Workplace σ} {s : σ} (h : w.history s = none) (turns : List Nat)
    (config : Config) : ∃ reason, w.runInTurns turns config s = (.skipped reason, s) ∧
      (w.selected config s ≠ [] → reason = .historyUnavailable) := by
  have hAdmission := w.clearance_admission config s
  rw [runInTurns_eq]
  generalize w.clearance config s = admission at hAdmission ⊢
  cases hAdmission with
  | noChanges unchanged =>
      refine ⟨_, rfl, fun hSelected => absurd ?_ hSelected⟩
      rw [selected, unchanged, Selection.targets_nil]
  | noTargets changed unselected => exact ⟨_, rfl, fun hSelected => absurd unselected hSelected⟩
  | historyUnavailable => exact ⟨_, rfl, fun _ => rfl⟩
  | budgetExhausted changed selected history =>
      rw [h] at history
      cases history
  | admitted admitted =>
      have hHistory := admitted.history
      rw [h] at hHistory
      cases hHistory

/-- The plain run is the one without turns, whether or not the configuration
would allow them. -/
theorem runInTurns_nil (w : Workplace σ) (config : Config) (s : σ) :
    w.runInTurns [] config s = w.run config s := by
  have hAdmission := w.clearance_admission config s
  rw [runInTurns_eq]
  generalize w.clearance config s = admission at hAdmission ⊢
  cases hAdmission with
  | noChanges unchanged => exact (Course.noChanges unchanged).run_eq.symm
  | noTargets changed unselected => exact (Course.noTargets changed unselected).run_eq.symm
  | historyUnavailable changed selected unread =>
      exact (Course.historyUnavailable changed selected unread).run_eq.symm
  | budgetExhausted changed selected history spent =>
      exact (Course.budgetExhausted changed selected history spent).run_eq.symm
  | @admitted c admitted =>
      refine (Worked.run_eq ⟨admitted, ?_⟩).symm
      rw [worked, pass_eq_interleaved, ite_self, Runner.interleaved_nil]

/-- The outcome is decided by the results that are left and the budget; what the
notices and the prompt do has no part in it. -/
theorem outcome_decide (w : Workplace σ) (budget : Budget) (left : List CheckResult) (s : σ) :
    (w.decide budget left s).1 =
      if left = [] then .passed
      else if budget.mayRequest then .requested (.of budget left)
      else .exhausted budget.next left := by
  cases left with
  | nil => rfl
  | cons r more =>
      rw [if_neg (List.cons_ne_nil r more), decide]
      split <;> rfl

/-- A run that ends with a request has sent its payload, as the last thing it did. -/
theorem prompted_of_requested {w : Workplace σ} {turns : List Nat} {config : Config} {s : σ}
    {request : FixRequest} (h : (w.runInTurns turns config s).1 = .requested request) :
    (w.runInTurns turns config s).2 =
      (w.prompt request.payload (w.worked turns config s).2).2 := by
  rw [runInTurns_eq] at h ⊢
  cases hClearance : w.clearance config s with
  | error reason =>
      rw [hClearance] at h
      cases h
  | ok budget =>
      rw [hClearance] at h
      dsimp only at h ⊢
      generalize w.worked turns config s = done at h ⊢
      obtain ⟨left, after⟩ := done
      cases left with
      | nil => cases h
      | cons r more =>
          simp only [decide] at h ⊢
          split at h
          · rename_i hRoom
            cases h
            rw [if_pos hRoom]
          · cases h

/-- A decision that asks for nothing only gives notice. -/
theorem decide_keeps {w : Workplace σ} {P : σ → Prop}
    (hNotify : ∀ level text s, P s → P (w.notify level text s)) {budget : Budget}
    {left : List CheckResult} {s : σ} (h : P s)
    (hOutcome : ∀ request, (w.decide budget left s).1 ≠ .requested request) :
    P (w.decide budget left s).2 := by
  cases left with
  | nil => exact hNotify _ _ _ h
  | cons r more =>
      cases hRoom : budget.mayRequest with
      | true =>
          simp only [decide, hRoom, if_true] at hOutcome
          exact absurd rfl (hOutcome _)
      | false =>
          simp only [decide, hRoom, Bool.false_eq_true, if_false]
          exact hNotify _ _ _ h

/-- What notices keep, and the checks and fixes of configured targets, is kept by
every run that ends without a request. -/
theorem runInTurns_keeps {w : Workplace σ} {config : Config} {P : σ → Prop}
    (hCheck : ∀ t ∈ config.targets, ∀ s, P s → P (w.check t s).2)
    (hFix : ∀ t ∈ config.targets, ∀ s, P s → P (w.fix t s))
    (hNotify : ∀ level text s, P s → P (w.notify level text s)) {turns : List Nat} {s : σ} (h : P s)
    (hOutcome : ∀ request, (w.runInTurns turns config s).1 ≠ .requested request) :
    P (w.runInTurns turns config s).2 := by
  have hWorked := worked_keeps hCheck hFix hNotify turns h
  rw [runInTurns_eq] at hOutcome ⊢
  cases hClearance : w.clearance config s with
  | error reason => exact h
  | ok budget =>
      rw [hClearance] at hOutcome
      exact decide_keeps hNotify hWorked hOutcome

end Workplace

end LintRepair
