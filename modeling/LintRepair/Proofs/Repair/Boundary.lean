import LintRepair.Proofs.Lint.Selection
import LintRepair.Proofs.Repair.Host
import LintRepair.Workspace.Basic

/-! Outcomes at the edge of the budget. The count of requests and the number of the next one are
held at the greatest 32-bit number, but the outcome is the one that exact numbers give, and what a
request lists are unclean results of selected targets, in their order. All of this is said of runs in
turns; the plain run is the one without turns. -/

namespace LintRepair

open Relation (ReflTransGen)

variable {σ : Type}

/-- The ecosystem and the pattern that a result goes by. -/
def CheckResult.label (r : CheckResult) : Ecosystem × String := (r.ecosystem, r.target)

def Target.label (t : Target) : Ecosystem × String := (t.ecosystem, t.pattern)

namespace Runner

/-- The runner marks every result with its target. -/
def Labels (runner : Runner σ) : Prop := ∀ t s, (runner.check t s).1.label = t.label

/-- A check of a target can find this, and it is not clean. -/
def Finds (runner : Runner σ) (t : Target) (r : CheckResult) : Prop :=
  r.isClean = false ∧ ∃ s, (runner.check t s).1 = r

theorem finds_of_advance {runner : Runner σ} {lane : Lane} {s : σ}
    (h : ∀ r ∈ lane.left, runner.Finds lane.target r) :
    ∀ r ∈ (runner.advance lane s).1.left, runner.Finds lane.target r := by
  obtain ⟨t, stage⟩ := lane
  cases stage with
  | check =>
      simp only [advance]
      split <;> simp [Lane.left]
  | fix => simp [advance, Lane.left]
  | recheck =>
      simp only [advance]
      split
      · simp [Lane.left]
      · rename_i hUnclean
        rintro r ⟨⟩
        exact ⟨Bool.eq_false_iff.mpr hUnclean, s, rfl⟩
  | ended left => exact h

/-- Whatever moves were made, what is left in a lane is a find of its target. -/
theorem Move.finds {runner : Runner σ} {p q : List Lane × σ} (h : ReflTransGen runner.Move p q)
    (hStart : ∀ lane ∈ p.1, ∀ r ∈ lane.left, runner.Finds lane.target r) :
    ∀ lane ∈ q.1, ∀ r ∈ lane.left, runner.Finds lane.target r := by
  induction h with
  | refl => exact hStart
  | tail _ hMove ih =>
      cases hMove with
      | call before lane after s =>
          intro other hOther
          rcases mem_lanes_iff.mp hOther with rfl | hOther
          · rw [target_advance]
            exact finds_of_advance (ih lane (mem_lanes_iff.mpr (.inl rfl)))
          · exact ih other (mem_lanes_iff.mpr (.inr hOther))

/-- The results that a pass leaves belong to some of the targets, in their order. -/
theorem interleaved_finds (runner : Runner σ) (turns : List Nat) (targets : List Target) (s : σ) :
    ∃ pairs : List (Target × CheckResult), (pairs.map Prod.fst).Sublist targets ∧
      pairs.map Prod.snd = (runner.interleaved turns targets s).1 ∧
      ∀ p ∈ pairs, runner.Finds p.1 p.2 := by
  obtain ⟨final, hMoves, -, hLeft⟩ := runner.interleaved_moves turns targets s
  have hFinds := Move.finds hMoves (by simp [lanesOf, Lane.left])
  have hTargets : final.map Lane.target = targets := by
    rw [Move.targets hMoves, targets_lanesOf]
  rw [hLeft, ← hTargets]
  clear hMoves hLeft hTargets
  induction final with
  | nil => exact ⟨[], by simp⟩
  | cons lane final ih =>
      obtain ⟨pairs, hSublist, hResults, hPairs⟩ :=
        ih fun other hOther => hFinds other (List.mem_cons_of_mem _ hOther)
      cases hLane : lane.left with
      | none =>
          refine ⟨pairs, hSublist.cons _, ?_, hPairs⟩
          simpa [hLane] using hResults
      | some r =>
          refine ⟨(lane.target, r) :: pairs, hSublist.cons_cons _, by simp [hLane, hResults], ?_⟩
          intro p hp
          rcases List.mem_cons.mp hp with rfl | hp
          · exact hFinds lane (List.mem_cons_self ..) r hLane
          · exact hPairs p hp

/-- A runner that finds one error in every target, whatever is done about it. -/
def stubborn : Runner Unit where
  check t s := (.counted t.ecosystem t.pattern [⟨"a.go", 1, 1, "", .error, "", false⟩], s)
  fix _ s := s

end Runner

/-- The runner that uses the shell marks its results, whatever its commands do. -/
theorem Workspace.labels_runner (root : String) : (Workspace.runner root).Labels := by
  intro t w
  simp only [Workspace.runner, Target.checkResult]
  split <;> rfl

namespace Workplace

/-- A run gets past the matching of files and reads this conversation. -/
structure Consults (w : Workplace σ) (config : Config) (s : σ) (c : Conversation) : Prop where
  changed : w.changedFiles s ≠ []
  selected : w.selected config s ≠ []
  history : w.history s = some c

theorem Consults.clearance_eq {w : Workplace σ} {config : Config} {s : σ} {c : Conversation}
    (h : w.Consults config s c) : w.clearance config s =
      if max config.maxIterations.toNat 1 ≤ c.requestCount then
        .error (.budgetExhausted c.requestsSent)
      else .ok (c.budget config.maxIterations) := by
  simp only [clearance, targets_eq_selected, List.isEmpty_iff, if_neg h.changed, if_neg h.selected,
    h.history, Conversation.budget_isSpent_iff, Conversation.spent_budget]

/-- The outcome in exact numbers: every comparison is one of natural numbers. -/
theorem Consults.outcome_eq {w : Workplace σ} {config : Config} {s : σ} {c : Conversation}
    (h : w.Consults config s c) (turns : List Nat) : (w.runInTurns turns config s).1 =
      if max config.maxIterations.toNat 1 ≤ c.requestCount then
        .skipped (.budgetExhausted c.requestsSent)
      else if (w.worked turns config s).1 = [] then .passed
      else if c.requestCount + 1 < max config.maxIterations.toNat 1 then
        .requested (.of (c.budget config.maxIterations) (w.worked turns config s).1)
      else .exhausted (c.budget config.maxIterations).next (w.worked turns config s).1 := by
  rw [runInTurns_eq, h.clearance_eq]
  by_cases hSpent : max config.maxIterations.toNat 1 ≤ c.requestCount
  · simp only [if_pos hSpent]
  · simp only [if_neg hSpent, outcome_decide, Conversation.budget_mayRequest_iff]

/-- A run that does not read its history is skipped, and not for the budget. -/
theorem consults_or_skipped (w : Workplace σ) (turns : List Nat) (config : Config) (s : σ) :
    (∃ c, w.Consults config s c) ∨ ∃ reason, (∀ prior, reason ≠ .budgetExhausted prior) ∧
      w.runInTurns turns config s = (.skipped reason, s) := by
  have hAdmission := w.clearance_admission config s
  rw [runInTurns_eq]
  generalize w.clearance config s = clearance at hAdmission ⊢
  cases hAdmission with
  | noChanges => exact .inr ⟨_, by simp, rfl⟩
  | noTargets => exact .inr ⟨_, by simp, rfl⟩
  | historyUnavailable => exact .inr ⟨_, by simp, rfl⟩
  | budgetExhausted changed selected history => exact .inl ⟨_, changed, selected, history⟩
  | admitted admitted => exact .inl ⟨_, admitted.changed, admitted.selected, admitted.history⟩

theorem finds_worked (w : Workplace σ) (turns : List Nat) (config : Config) (s : σ) :
    ∃ pairs : List (Target × CheckResult), (pairs.map Prod.fst).Sublist (w.selected config s) ∧
      pairs.map Prod.snd = (w.worked turns config s).1 ∧
      ∀ p ∈ pairs, w.toRunner.Finds p.1 p.2 := by
  rw [worked, pass_eq_interleaved]
  exact w.toRunner.interleaved_finds _ _ _

theorem diagnostics_of_mem_worked (w : Workplace σ) {turns : List Nat} {config : Config} {s : σ}
    {r : CheckResult} (h : r ∈ (w.worked turns config s).1) : r.diagnostics ≠ [] := by
  obtain ⟨pairs, -, hResults, hFinds⟩ := w.finds_worked turns config s
  rw [← hResults, List.mem_map] at h
  obtain ⟨p, hp, rfl⟩ := h
  simpa [CheckResult.isClean] using (hFinds p hp).1

/-- Results that a runner marks with their targets name selected targets in the
configured order, none of them twice. -/
theorem labels_worked {w : Workplace σ} (hLabels : w.toRunner.Labels) (turns : List Nat)
    (config : Config) (s : σ) :
    ((w.worked turns config s).1.map CheckResult.label).Sublist (config.targets.map Target.label) ∧
      ((w.worked turns config s).1.map CheckResult.target).Nodup := by
  obtain ⟨pairs, hSublist, hResults, hFinds⟩ := w.finds_worked turns config s
  have hLabel : ∀ p ∈ pairs, p.2.label = p.1.label := by
    intro p hp
    obtain ⟨-, s, hCheck⟩ := hFinds p hp
    rw [← hCheck]
    exact hLabels p.1 s
  have hTarget : ∀ p ∈ pairs, p.2.target = p.1.pattern :=
    fun p hp => congrArg Prod.snd (hLabel p hp)
  rw [← hResults, List.map_map, List.map_map]
  constructor
  · have hLabels : pairs.map (CheckResult.label ∘ Prod.snd) =
        (pairs.map Prod.fst).map Target.label := by
      rw [List.map_map]
      exact List.map_congr_left hLabel
    rw [hLabels]
    exact (hSublist.trans (w.selected_sublist config s)).map _
  · have hTargets : pairs.map (CheckResult.target ∘ Prod.snd) =
        (pairs.map Prod.fst).map Target.pattern := by
      rw [List.map_map]
      exact List.map_congr_left hTarget
    rw [hTargets]
    exact (hSublist.map _).nodup (Selection.nodup_pattern_targets _ _)

/-- The decision in exact numbers, read backwards: which count, limit and results
give an outcome. -/
theorem Consults.outcome_iff {w : Workplace σ} {config : Config} {s : σ} {c : Conversation}
    (h : w.Consults config s c) (turns : List Nat) :
    let count := c.requestCount
    let limit := max config.maxIterations.toNat 1
    let left := (w.worked turns config s).1
    let outcome := (w.runInTurns turns config s).1
    (∀ reason, outcome = .skipped reason ↔
        limit ≤ count ∧ reason = .budgetExhausted c.requestsSent) ∧
      (outcome = .passed ↔ count < limit ∧ left = []) ∧
      (∀ request, outcome = .requested request ↔
        count + 1 < limit ∧ left ≠ [] ∧ request = .of (c.budget config.maxIterations) left) ∧
      ∀ iteration results, outcome = .exhausted iteration results ↔
        count + 1 = limit ∧ left ≠ [] ∧ iteration = (c.budget config.maxIterations).next ∧
          results = left := by
  intro count limit left outcome
  have hOutcome : outcome = if limit ≤ count then .skipped (.budgetExhausted c.requestsSent)
      else if left = [] then .passed
      else if count + 1 < limit then .requested (.of (c.budget config.maxIterations) left)
      else .exhausted (c.budget config.maxIterations).next left := h.outcome_eq turns
  by_cases hSpent : limit ≤ count
  · have hPast : ¬ count < limit := by omega
    have hNoRoom : ¬ count + 1 < limit := by omega
    have hNotLast : ¬ count + 1 = limit := by omega
    simp [hOutcome, hSpent, hPast, hNoRoom, hNotLast]
    exact fun reason => eq_comm
  · have hOpen : count < limit := by omega
    by_cases hLeft : left = []
    · simp [hOutcome, hSpent, hOpen, hLeft]
    · by_cases hRoom : count + 1 < limit
      · have hNotLast : ¬ count + 1 = limit := by omega
        simp [hOutcome, hSpent, hLeft, hRoom, hNotLast, eq_comm]
      · have hLast : count + 1 = limit := by omega
        simp [hOutcome, hSpent, hLeft, hLast, eq_comm]

/-- A run that reads its history decides in exact numbers. With the requests
counted so far and the limit, which is at least one, it is skipped for the
budget exactly when the count has reached the limit; when results are left it
requests exactly while the next number is below the limit, and is exhausted
exactly when the next number is the limit. The number that is reported is the
next one in each case. Whatever is left has errors, and if the runner marks
results with their targets, as the shell does, it names configured targets in
their order and none twice. -/
theorem outcome_at_boundary {w : Workplace σ} {config : Config} {s : σ} {c : Conversation}
    (h : w.Consults config s c) (turns : List Nat) :
    let count := c.requestCount
    let limit := max config.maxIterations.toNat 1
    let left := (w.worked turns config s).1
    let outcome := (w.runInTurns turns config s).1
    (∀ reason, outcome = .skipped reason ↔
        limit ≤ count ∧ reason = .budgetExhausted c.requestsSent) ∧
      (outcome = .passed ↔ count < limit ∧ left = []) ∧
      (∀ request, outcome = .requested request ↔
        count + 1 < limit ∧ left ≠ [] ∧ request.iteration.toNat = count + 1 ∧
          request.maxIterations.toNat = limit ∧ request.results = left) ∧
      (∀ iteration results, outcome = .exhausted iteration results ↔
        count + 1 = limit ∧ left ≠ [] ∧ iteration.toNat = limit ∧ results = left) ∧
      (∀ r ∈ left, r.diagnostics ≠ []) ∧
      (w.toRunner.Labels →
        (left.map CheckResult.label).Sublist (config.targets.map Target.label) ∧
          (left.map CheckResult.target).Nodup) ∧
      ∀ root, (Workspace.runner root).Labels := by
  intro count limit left outcome
  obtain ⟨hSkipped, hPassed, hRequested, hExhausted⟩ := h.outcome_iff turns
  refine ⟨hSkipped, hPassed, fun request => ?_, fun iteration results => ?_, ?_,
    fun hLabels => labels_worked hLabels turns config s, Workspace.labels_runner⟩
  · rw [hRequested]
    refine and_congr_right fun hRoom => and_congr_right fun _ => ?_
    exact Conversation.request_eq_iff (Nat.lt_of_succ_lt hRoom) left request
  · rw [hExhausted]
    refine and_congr_right fun hLast => and_congr_right fun _ => and_congr_left fun _ => ?_
    rw [Conversation.next_eq_iff (by omega) iteration, hLast]
  · exact fun r hr => w.diagnostics_of_mem_worked hr

/-- With one request counted and a limit of two the next run that leaves errors is
the last: it reports the second iteration and asks for nothing. -/
theorem outcome_at_last_iteration :
    let host := Host.inMemory Runner.stubborn ["a.go", "b.rs"] true
    let config : Config := ⟨2, true, [⟨"*.go", .go, "lint", "fix"⟩, ⟨"*.rs", .rust, "lint", "fix"⟩]⟩
    let c : Conversation := [.userText "\"task\":\"fix_lint_errors\""]
    host.Consults config ((), c) c ∧ host.Labels ∧
      (host.runInTurns [1, 0, 1] config ((), c)).1 =
        .exhausted 2 (host.worked [1, 0, 1] config ((), c)).1 ∧
      ((host.worked [1, 0, 1] config ((), c)).1.map CheckResult.label).Sublist
        [(.go, "*.go"), (.rust, "*.rs")] := by
  intro host config c
  have hConsults : host.Consults config ((), c) c :=
    ⟨by decide, by decide +kernel, rfl⟩
  have hLabels : host.Labels := fun t s => rfl
  obtain ⟨-, -, -, hExhausted, -, hNamed, -⟩ := outcome_at_boundary hConsults [1, 0, 1]
  refine ⟨hConsults, hLabels, (hExhausted 2 _).mpr ⟨?_, ?_, ?_, rfl⟩, (hNamed hLabels).1⟩
  · decide +kernel
  · decide +kernel
  · decide

end Workplace

end LintRepair
