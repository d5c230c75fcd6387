import LintRepair.Proofs.Repair.Account
import LintRepair.Proofs.Repair.Admission

/-! One run after another, without end, and the same run at two places. Places whose answers agree
in related states let a run go the same way, call by call, and leave related states for the next. -/

namespace LintRepair

variable {α σ τ : Type}

/-- The state in which each of an endless succession of runs begins. -/
def stateBefore (act : Nat → σ → α × σ) (s : σ) : Nat → σ
  | 0 => s
  | k + 1 => (act k (stateBefore act s k)).2

/-- What every run hands on to the next holds before all of them. -/
theorem stateBefore_invariant {act : Nat → σ → α × σ} {s : σ} {P : Nat → σ → Prop}
    (hStart : P 0 s)
    (hStep : ∀ k, P k (stateBefore act s k) → P (k + 1) (stateBefore act s (k + 1)))
    (k : Nat) : P k (stateBefore act s k) := by
  induction k with
  | zero => exact hStart
  | succ k ih => exact hStep k ih

/-- The same answer, in states that are related. -/
def Agree (R : σ → τ → Prop) (p : α × σ) (q : α × τ) : Prop := p.1 = q.1 ∧ R p.2 q.2

namespace Workplace

/-- In related states one workplace answers like the other, as far as these targets
go, and the states stay related. Whether a prompt is delivered is no part of the
answer. -/
structure Simulates (v : Workplace σ) (w : Workplace τ) (targets : List Target)
    (R : σ → τ → Prop) : Prop where
  check : ∀ t ∈ targets, ∀ {s u}, R s u → Agree R (v.check t s) (w.check t u)
  fix : ∀ t ∈ targets, ∀ {s u}, R s u → R (v.fix t s) (w.fix t u)
  changedFiles : ∀ {s u}, R s u → v.changedFiles s = w.changedFiles u
  history : ∀ {s u}, R s u → v.history s = w.history u
  prompt : ∀ text {s u}, R s u → R (v.prompt text s).2 (w.prompt text u).2
  notify : ∀ level text {s u}, R s u → R (v.notify level text s) (w.notify level text u)

namespace Simulates

variable {v : Workplace σ} {w : Workplace τ} {targets : List Target} {R : σ → τ → Prop}

theorem advance (h : v.Simulates w targets R) {lane : Lane} (hLane : lane.target ∈ targets) {s : σ}
    {u : τ} (hRelated : R s u) :
    Agree R (v.toRunner.advance lane s) (w.toRunner.advance lane u) := by
  obtain ⟨t, stage⟩ := lane
  cases stage with
  | check =>
      obtain ⟨hAnswer, hAfter⟩ := h.check t hLane hRelated
      exact ⟨by simp [Runner.advance, hAnswer], hAfter⟩
  | fix => exact ⟨rfl, h.fix t hLane hRelated⟩
  | recheck =>
      obtain ⟨hAnswer, hAfter⟩ := h.check t hLane hRelated
      exact ⟨by simp [Runner.advance, hAnswer], hAfter⟩
  | ended left => exact ⟨rfl, hRelated⟩

/-- In one turn the same lane makes the same call in both. -/
theorem takeTurn (h : v.Simulates w targets R) (turn : Nat) {lanes : List Lane}
    (hLanes : lanes.map Lane.target ⊆ targets) {s : σ} {u : τ} (hRelated : R s u) :
    Agree R (v.toRunner.takeTurn turn lanes s) (w.toRunner.takeTurn turn lanes u) := by
  unfold Runner.takeTurn
  split
  · rename_i lane hLane
    have hTarget := hLanes (List.mem_map_of_mem (List.mem_of_getElem? hLane))
    obtain ⟨hNext, hAfter⟩ := h.advance hTarget hRelated
    exact ⟨by simp only [hNext], hAfter⟩
  · exact ⟨rfl, hRelated⟩

theorem takeTurns (h : v.Simulates w targets R) (turns : List Nat) {lanes : List Lane}
    (hLanes : lanes.map Lane.target ⊆ targets) {s : σ} {u : τ} (hRelated : R s u) :
    Agree R (v.toRunner.takeTurns turns lanes s) (w.toRunner.takeTurns turns lanes u) := by
  induction turns generalizing lanes s u with
  | nil => exact ⟨rfl, hRelated⟩
  | cons turn turns ih =>
      obtain ⟨hNext, hAfter⟩ := h.takeTurn turn hLanes hRelated
      simp only [Runner.takeTurns, hNext]
      refine ih ?_ hAfter
      rw [Runner.targets_takeTurn]
      exact hLanes

theorem conclude (h : v.Simulates w targets R) {lane : Lane} (hLane : lane.target ∈ targets) {s : σ}
    {u : τ} (hRelated : R s u) :
    Agree R (v.toRunner.conclude lane s) (w.toRunner.conclude lane u) := by
  obtain ⟨hFirst, hOnce⟩ := h.advance hLane hRelated
  obtain ⟨hSecond, hTwice⟩ := h.advance
    (show (w.toRunner.advance lane u).1.target ∈ targets by simpa using hLane) hOnce
  simp only [Runner.conclude, hFirst, hSecond]
  exact h.advance (by simpa using hLane) hTwice

theorem concludeAll (h : v.Simulates w targets R) {lanes : List Lane}
    (hLanes : lanes.map Lane.target ⊆ targets) {s : σ} {u : τ} (hRelated : R s u) :
    Agree R (v.toRunner.concludeAll lanes s) (w.toRunner.concludeAll lanes u) := by
  induction lanes generalizing s u with
  | nil => exact ⟨rfl, hRelated⟩
  | cons lane lanes ih =>
      rw [List.map_cons, List.cons_subset] at hLanes
      obtain ⟨hLane, hAfter⟩ := h.conclude hLanes.1 hRelated
      obtain ⟨hMore, hEnd⟩ := ih hLanes.2 hAfter
      exact ⟨by simp only [Runner.concludeAll, hLane, hMore], hEnd⟩

/-- In the same turns both make the same calls and leave the same results. -/
theorem interleaved (h : v.Simulates w targets R) (turns : List Nat) {some : List Target}
    (hSome : some ⊆ targets) {s : σ} {u : τ} (hRelated : R s u) :
    Agree R (v.toRunner.interleaved turns some s) (w.toRunner.interleaved turns some u) := by
  have hLanes : (Runner.lanesOf some).map Lane.target ⊆ targets := by
    rw [Runner.targets_lanesOf]
    exact hSome
  obtain ⟨hNext, hAfter⟩ := h.takeTurns turns hLanes hRelated
  unfold Runner.lanesOf at hNext hAfter hLanes
  simp only [Runner.interleaved, hNext]
  refine h.concludeAll ?_ hAfter
  rw [Runner.targets_takeTurns]
  exact hLanes

theorem clearance (h : v.Simulates w targets R) (config : Config) {s : σ} {u : τ}
    (hRelated : R s u) : v.clearance config s = w.clearance config u := by
  simp only [Workplace.clearance, h.changedFiles hRelated, h.history hRelated]

/-- Up to the decision both go the same way. -/
theorem worked (h : v.Simulates w targets R) (turns : List Nat) {config : Config}
    (hTargets : config.targets ⊆ targets) {s : σ} {u : τ} (hRelated : R s u) :
    Agree R (v.worked turns config s) (w.worked turns config u) := by
  have hSelected : v.selected config s = w.selected config u := by
    rw [selected, selected, h.changedFiles hRelated]
  simp only [Workplace.worked, pass_eq_interleaved, hSelected]
  exact h.interleaved _ (fun t ht => hTargets ((w.selected_sublist config u).subset ht))
    (h.notify _ _ hRelated)

theorem decide (h : v.Simulates w targets R) (budget : Budget) (left : List CheckResult) {s : σ}
    {u : τ} (hRelated : R s u) : Agree R (v.decide budget left s) (w.decide budget left u) := by
  refine ⟨by rw [outcome_decide, outcome_decide], ?_⟩
  cases left with
  | nil => exact h.notify _ _ hRelated
  | cons r more =>
      simp only [Workplace.decide]
      split
      · exact h.prompt _ hRelated
      · exact h.notify _ _ hRelated

/-- In related states a run has the same outcome at both places. -/
theorem runInTurns (h : v.Simulates w targets R) (turns : List Nat) {config : Config}
    (hTargets : config.targets ⊆ targets) {s : σ} {u : τ} (hRelated : R s u) :
    Agree R (v.runInTurns turns config s) (w.runInTurns turns config u) := by
  rw [runInTurns_eq, runInTurns_eq, h.clearance config hRelated]
  obtain ⟨hLeft, hAfter⟩ := h.worked turns hTargets hRelated
  split
  · exact ⟨rfl, hRelated⟩
  · rw [hLeft]
    exact h.decide _ _ hAfter

/-- The calls that are written down agree too. -/
theorem recording (h : v.Simulates w targets R) :
    v.recording.Simulates w.recording targets fun s u => R s.1 u.1 ∧ s.2 = u.2 where
  check t ht {s u} hRelated := by
    obtain ⟨hState, hCalls⟩ := hRelated
    obtain ⟨hAnswer, hAfter⟩ := h.check t ht hState
    exact ⟨hAnswer, hAfter, by simp only [Workplace.recording, hCalls, hAnswer]⟩
  fix t ht {s u} hRelated :=
    ⟨h.fix t ht hRelated.1, by simp only [Workplace.recording, hRelated.2]⟩
  changedFiles hRelated := h.changedFiles hRelated.1
  history hRelated := h.history hRelated.1
  prompt text {s u} hRelated :=
    ⟨h.prompt text hRelated.1, by simp only [Workplace.recording, hRelated.2]⟩
  notify level text {s u} hRelated :=
    ⟨h.notify level text hRelated.1, by simp only [Workplace.recording, hRelated.2]⟩

end Simulates

/-- A workplace that writes calls down behaves like the workplace itself. -/
theorem recording_simulates (w : Workplace σ) (targets : List Target) :
    w.recording.Simulates w targets fun s u => s.1 = u where
  check t _ {s u} h := by subst h; exact ⟨rfl, rfl⟩
  fix t _ {s u} h := by subst h; rfl
  changedFiles {s u} h := by subst h; rfl
  history {s u} h := by subst h; rfl
  prompt text {s u} h := by subst h; rfl
  notify level text {s u} h := by subst h; rfl

/-- Writing calls down changes no run. -/
theorem runInTurns_recording (w : Workplace σ) (turns : List Nat) (config : Config) (s : σ)
    (calls : List Call) :
    ((w.recording.runInTurns turns config (s, calls)).1,
      (w.recording.runInTurns turns config (s, calls)).2.1) = w.runInTurns turns config s :=
  Prod.ext_iff.mpr ((w.recording_simulates _).runInTurns turns (List.Subset.refl _) rfl)

end Workplace

end LintRepair
