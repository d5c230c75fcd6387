import LintRepair.Repair.Parallel
import Mathlib.Data.List.Basic
import Mathlib.Logic.Relation

/-! Calls in turns. Whatever the turns are, a pass is a sequence of moves, each the next call of
some lane, that ends when every cycle is over; and every such sequence is made by some turns. With
no turn given the lanes go on one after another, which is the plain run. -/

namespace LintRepair

open Relation (ReflTransGen)

variable {σ : Type}

namespace Runner

/-- The next call of one of the lanes. -/
inductive Move (runner : Runner σ) : List Lane × σ → List Lane × σ → Prop where
  | call (before : List Lane) (lane : Lane) (after : List Lane) (s : σ) :
      Move runner (before ++ lane :: after, s)
        (before ++ (runner.advance lane s).1 :: after, (runner.advance lane s).2)

/-- The lanes of some targets before any call. -/
def lanesOf (targets : List Target) : List Lane := targets.map fun t => ⟨t, .check⟩

@[simp] theorem target_advance (runner : Runner σ) (lane : Lane) (s : σ) :
    (runner.advance lane s).1.target = lane.target := by
  unfold advance
  split <;> rfl

/-- Moves keep the targets of the lanes. -/
theorem Move.targets {runner : Runner σ} {p q : List Lane × σ} (h : ReflTransGen runner.Move p q) :
    q.1.map Lane.target = p.1.map Lane.target := by
  induction h with
  | refl => rfl
  | tail _ hMove ih =>
      cases hMove with
      | call before lane after s => simpa using ih

/-- Behind a call there are the lane that made it and the ones that did not. -/
theorem mem_lanes_iff {before after : List Lane} {next other : Lane} :
    other ∈ before ++ next :: after ↔ other = next ∨ other ∈ before ++ after := by
  simp only [List.mem_append, List.mem_cons]
  exact or_left_comm

/-- What the checks and fixes of a target keep is kept by a call of its lane. -/
theorem advance_keeps {runner : Runner σ} {P : σ → Prop} {lane : Lane}
    (hCheck : ∀ s, P s → P (runner.check lane.target s).2)
    (hFix : ∀ s, P s → P (runner.fix lane.target s)) {s : σ} (h : P s) :
    P (runner.advance lane s).2 := by
  obtain ⟨t, stage⟩ := lane
  cases stage with
  | check => exact hCheck s h
  | fix => exact hFix s h
  | recheck => exact hCheck s h
  | ended left => exact h

/-- What the checks and fixes of some targets keep is kept by moves of their lanes. -/
theorem Move.keeps {runner : Runner σ} {targets : List Target} {P : σ → Prop}
    (hCheck : ∀ t ∈ targets, ∀ s, P s → P (runner.check t s).2)
    (hFix : ∀ t ∈ targets, ∀ s, P s → P (runner.fix t s)) {p q : List Lane × σ}
    (hMoves : ReflTransGen runner.Move p q) (hTargets : p.1.map Lane.target ⊆ targets)
    (h : P p.2) : P q.2 := by
  induction hMoves with
  | refl => exact h
  | tail hMoves hMove ih =>
      cases hMove with
      | call before lane after s =>
          have hLane : lane.target ∈ targets := by
            rw [← Move.targets hMoves] at hTargets
            exact hTargets (List.mem_map_of_mem (mem_lanes_iff.mpr (.inl rfl)))
          exact advance_keeps (hCheck _ hLane) (hFix _ hLane) ih

@[simp] theorem targets_lanesOf (targets : List Target) :
    (lanesOf targets).map Lane.target = targets := by
  rw [lanesOf, List.map_map]
  exact List.map_id targets

theorem advance_of_ended {runner : Runner σ} {lane : Lane} {left : Option CheckResult}
    (h : lane.stage = .ended left) (s : σ) : runner.advance lane s = (lane, s) := by
  simp [advance, h]

/-- Three calls are enough for every cycle. -/
theorem stage_conclude (runner : Runner σ) (lane : Lane) (s : σ) :
    ∃ left, (runner.conclude lane s).1.stage = .ended left := by
  obtain ⟨t, stage⟩ := lane
  cases stage with
  | ended left => exact ⟨left, rfl⟩
  | recheck => exact ⟨_, rfl⟩
  | fix => exact ⟨_, rfl⟩
  | check =>
      cases hFirst : (runner.check t s).1.isClean <;> simp [conclude, advance, hFirst]

/-- A turn is the call of a lane, or nothing. -/
theorem takeTurn_cases (runner : Runner σ) (turn : Nat) (lanes : List Lane) (s : σ) :
    runner.takeTurn turn lanes s = (lanes, s) ∨
      ∃ before lane after, lanes = before ++ lane :: after ∧ turn = before.length ∧
        runner.takeTurn turn lanes s =
          (before ++ (runner.advance lane s).1 :: after, (runner.advance lane s).2) := by
  unfold takeTurn
  split
  · rename_i lane hLane
    obtain ⟨hTurn, rfl⟩ := List.getElem?_eq_some_iff.mp hLane
    refine .inr ⟨lanes.take turn, lanes[turn], lanes.drop (turn + 1), ?_, ?_, ?_⟩
    · rw [List.getElem_cons_drop, List.take_append_drop]
    · rw [List.length_take, Nat.min_eq_left (Nat.le_of_lt hTurn)]
    · simp only [List.set_eq_take_append_cons_drop, if_pos hTurn]
  · exact .inl rfl

theorem takeTurns_moves (runner : Runner σ) (turns : List Nat) (lanes : List Lane) (s : σ) :
    ReflTransGen runner.Move (lanes, s) (runner.takeTurns turns lanes s) := by
  induction turns generalizing lanes s with
  | nil => exact .refl
  | cons turn turns ih =>
      have hRest := ih (runner.takeTurn turn lanes s).1 (runner.takeTurn turn lanes s).2
      rcases runner.takeTurn_cases turn lanes s with hNone | ⟨before, lane, after, rfl, -, hCall⟩
      · rw [hNone] at hRest
        rw [takeTurns, hNone]
        exact hRest
      · rw [hCall] at hRest
        rw [takeTurns, hCall]
        exact .head (.call before lane after s) hRest

@[simp] theorem targets_takeTurns (runner : Runner σ) (turns : List Nat) (lanes : List Lane)
    (s : σ) : (runner.takeTurns turns lanes s).1.map Lane.target = lanes.map Lane.target :=
  Move.targets (runner.takeTurns_moves turns lanes s)

@[simp] theorem targets_takeTurn (runner : Runner σ) (turn : Nat) (lanes : List Lane) (s : σ) :
    (runner.takeTurn turn lanes s).1.map Lane.target = lanes.map Lane.target :=
  runner.targets_takeTurns [turn] lanes s

theorem conclude_moves (runner : Runner σ) (before : List Lane) (lane : Lane) (after : List Lane)
    (s : σ) : ReflTransGen runner.Move (before ++ lane :: after, s)
      (before ++ (runner.conclude lane s).1 :: after, (runner.conclude lane s).2) :=
  .head (.call before _ after _) (.head (.call before _ after _) (.single (.call before _ after _)))

/-- Behind lanes that are over already, the others come to their ends by moves too. -/
theorem concludeAll_moves (runner : Runner σ) (done lanes : List Lane) (s : σ) :
    ∃ final, ReflTransGen runner.Move (done ++ lanes, s)
        (done ++ final, (runner.concludeAll lanes s).2) ∧
      (∀ lane ∈ final, ∃ left, lane.stage = .ended left) ∧
      (runner.concludeAll lanes s).1 = final.flatMap fun lane => lane.left.toList := by
  induction lanes generalizing done s with
  | nil => exact ⟨[], .refl, by simp, rfl⟩
  | cons lane lanes ih =>
      obtain ⟨final, hMoves, hOver, hLeft⟩ :=
        ih (done ++ [(runner.conclude lane s).1]) (runner.conclude lane s).2
      simp only [List.append_assoc, List.cons_append, List.nil_append] at hMoves
      refine ⟨(runner.conclude lane s).1 :: final,
        (runner.conclude_moves done lane lanes s).trans hMoves, ?_, ?_⟩
      · intro other hOther
        rcases List.mem_cons.mp hOther with rfl | hOther
        · exact runner.stage_conclude lane s
        · exact hOver other hOther
      · simp only [concludeAll, hLeft, List.flatMap_cons]

/-- Every pass ends by moves with all cycles over. -/
theorem interleaved_moves (runner : Runner σ) (turns : List Nat) (targets : List Target) (s : σ) :
    ∃ final, ReflTransGen runner.Move (lanesOf targets, s)
        (final, (runner.interleaved turns targets s).2) ∧
      (∀ lane ∈ final, ∃ left, lane.stage = .ended left) ∧
      (runner.interleaved turns targets s).1 = final.flatMap fun lane => lane.left.toList := by
  obtain ⟨final, hMoves, hOver, hLeft⟩ :=
    runner.concludeAll_moves [] (runner.takeTurns turns (lanesOf targets) s).1
      (runner.takeTurns turns (lanesOf targets) s).2
  exact ⟨final, (runner.takeTurns_moves turns (lanesOf targets) s).trans hMoves, hOver, hLeft⟩

theorem concludeAll_of_ended {runner : Runner σ} {lanes : List Lane}
    (h : ∀ lane ∈ lanes, ∃ left, lane.stage = .ended left) (s : σ) :
    runner.concludeAll lanes s = (lanes.flatMap fun lane => lane.left.toList, s) := by
  induction lanes with
  | nil => rfl
  | cons lane lanes ih =>
      obtain ⟨left, hLane⟩ := h lane (List.mem_cons_self ..)
      have hRest := ih fun other hOther => h other (List.mem_cons_of_mem _ hOther)
      simp only [concludeAll, conclude, advance_of_ended hLane, hRest, List.flatMap_cons]

theorem takeTurns_append (runner : Runner σ) (first second : List Nat) (lanes : List Lane) (s : σ) :
    runner.takeTurns (first ++ second) lanes s =
      runner.takeTurns second (runner.takeTurns first lanes s).1
        (runner.takeTurns first lanes s).2 := by
  induction first generalizing lanes s with
  | nil => rfl
  | cons turn first ih => exact ih _ _

/-- Moves are made by turns: those of the positions of the lanes that move. -/
theorem takeTurns_of_moves {runner : Runner σ} {p q : List Lane × σ}
    (h : ReflTransGen runner.Move p q) : ∃ turns, runner.takeTurns turns p.1 p.2 = q := by
  induction h with
  | refl => exact ⟨[], rfl⟩
  | tail _ hMove ih =>
      obtain ⟨turns, hTurns⟩ := ih
      cases hMove with
      | call before lane behind s =>
          refine ⟨turns ++ [before.length], ?_⟩
          rw [takeTurns_append, hTurns]
          simp [takeTurns, takeTurn]

/-- Every way to order the calls is a list of turns: moves that bring all cycles
to their ends are a pass. -/
theorem interleaved_of_moves {runner : Runner σ} {targets : List Target} {s after : σ}
    {final : List Lane} (hMoves : ReflTransGen runner.Move (lanesOf targets, s) (final, after))
    (hOver : ∀ lane ∈ final, ∃ left, lane.stage = .ended left) :
    ∃ turns, runner.interleaved turns targets s =
      (final.flatMap fun lane => lane.left.toList, after) := by
  obtain ⟨turns, hTurns⟩ := takeTurns_of_moves hMoves
  refine ⟨turns, ?_⟩
  unfold lanesOf at hTurns
  rw [interleaved, hTurns]
  exact concludeAll_of_ended hOver after

/-- A lane that has not begun goes through the cycle of its target. -/
theorem conclude_start (runner : Runner σ) (t : Target) (s : σ) :
    ((runner.conclude ⟨t, .check⟩ s).1.left, (runner.conclude ⟨t, .check⟩ s).2) =
      runner.cycle t s := by
  cases hFirst : (runner.check t s).1.isClean with
  | true => simp [conclude, advance, cycle, Lane.left, hFirst]
  | false => simp [conclude, advance, cycle, Lane.left, hFirst]

/-- Without turns the targets come one after another. -/
theorem interleaved_nil (runner : Runner σ) (targets : List Target) (s : σ) :
    runner.interleaved [] targets s = runner.remaining targets s := by
  change runner.concludeAll (lanesOf targets) s = _
  induction targets generalizing s with
  | nil => rfl
  | cons t targets ih =>
      have hCycle := runner.conclude_start t s
      rw [Prod.ext_iff] at hCycle
      simp only [remaining, ← hCycle.1, ← hCycle.2, ← ih]
      rfl

end Runner

namespace Workplace

/-- Both ways to make a pass are turns. -/
theorem pass_eq_interleaved (w : Workplace σ) (turns : List Nat) (config : Config)
    (targets : List Target) (s : σ) : w.pass turns config targets s =
      w.toRunner.interleaved (if config.parallel then turns else []) targets s := by
  unfold pass
  split
  · rfl
  · rw [Runner.interleaved_nil]

end Workplace

end LintRepair
