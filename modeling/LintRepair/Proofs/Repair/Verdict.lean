import LintRepair.Proofs.Lint.Selection
import LintRepair.Proofs.Repair.Succession
import LintRepair.Workspace.Basic
import Mathlib.Data.List.Nodup

/-! What the verdict of a run rests on. The commands may behave in any way; every check is written
down with what running its command told. A run passes on the texts that its last checks captured, and
whether a command could be run at all has no part in it. -/

namespace LintRepair

open Relation (ReflTransGen)
open Shell (Execution)

variable {σ : Type}

/-- What runs commands, with a state of its own. It may do anything. -/
abbrev Commands (σ : Type) := String → σ → Execution × σ

/-- The checks that were made, each with what running its command told. -/
abbrev CheckLog := List (Target × Execution)

/-- What the text that was captured says about the target. -/
def Target.found (t : Target) (root : String) (e : Execution) : List Diagnostic :=
  t.ecosystem.diagnostics e.diagnosticsText root

/-- A result has the diagnostics that were found, whether or not the command could
be run. -/
@[simp] theorem Target.isClean_checkResult (t : Target) (root : String) (e : Execution) :
    (t.checkResult root e).isClean = (t.found root e).isEmpty := by
  unfold checkResult
  cases e.isFailed <;> rfl

namespace CheckLog

/-- What the checks of a target told, in their order. -/
def of (t : Target) (log : CheckLog) : List Execution :=
  log.filterMap fun entry => if entry.1 = t then some entry.2 else none

theorem of_append (t : Target) (log more : CheckLog) : of t (log ++ more) = of t log ++ of t more :=
  List.filterMap_append

@[simp] theorem of_singleton_self (t : Target) (e : Execution) : of t [(t, e)] = [e] := by simp [of]

end CheckLog

/-- What the checks of a cycle told, and what the cycle left. A second check is made
if and only if something was found, and then it is the one that counts. -/
inductive Target.Cycled (t : Target) (root : String) : List Execution → Option CheckResult → Prop where
  | clean {e : Execution} (nothing : t.found root e = []) : Cycled t root [e] none
  | mended {first e : Execution} (unclean : t.found root first ≠ []) (nothing : t.found root e = []) :
      Cycled t root [first, e] none
  | failing {first e : Execution} (unclean : t.found root first ≠ [])
      (something : t.found root e ≠ []) :
      Cycled t root [first, e] (some (t.checkResult root e))

/-- A cycle leaves nothing if and only if its last check found nothing. -/
theorem Target.Cycled.eq_none_iff {t : Target} {root : String} {told : List Execution}
    {left : Option CheckResult} (h : t.Cycled root told left) :
    left = none ↔ ∃ e, told.getLast? = some e ∧ t.found root e = [] := by
  cases h with
  | clean nothing => simp [nothing]
  | mended _ nothing => simp [nothing]
  | failing _ something => simp [something]

/-- How far a lane has come, by what the checks of its target told. -/
def Lane.Told (root : String) (log : CheckLog) (lane : Lane) : Prop :=
  match lane.stage with
  | .check => log.of lane.target = []
  | .fix | .recheck => ∃ first, log.of lane.target = [first] ∧ lane.target.found root first ≠ []
  | .ended left => lane.target.Cycled root (log.of lane.target) left

namespace Runner

/-- The runner that has the commands of targets run. -/
def ofCommands (commands : Commands σ) (root : String) : Runner σ where
  check t s :=
    let (e, s) := commands t.check s
    (t.checkResult root e, s)
  fix t s := (commands t.fix s).2

/-- The same runner, with every check written down behind the earlier ones. -/
def logging (commands : Commands σ) (root : String) : Runner (σ × CheckLog) where
  check t s :=
    let (e, after) := commands t.check s.1
    (t.checkResult root e, after, s.2 ++ [(t, e)])
  fix t s := ((commands t.fix s.1).2, s.2)

/-- A call writes down nothing but checks of its own target, and its lane goes on by
what they told. -/
theorem told_advance (commands : Commands σ) {root : String} {lane : Lane} {s : σ × CheckLog}
    (h : lane.Told root s.2) :
    ∃ more : CheckLog, ((logging commands root).advance lane s).2.2 = s.2 ++ more ∧
      (∀ entry ∈ more, entry.1 = lane.target) ∧
      ((logging commands root).advance lane s).1.Told root (s.2 ++ more) := by
  obtain ⟨t, stage⟩ := lane
  cases stage with
  | check =>
      refine ⟨[(t, (commands t.check s.1).1)], rfl, by simp, ?_⟩
      have hOf : CheckLog.of t (s.2 ++ [(t, (commands t.check s.1).1)]) = [(commands t.check s.1).1] := by
        rw [CheckLog.of_append, h, List.nil_append, CheckLog.of_singleton_self]
      cases hFound : (t.found root (commands t.check s.1).1).isEmpty with
      | true =>
          simp only [advance, logging, Target.isClean_checkResult, hFound, if_true, Lane.Told, hOf]
          exact .clean (List.isEmpty_iff.mp hFound)
      | false =>
          simp only [advance, logging, Target.isClean_checkResult, hFound, Lane.Told, hOf]
          exact ⟨_, rfl, by simpa [List.isEmpty_iff] using hFound⟩
  | fix => exact ⟨[], (List.append_nil _).symm, by simp, by rwa [List.append_nil]⟩
  | recheck =>
      obtain ⟨first, hFirst, hUnclean⟩ := h
      refine ⟨[(t, (commands t.check s.1).1)], rfl, by simp, ?_⟩
      have hOf : CheckLog.of t (s.2 ++ [(t, (commands t.check s.1).1)]) =
          [first, (commands t.check s.1).1] := by
        rw [CheckLog.of_append, hFirst, CheckLog.of_singleton_self]
        rfl
      cases hFound : (t.found root (commands t.check s.1).1).isEmpty with
      | true =>
          simp only [advance, logging, Target.isClean_checkResult, hFound, if_true, Lane.Told, hOf]
          exact .mended hUnclean (List.isEmpty_iff.mp hFound)
      | false =>
          simp only [advance, logging, Target.isClean_checkResult, hFound, Lane.Told, hOf]
          exact .failing hUnclean (by simpa [List.isEmpty_iff] using hFound)
  | ended left => exact ⟨[], (List.append_nil _).symm, by simp, by rwa [List.append_nil]⟩

/-- What is written down for another target is no matter for a lane. -/
theorem told_append_of_ne {root : String} {lane : Lane} {log more : CheckLog}
    (h : lane.Told root log) (hOther : ∀ entry ∈ more, entry.1 ≠ lane.target) : lane.Told root (log ++ more) := by
  have hNone : CheckLog.of lane.target more = [] := by
    rw [CheckLog.of, List.filterMap_eq_nil_iff]
    exact fun entry hEntry => if_neg (hOther entry hEntry)
  have hOf : CheckLog.of lane.target (log ++ more) = log.of lane.target := by
    rw [CheckLog.of_append, hNone, List.append_nil]
  simpa only [Lane.Told, hOf] using h

/-- Lanes of different targets go on by what the checks of their own target told. -/
theorem Move.told {commands : Commands σ} {root : String} {p q : List Lane × (σ × CheckLog)}
    (h : ReflTransGen (logging commands root).Move p q) (hNodup : (p.1.map Lane.target).Nodup)
    (hStart : ∀ lane ∈ p.1, lane.Told root p.2.2) : ∀ lane ∈ q.1, lane.Told root q.2.2 := by
  induction h with
  | refl => exact hStart
  | tail hMoves hMove ih =>
      rw [← Move.targets hMoves] at hNodup
      cases hMove with
      | call before lane after s =>
          obtain ⟨more, hLog, hOwn, hNext⟩ :=
            told_advance commands (ih lane (mem_lanes_iff.mpr (.inl rfl)))
          rw [List.map_append, List.map_cons, List.nodup_middle, List.nodup_cons,
            ← List.map_append] at hNodup
          intro other hOther
          rw [hLog]
          rcases mem_lanes_iff.mp hOther with rfl | hOther
          · exact hNext
          · refine told_append_of_ne (ih other (mem_lanes_iff.mpr (.inr hOther))) fun entry hEntry => ?_
            rw [hOwn entry hEntry]
            exact fun hSame => hNodup.1 (hSame ▸ List.mem_map_of_mem hOther)

/-- A pass over different targets makes a cycle of each, and leaves nothing if and
only if the last check of each found nothing. -/
theorem interleaved_told (commands : Commands σ) (root : String) (turns : List Nat)
    {targets : List Target} (hNodup : targets.Nodup) (s : σ) :
    let pass := (logging commands root).interleaved turns targets (s, [])
    (∀ t ∈ targets, ∃ left, t.Cycled root (CheckLog.of t pass.2.2) left) ∧
      (pass.1 = [] ↔ ∀ t ∈ targets, ∃ e,
        (CheckLog.of t pass.2.2).getLast? = some e ∧ t.found root e = []) := by
  intro pass
  obtain ⟨final, hMoves, hOver, hLeft⟩ :=
    (logging commands root).interleaved_moves turns targets (s, [])
  have hTargets : final.map Lane.target = targets := by
    rw [Move.targets hMoves, targets_lanesOf]
  have hTold := Move.told hMoves (by rwa [targets_lanesOf]) (by simp [lanesOf, Lane.Told, CheckLog.of])
  have hCycled : ∀ lane ∈ final, lane.target.Cycled root (CheckLog.of lane.target pass.2.2) lane.left := by
    intro lane hLane
    obtain ⟨left, hStage⟩ := hOver lane hLane
    simpa [Lane.Told, Lane.left, hStage] using hTold lane hLane
  subst hTargets
  constructor
  · intro t ht
    obtain ⟨lane, hLane, rfl⟩ := List.mem_map.mp ht
    exact ⟨lane.left, hCycled lane hLane⟩
  · have hNothing : pass.1 = [] ↔ ∀ lane ∈ final, lane.left = none := by
      rw [hLeft, List.flatMap_eq_nil_iff]
      simp
    rw [hNothing, List.forall_mem_map]
    exact forall₂_congr fun lane hLane => (hCycled lane hLane).eq_none_iff

end Runner

namespace Workplace

/-- The workplace, with these commands for its checks and fixes. -/
def withCommands (w : Workplace σ) (commands : Commands σ) (root : String) : Workplace σ :=
  { w with toRunner := .ofCommands commands root }

/-- The same, with every check written down. -/
def logging (w : Workplace σ) (commands : Commands σ) (root : String) :
    Workplace (σ × CheckLog) where
  toRunner := .logging commands root
  changedFiles s := w.changedFiles s.1
  history s := w.history s.1
  prompt text s :=
    let (delivered, after) := w.prompt text s.1
    (delivered, after, s.2)
  notify level text s := (w.notify level text s.1, s.2)

/-- Writing checks down changes nothing else. -/
theorem logging_simulates (w : Workplace σ) (commands : Commands σ) (root : String)
    (targets : List Target) :
    (w.logging commands root).Simulates (w.withCommands commands root) targets fun s u => s.1 = u where
  check t _ {s u} h := by subst h; exact ⟨rfl, rfl⟩
  fix t _ {s u} h := by subst h; rfl
  changedFiles {s u} h := by subst h; rfl
  history {s u} h := by subst h; rfl
  prompt text {s u} h := by subst h; rfl
  notify level text {s u} h := by subst h; rfl

/-- A workspace works with the commands of its shell. -/
theorem workplace_eq_withCommands (o : Workspace.Options) : Workspace.workplace o =
    (Workspace.workplace o).withCommands (fun command w => w.shell command o.root) o.root := rfl

/-- A decision writes nothing into the log of checks. -/
theorem log_decide (w : Workplace σ) (commands : Commands σ) (root : String) (budget : Budget)
    (left : List CheckResult) (s : σ × CheckLog) :
    ((w.logging commands root).decide budget left s).2.2 = s.2 := by
  cases left with
  | nil => rfl
  | cons r more =>
      rw [decide]
      split <;> rfl

/-- Nothing but a pass that leaves nothing gives the notice of success. -/
theorem passed_iff_worked (w : Workplace σ) {turns : List Nat} {config : Config} {s : σ}
    {budget : Budget} (h : w.clearance config s = .ok budget) :
    (w.runInTurns turns config s).1 = .passed ↔ (w.worked turns config s).1 = [] := by
  rw [runInTurns_eq, h]
  simp only [outcome_decide]
  split
  · rename_i hLeft
    simp [hLeft]
  · rename_i hLeft
    split <;> simp [hLeft]

theorem notice_of_passed {w : Workplace σ} {turns : List Nat} {config : Config} {s : σ}
    (h : (w.runInTurns turns config s).1 = .passed) :
    ∃ after, (w.runInTurns turns config s).2 = w.notify .success passedNotice after := by
  cases hClearance : w.clearance config s with
  | error reason =>
      rw [runInTurns_eq, hClearance] at h
      cases h
  | ok budget =>
      have hLeft := (w.passed_iff_worked hClearance).mp h
      rw [runInTurns_eq, hClearance, hLeft]
      exact ⟨_, rfl⟩

/-- A run that is not skipped passes if and only if, for every selected target, the
text that its last check captured says nothing. That check may have completed or
may not have been run at all: the verdict does not look at it. -/
theorem passed_iff_nothing_found (w : Workplace σ) (commands : Commands σ) (root : String)
    (turns : List Nat) (config : Config) (s : σ) :
    let run := (w.withCommands commands root).runInTurns turns config s
    let logged := (w.logging commands root).runInTurns turns config (s, [])
    let told := fun t => CheckLog.of t logged.2.2
    (logged.1, logged.2.1) = run ∧
      (run.1 = .passed → ∃ after, run.2 = w.notify .success passedNotice after) ∧
      ((∀ reason, run.1 ≠ .skipped reason) →
        (∀ t ∈ w.selected config s, ∃ left, t.Cycled root (told t) left) ∧
        (run.1 = .passed ↔ ∀ t ∈ w.selected config s, ∃ e,
          (told t).getLast? = some e ∧ t.found root e = [])) := by
  intro run logged told
  have hSame : (logged.1, logged.2.1) = run := Prod.ext_iff.mpr
    ((w.logging_simulates commands root _).runInTurns turns (List.Subset.refl _) rfl)
  refine ⟨hSame, notice_of_passed, fun hWorks => ?_⟩
  have hOutcome : logged.1 = run.1 := congrArg Prod.fst hSame
  rw [← hOutcome] at hWorks ⊢
  cases hClearance : (w.logging commands root).clearance config (s, []) with
  | error reason =>
      have hSkipped : logged.1 = .skipped reason := by
        simp only [logged, runInTurns_eq, hClearance]
      exact absurd hSkipped (hWorks reason)
  | ok budget =>
      let pass := (w.logging commands root).worked turns config (s, [])
      have hLog : logged.2.2 = pass.2.2 := by
        simp only [logged, runInTurns_eq, hClearance]
        exact w.log_decide commands root budget pass.1 pass.2
      have hPass : pass = (Runner.logging commands root).interleaved
          (if config.parallel then turns else []) (w.selected config s)
          (w.notify .info startedNotice s, []) := pass_eq_interleaved ..
      have hNodup : (w.selected config s).Nodup :=
        (Selection.nodup_pattern_targets _ _).of_map _
      obtain ⟨hCycled, hNothing⟩ := Runner.interleaved_told commands root
        (if config.parallel then turns else []) hNodup (w.notify .info startedNotice s)
      rw [← hPass] at hCycled hNothing
      simp only [told, hLog]
      exact ⟨hCycled, ((w.logging commands root).passed_iff_worked hClearance).trans hNothing⟩

/-- A run can pass on a check that was not run: the shell does not find the linter,
and what it says about that is no diagnostic. -/
theorem passed_on_missing_linter :
    let o : Workspace.Options := { root := ".", files := some ["a.go"] }
    let config : Config := ⟨3, false, [⟨"**/*.go", .go, "no-such-linter", "true"⟩]⟩
    let w : Workspace := ⟨Files.Tree.empty, [], [], {}⟩
    let commands : Commands Workspace := fun command w => w.shell command o.root
    let run := (Workspace.workplace o).run config w
    let logged := ((Workspace.workplace o).logging commands o.root).runInTurns [] config (w, [])
    (Workspace.workplace o).selected config w = config.targets ∧
      logged.2.2.map (fun entry => (entry.1, entry.2.isFailed)) =
        config.targets.map (fun t => (t, true)) ∧
      run.1 = .passed ∧
      run.2.printed.err = "info: Running lint checks...\nok: Lint passed ✓\n".toList := by
  decide +kernel

end Workplace

end LintRepair
