import LintRepair.Proofs.Lint.Selection
import LintRepair.Proofs.Repair.Succession
import Mathlib.Data.List.Nodup

/-! Cycles that do not meet. If what a check finds depends only on the earlier calls for the same
pattern, every lane follows the visit its target would get alone, whoever has the turn. Selected
targets have different patterns, so a run in turns differs from the plain run in nothing but the
order in which calls of different patterns stand. -/

namespace LintRepair

open Relation (ReflTransGen)

variable {σ : Type}

/-- A call to a runner, without what it answers. -/
inductive Job where
  | check (t : Target)
  | fix (t : Target)
deriving DecidableEq

def Job.target : Job → Target
  | .check t => t
  | .fix t => t

def Job.pattern (job : Job) : String := job.target.pattern

/-- The job in a call; notices and prompts go to no runner. -/
def Call.job? : Call → Option Job
  | .check t _ => some (.check t)
  | .fix t => some (.fix t)
  | .notice .. => none
  | .prompt _ => none

/-- The pattern that a call is for. Notices and prompts have none. -/
def Call.pattern? (call : Call) : Option String := call.job?.map Job.pattern

@[simp] theorem Call.pattern?_check (t : Target) (r : CheckResult) :
    (Call.check t r).pattern? = some t.pattern := rfl

@[simp] theorem Call.pattern?_fix (t : Target) : (Call.fix t).pattern? = some t.pattern := rfl

@[simp] theorem Call.pattern?_notice (level : NoticeLevel) (text : String) :
    (Call.notice level text).pattern? = none := rfl

/-- The calls for a pattern, in their order, or the notices and prompts among
some calls. -/
def Call.only (key : Option String) (calls : List Call) : List Call :=
  calls.filter fun call => call.pattern? = key

namespace Call

theorem only_append (key : Option String) (calls more : List Call) :
    only key (calls ++ more) = only key calls ++ only key more := List.filter_append ..

theorem only_of_forall {key : Option String} {calls : List Call}
    (h : ∀ call ∈ calls, call.pattern? = key) : only key calls = calls := by
  simpa [only, List.filter_eq_self] using h

theorem only_of_forall_ne {key : Option String} {calls : List Call}
    (h : ∀ call ∈ calls, call.pattern? ≠ key) : only key calls = [] := by
  simpa [only, List.filter_eq_nil_iff] using h

/-- The jobs for a pattern are those in the calls for it. -/
theorem filter_jobs (pattern : String) (calls : List Call) :
    (calls.filterMap job?).filter (fun job => job.pattern = pattern) =
      (only (some pattern) calls).filterMap job? := by
  induction calls with
  | nil => rfl
  | cons call calls ih =>
      simp only [only] at ih ⊢
      cases hJob : call.job? with
      | none => simp [pattern?, hJob, ih]
      | some job =>
          by_cases hPattern : job.pattern = pattern <;>
            simp [pattern?, hJob, hPattern, ih]

end Call

/-- What a visit leaves over. -/
def Visit.left (v : Visit) : Option CheckResult := if v.last.isClean then none else some v.last

namespace Runner

/-- Do a job, whatever it answers. -/
def serve (runner : Runner σ) (s : σ) : Job → σ
  | .check t => (runner.check t s).2
  | .fix t => runner.fix t s

/-- The state that some jobs lead to. -/
def after (runner : Runner σ) (s : σ) (jobs : List Job) : σ := jobs.foldl runner.serve s

theorem after_append (runner : Runner σ) (s : σ) (jobs more : List Job) :
    runner.after s (jobs ++ more) = runner.after (runner.after s jobs) more := List.foldl_append ..

/-- From this state on, and as long as these targets are all the jobs are about, what
a check finds depends only on the earlier jobs for the same pattern. -/
def Separable (runner : Runner σ) (targets : List Target) (s : σ) : Prop :=
  ∀ t ∈ targets, ∀ jobs others : List Job,
    (∀ job ∈ jobs, job.target ∈ targets) → (∀ job ∈ others, job.target ∈ targets) →
      jobs.filter (fun job => job.pattern = t.pattern) =
        others.filter (fun job => job.pattern = t.pattern) →
      (runner.check t (runner.after s jobs)).1 = (runner.check t (runner.after s others)).1

/-- What a target would see of the runner with no other target about. -/
def visit (runner : Runner σ) (s : σ) (t : Target) : Visit :=
  if h : (runner.check t s).1.isClean then .clean t (runner.check t s).1 h
  else .fixed t (runner.check t s).1 (runner.check t (runner.after s [.check t, .fix t])).1
    (Bool.eq_false_iff.mpr h)

theorem visit_of_clean {runner : Runner σ} {s : σ} {t : Target}
    (h : (runner.check t s).1.isClean = true) :
    runner.visit s t = .clean t (runner.check t s).1 h :=
  dif_pos h

theorem visit_of_unclean {runner : Runner σ} {s : σ} {t : Target}
    (h : (runner.check t s).1.isClean = false) :
    runner.visit s t = .fixed t (runner.check t s).1
      (runner.check t (runner.after s [.check t, .fix t])).1 h :=
  dif_neg (Bool.eq_false_iff.mp h)

/-- The second check of a visit comes after the first one and the fix. -/
theorem second_of_visit {runner : Runner σ} {s : σ} {t : Target} {first second : CheckResult}
    {notClean : first.isClean = false} (h : runner.visit s t = .fixed t first second notClean) :
    second = (runner.check t (runner.after s [.check t, .fix t])).1 := by
  unfold visit at h
  split at h
  · cases h
  · injection h with _ _ hSecond
    exact hSecond.symm

@[simp] theorem target_visit (runner : Runner σ) (s : σ) (t : Target) :
    (runner.visit s t).target = t := by
  unfold visit
  split <;> rfl

end Runner

/-- A runner that remembers its jobs, and finds an error in every target until a fix
command was run for it. -/
def Runner.mending : Runner (List Job) where
  check t s :=
    let mended := .fix t ∈ s ∧ t.fix ≠ ""
    (.counted t.ecosystem t.pattern
      (if mended then [] else [⟨"a.go", 1, 1, "", .error, "", false⟩]), s ++ [.check t])
  fix t s := s ++ [.fix t]

theorem Runner.after_mending (s jobs : List Job) : mending.after s jobs = s ++ jobs := by
  induction jobs generalizing s with
  | nil => exact (List.append_nil s).symm
  | cons job jobs ih =>
      change mending.after (mending.serve s job) jobs = _
      rw [ih]
      cases job <;> simp [serve, mending]

/-- What was done about one target is no matter for another. -/
theorem Runner.separable_mending (targets : List Target) (s : List Job) :
    mending.Separable targets s := by
  intro t _ jobs others _ _ hJobs
  have hFix : ∀ l : List Job,
      .fix t ∈ l ↔ .fix t ∈ l.filter fun job => job.pattern = t.pattern := by
    simp [Job.pattern, Job.target]
  have hSame : .fix t ∈ jobs ↔ .fix t ∈ others := by
    rw [hFix jobs, hJobs, ← hFix]
  rw [after_mending, after_mending]
  simp only [mending, List.mem_append, hSame]

/-- How far a lane has come in a visit, and the calls it has made for that. -/
inductive Lane.Follows : Lane → Visit → List Call → Prop where
  | due {v : Visit} {t : Target} (target : v.target = t) : Follows ⟨t, .check⟩ v []
  | unclean {t : Target} {first second : CheckResult} {notClean : first.isClean = false} :
      Follows ⟨t, .fix⟩ (.fixed t first second notClean) [.check t first]
  | mended {t : Target} {first second : CheckResult} {notClean : first.isClean = false} :
      Follows ⟨t, .recheck⟩ (.fixed t first second notClean) [.check t first, .fix t]
  | ended {v : Visit} {t : Target} {left : Option CheckResult} (target : v.target = t)
      (isLeft : left = v.left) : Follows ⟨t, .ended left⟩ v v.calls

namespace Workplace

/-- The cycles of some targets keep apart: every lane has come so far in the visit
that its target would see alone, no job is about another target, and calls for
other patterns, notices and prompts are what they were at the start. -/
structure KeepsApart (w : Workplace σ) (targets : List Target) (start : σ × List Call)
    (lanes : List Lane) (s : σ × List Call) : Prop where
  targets_eq : lanes.map Lane.target = targets
  state : s.1 = w.toRunner.after start.1 (s.2.filterMap Call.job?)
  known : ∀ job ∈ s.2.filterMap Call.job?, job.target ∈ targets
  follows : ∀ lane ∈ lanes, lane.Follows (w.toRunner.visit start.1 lane.target)
    (Call.only (some lane.target.pattern) s.2)
  others : ∀ key, (∀ t ∈ targets, some t.pattern ≠ key) →
    Call.only key s.2 = Call.only key start.2

/-- The answer of a check is the one it would have after the jobs of its own
pattern alone. -/
theorem check_separable {w : Workplace σ} {targets : List Target} {s₀ : σ}
    (h : w.toRunner.Separable targets s₀) {s : σ × List Call}
    (hKnown : ∀ job ∈ s.2.filterMap Call.job?, job.target ∈ targets)
    (hState : s.1 = w.toRunner.after s₀ (s.2.filterMap Call.job?)) {t : Target} (ht : t ∈ targets)
    {own : List Call} (hOwn : Call.only (some t.pattern) s.2 = own) {jobs : List Job}
    (hJobs : own.filterMap Call.job? = jobs) (hTarget : ∀ job ∈ jobs, job.target = t) :
    (w.check t s.1).1 = (w.check t (w.toRunner.after s₀ jobs)).1 := by
  have hPattern : ∀ job ∈ jobs, job.pattern = t.pattern :=
    fun job hJob => congrArg Target.pattern (hTarget job hJob)
  rw [hState]
  refine h t ht _ _ hKnown (fun job hJob => by rwa [hTarget job hJob]) ?_
  rw [Call.filter_jobs, hOwn, hJobs, List.filter_eq_self.mpr (by simpa using hPattern)]

/-- The next call of a lane is the next call of the visit that it follows. -/
theorem follows_advance {w : Workplace σ} {targets : List Target} {s₀ : σ}
    (hSeparable : w.toRunner.Separable targets s₀) {lane : Lane} (hLane : lane.target ∈ targets)
    {s : σ × List Call} (hKnown : ∀ job ∈ s.2.filterMap Call.job?, job.target ∈ targets)
    (hState : s.1 = w.toRunner.after s₀ (s.2.filterMap Call.job?))
    (hFollows : lane.Follows (w.toRunner.visit s₀ lane.target)
      (Call.only (some lane.target.pattern) s.2)) :
    ∃ more, (w.recording.toRunner.advance lane s).2 =
        (w.toRunner.after s.1 (more.filterMap Call.job?), s.2 ++ more) ∧
      (∀ call ∈ more, call.job?.map Job.target = some lane.target) ∧
      (w.recording.toRunner.advance lane s).1.Follows (w.toRunner.visit s₀ lane.target)
        (Call.only (some lane.target.pattern) s.2 ++ more) := by
  generalize hVisit : w.toRunner.visit s₀ lane.target = v at hFollows ⊢
  generalize hOwn : Call.only (some lane.target.pattern) s.2 = own at hFollows ⊢
  cases hFollows with
  | @due _ t target =>
      have hFirst : (w.check t s.1).1 = (w.check t s₀).1 :=
        check_separable hSeparable hKnown hState hLane hOwn rfl (by simp)
      refine ⟨[.check t (w.check t s₀).1], ?_, by simp [Call.job?, Job.target], ?_⟩
      · rw [← hFirst]
        rfl
      · -- The answer decides how the lane goes on, and how the visit does.
        subst hVisit
        cases hClean : (w.check t s₀).1.isClean with
        | true =>
            rw [Runner.visit_of_clean hClean]
            simp only [Runner.advance, recording, hFirst, hClean, if_true]
            exact .ended rfl (by simp [Visit.left, Visit.last, hClean])
        | false =>
            rw [Runner.visit_of_unclean hClean]
            simp only [Runner.advance, recording, hFirst, hClean]
            exact .unclean
  | @unclean t first second notClean =>
      exact ⟨[.fix t], rfl, by simp [Call.job?, Job.target], .mended⟩
  | @mended t first second notClean =>
      have hAlone : (w.check t s.1).1 = (w.check t (w.toRunner.after s₀ [.check t, .fix t])).1 :=
        check_separable hSeparable hKnown hState hLane hOwn rfl (by simp [Job.target])
      have hSecond : (w.check t s.1).1 = second :=
        hAlone.trans (Runner.second_of_visit hVisit).symm
      refine ⟨[.check t second], ?_, by simp [Call.job?, Job.target], ?_⟩
      · rw [← hSecond]
        rfl
      · simp only [Runner.advance, recording, hSecond]
        exact .ended rfl rfl
  | ended target isLeft =>
      refine ⟨[], by simp [Runner.advance, Runner.after], by simp, ?_⟩
      rw [List.append_nil]
      exact .ended target isLeft

/-- A call is for the pattern of the target that its job is about. -/
theorem pattern?_of_target {call : Call} {t : Target} (h : call.job?.map Job.target = some t) :
    call.pattern? = some t.pattern := by
  obtain ⟨job, hJob, rfl⟩ := Option.map_eq_some_iff.mp h
  simp [Call.pattern?, hJob, Job.pattern]

/-- No other lane is about the pattern of this one. -/
theorem pattern_ne_of_nodup {before after : List Lane} {lane : Lane} {targets : List Target}
    (hTargets : (before ++ lane :: after).map Lane.target = targets)
    (hDistinct : (targets.map Target.pattern).Nodup) :
    ∀ other ∈ before ++ after, some lane.target.pattern ≠ some other.target.pattern := by
  subst hTargets
  rw [List.map_map, List.map_append, List.map_cons, List.nodup_middle, List.nodup_cons,
    ← List.map_append] at hDistinct
  intro other hOther hEq
  exact hDistinct.1 (List.mem_map.mpr ⟨other, hOther, (Option.some.inj hEq).symm⟩)

/-- A lane that makes its next call keeps out of the other lanes' way. -/
theorem KeepsApart.call {w : Workplace σ} {targets : List Target} {start : σ × List Call}
    (hSeparable : w.toRunner.Separable targets start.1)
    (hDistinct : (targets.map Target.pattern).Nodup) {before after : List Lane} {lane : Lane}
    {s : σ × List Call} (h : w.KeepsApart targets start (before ++ lane :: after) s) :
    w.KeepsApart targets start (before ++ (w.recording.toRunner.advance lane s).1 :: after)
      (w.recording.toRunner.advance lane s).2 := by
  have hMember : lane ∈ before ++ lane :: after := Runner.mem_lanes_iff.mpr (.inl rfl)
  have hLane : lane.target ∈ targets := by
    rw [← h.targets_eq]
    exact List.mem_map_of_mem hMember
  have hTarget := w.recording.toRunner.target_advance lane s
  obtain ⟨more, hAfter, hMore, hFollows⟩ :=
    follows_advance hSeparable hLane h.known h.state (h.follows lane hMember)
  have hPattern := fun call hCall => pattern?_of_target (hMore call hCall)
  -- What the lane adds shows for no pattern but its own.
  have hElsewhere : ∀ key, some lane.target.pattern ≠ key →
      Call.only key (s.2 ++ more) = Call.only key s.2 := by
    intro key hKey
    have hNone : Call.only key more = [] :=
      Call.only_of_forall_ne fun call hCall hEq => hKey ((hPattern call hCall).symm.trans hEq)
    rw [Call.only_append, hNone, List.append_nil]
  rw [hAfter]
  generalize (w.recording.toRunner.advance lane s).1 = next at hTarget hFollows ⊢
  refine ⟨?_, ?_, fun job hJob => ?_, fun other hOther => ?_, fun key hKey => ?_⟩
  · simpa [hTarget] using h.targets_eq
  · rw [List.filterMap_append, Runner.after_append, ← h.state]
  · rw [List.filterMap_append, List.mem_append] at hJob
    rcases hJob with hJob | hJob
    · exact h.known job hJob
    · obtain ⟨call, hCall, hJob⟩ := List.mem_filterMap.mp hJob
      have hOwn := hMore call hCall
      rw [hJob, Option.map_some, Option.some.injEq] at hOwn
      exact hOwn ▸ hLane
  · rcases Runner.mem_lanes_iff.mp hOther with rfl | hOther
    · rw [hTarget, Call.only_append, Call.only_of_forall hPattern]
      exact hFollows
    · rw [hElsewhere _ (pattern_ne_of_nodup h.targets_eq hDistinct other hOther)]
      exact h.follows other (Runner.mem_lanes_iff.mpr (.inr hOther))
  · rw [hElsewhere key (hKey _ hLane)]
    exact h.others key hKey

/-- What keeps the targets apart is kept by all moves, whoever makes the next call. -/
theorem KeepsApart.moves {w : Workplace σ} {targets : List Target} {start : σ × List Call}
    (hSeparable : w.toRunner.Separable targets start.1)
    (hDistinct : (targets.map Target.pattern).Nodup) {p q : List Lane × (σ × List Call)}
    (hMoves : ReflTransGen w.recording.toRunner.Move p q)
    (h : w.KeepsApart targets start p.1 p.2) : w.KeepsApart targets start q.1 q.2 := by
  induction hMoves with
  | refl => exact h
  | tail _ hMove ih =>
      cases hMove with
      | call before lane after s => exact KeepsApart.call hSeparable hDistinct ih

/-- Before any call the cycles are apart. -/
theorem KeepsApart.start {w : Workplace σ} {targets : List Target} {start : σ × List Call}
    (hNoJobs : ∀ call ∈ start.2, call.pattern? = none) :
    w.KeepsApart targets start (Runner.lanesOf targets) start := by
  have hNone : start.2.filterMap Call.job? = [] := by
    simpa [List.filterMap_eq_nil_iff, Call.pattern?] using hNoJobs
  refine ⟨Runner.targets_lanesOf targets, by rw [hNone]; rfl, by simp [hNone], fun lane hLane => ?_,
    fun key _ => rfl⟩
  obtain ⟨t, -, rfl⟩ := List.mem_map.mp hLane
  rw [Call.only_of_forall_ne fun call hCall => by simp [hNoJobs call hCall]]
  exact .due (w.toRunner.target_visit start.1 t)

/-- A lane whose cycle is over has made the calls of its visit and leaves what the
visit leaves. -/
theorem follows_of_ended {lane : Lane} {v : Visit} {own : List Call} (h : lane.Follows v own)
    (hOver : ∃ left, lane.stage = .ended left) : lane.left = v.left ∧ own = v.calls := by
  obtain ⟨left, hStage⟩ := hOver
  cases h with
  | due => cases hStage
  | unclean => cases hStage
  | mended => cases hStage
  | ended target isLeft => exact ⟨isLeft, rfl⟩

/-- What is known when all cycles are over speaks of the visits alone: the results
are what they leave over, and the calls for each pattern are theirs. -/
theorem KeepsApart.ended {w : Workplace σ} {targets : List Target} {start : σ × List Call}
    {lanes : List Lane} {s : σ × List Call} (h : w.KeepsApart targets start lanes s)
    (hOver : ∀ lane ∈ lanes, ∃ left, lane.stage = .ended left) :
    (lanes.flatMap fun lane => lane.left.toList) =
        leftOver (targets.map (w.toRunner.visit start.1)) ∧
      (∀ t ∈ targets, Call.only (some t.pattern) s.2 = (w.toRunner.visit start.1 t).calls) ∧
      ∀ key, (∀ t ∈ targets, some t.pattern ≠ key) →
        Call.only key s.2 = Call.only key start.2 := by
  have hEnds := fun lane hLane => follows_of_ended (h.follows lane hLane) (hOver lane hLane)
  refine ⟨?_, fun t ht => ?_, h.others⟩
  · have hLeft : ∀ lane ∈ lanes, lane.left = (w.toRunner.visit start.1 lane.target).left :=
      fun lane hLane => (hEnds lane hLane).1
    rw [← h.targets_eq]
    clear hEnds hOver h
    induction lanes with
    | nil => rfl
    | cons lane lanes ih =>
        rw [List.flatMap_cons, ih fun other hOther => hLeft other (List.mem_cons_of_mem _ hOther),
          hLeft lane (List.mem_cons_self ..), List.map_cons, List.map_cons, leftOver_cons]
        rfl
  · rw [← h.targets_eq] at ht
    obtain ⟨lane, hLane, rfl⟩ := List.mem_map.mp ht
    exact (hEnds lane hLane).2

/-- In whatever turns they are made, the calls of a pass are those of the visits of
the selected targets, each the one that its target would get alone. -/
theorem worked_separable {w : Workplace σ} (config : Config) {s : σ}
    (hSeparable : w.toRunner.Separable (w.selected config s) (w.notify .info startedNotice s))
    (turns : List Nat) :
    let visit := w.toRunner.visit (w.notify .info startedNotice s)
    let worked := w.recording.worked turns config (s, [])
    worked.1 = leftOver ((w.selected config s).map visit) ∧
      (∀ t ∈ w.selected config s, Call.only (some t.pattern) worked.2.2 = (visit t).calls) ∧
      ∀ key, (∀ t ∈ w.selected config s, some t.pattern ≠ key) →
        Call.only key worked.2.2 = Call.only key [.notice .info startedNotice] := by
  intro visit worked
  have hWorked : worked = w.recording.toRunner.interleaved (if config.parallel then turns else [])
      (w.selected config s) (w.notify .info startedNotice s, [.notice .info startedNotice]) :=
    w.recording.pass_eq_interleaved _ _ _ _
  obtain ⟨final, hMoves, hOver, hLeft⟩ := w.recording.toRunner.interleaved_moves
    (if config.parallel then turns else []) (w.selected config s)
    (w.notify .info startedNotice s, [.notice .info startedNotice])
  have hStart : w.KeepsApart (w.selected config s)
      (w.notify .info startedNotice s, [.notice .info startedNotice])
      (Runner.lanesOf (w.selected config s)) _ := .start (by simp)
  have hEnded := (KeepsApart.moves hSeparable (Selection.nodup_pattern_targets _ _) hMoves
    hStart).ended hOver
  rw [← hWorked] at hEnded hLeft
  rw [← hLeft] at hEnded
  exact hEnded

/-- The call that a decision adds. -/
def ending (budget : Budget) : List CheckResult → Call
  | [] => .notice .success passedNotice
  | r :: more =>
    if budget.mayRequest then .prompt (FixRequest.of budget (r :: more)).payload
    else .notice .error exhaustedNotice

theorem decide_recording (w : Workplace σ) (budget : Budget) (left : List CheckResult)
    (s : σ × List Call) :
    (w.recording.decide budget left s).2.2 = s.2 ++ [ending budget left] := by
  cases left with
  | nil => rfl
  | cons r more =>
      simp only [decide, ending]
      split <;> rfl

/-- Two passes over the same targets, in whatever turns, leave the same results and
the same calls for each pattern. -/
theorem worked_agree {w : Workplace σ} (config : Config) {s : σ}
    (hSeparable : w.toRunner.Separable (w.selected config s) (w.notify .info startedNotice s))
    (parallel parallel' : Bool) (turns turns' : List Nat) :
    let one := w.recording.worked turns { config with parallel := parallel } (s, [])
    let other := w.recording.worked turns' { config with parallel := parallel' } (s, [])
    one.1 = other.1 ∧ ∀ key, Call.only key one.2.2 = Call.only key other.2.2 := by
  intro one other
  obtain ⟨hLeft, hOwn, hRest⟩ :=
    worked_separable { config with parallel := parallel } hSeparable turns
  obtain ⟨hLeft', hOwn', hRest'⟩ :=
    worked_separable { config with parallel := parallel' } hSeparable turns'
  refine ⟨hLeft.trans hLeft'.symm, fun key => ?_⟩
  by_cases hKey : ∃ t ∈ w.selected config s, some t.pattern = key
  · obtain ⟨t, ht, rfl⟩ := hKey
    exact (hOwn t ht).trans (hOwn' t ht).symm
  · have hNone : ∀ t ∈ w.selected config s, some t.pattern ≠ key :=
      fun t ht hEq => hKey ⟨t, ht, hEq⟩
    exact (hRest key hNone).trans (hRest' key hNone).symm

/-- Whatever the turns and whether or not they are allowed, a run has the same
outcome and makes the same calls for each pattern. -/
theorem runInTurns_agree {w : Workplace σ} (config : Config) {s : σ}
    (hSeparable : w.toRunner.Separable (w.selected config s) (w.notify .info startedNotice s))
    (parallel parallel' : Bool) (turns turns' : List Nat) :
    let one := w.recording.runInTurns turns { config with parallel := parallel } (s, [])
    let other := w.recording.runInTurns turns' { config with parallel := parallel' } (s, [])
    one.1 = other.1 ∧ ∀ key, Call.only key one.2.2 = Call.only key other.2.2 := by
  intro one other
  have hClearance : w.recording.clearance { config with parallel := parallel } (s, []) =
      w.recording.clearance { config with parallel := parallel' } (s, []) := rfl
  have hOne : one = _ := w.recording.runInTurns_eq turns _ (s, [])
  have hOther : other = _ := w.recording.runInTurns_eq turns' _ (s, [])
  obtain ⟨hLeft, hCalls⟩ := worked_agree config hSeparable parallel parallel' turns turns'
  rw [hClearance] at hOne
  rw [hOne, hOther]
  cases w.recording.clearance { config with parallel := parallel' } (s, []) with
  | error reason => exact ⟨rfl, fun _ => rfl⟩
  | ok budget =>
      refine ⟨by simp only [outcome_decide, hLeft], fun key => ?_⟩
      simp only [decide_recording, Call.only_append, hCalls, hLeft]

/-- Work on all targets at once is not told apart from work on one after another,
if among the selected targets what a check finds depends only on the earlier calls
for the same pattern. Whatever the turns in which the cycles go on, the outcome, the results in the
order of the targets, the notices and prompts, and the calls for each pattern
are those of the sequential run. The turns leave no way to interleave the cycles
out, and no two of the targets have the same pattern. -/
theorem parallel_agrees_with_sequential (w : Workplace σ) (config : Config) (s : σ)
    (hSeparable : w.toRunner.Separable (w.selected config s) (w.notify .info startedNotice s)) :
    let parallel : Config := { config with parallel := true }
    let sequential : Config := { config with parallel := false }
    let targets := w.selected config s
    let started := w.notify .info startedNotice s
    (∀ turns,
      (w.runInTurns turns parallel s).1 = (w.run sequential s).1 ∧
        (w.worked turns parallel s).1 = (w.toRunner.remaining targets started).1 ∧
        ∀ key, Call.only key (w.recording.runInTurns turns parallel (s, [])).2.2 =
          Call.only key (w.recording.run sequential (s, [])).2.2) ∧
      (∀ final after,
        ReflTransGen w.toRunner.Move (Runner.lanesOf targets, started) (final, after) →
        (∀ lane ∈ final, ∃ left, lane.stage = .ended left) →
        ∃ turns, w.worked turns parallel s = (final.flatMap fun lane => lane.left.toList, after)) ∧
      (targets.map Target.pattern).Nodup := by
  intro parallel sequential targets started
  refine ⟨fun turns => ?_, fun final after hMoves hOver => Runner.interleaved_of_moves hMoves hOver,
    Selection.nodup_pattern_targets _ _⟩
  obtain ⟨hOutcome, hCalls⟩ := runInTurns_agree config hSeparable true false turns []
  refine ⟨?_, ?_, fun key => ?_⟩
  · have hInTurns := congrArg Prod.fst (w.runInTurns_recording turns parallel s [])
    have hInOrder := congrArg Prod.fst (w.runInTurns_recording [] sequential s [])
    rw [← runInTurns_nil, ← hInTurns, ← hInOrder]
    exact hOutcome
  · have hInTurns := ((w.recording_simulates parallel.targets).worked turns
      (List.Subset.refl _) (s := (s, [])) rfl).1
    have hInOrder := ((w.recording_simulates sequential.targets).worked []
      (List.Subset.refl _) (s := (s, [])) rfl).1
    rw [← hInTurns]
    exact (worked_agree config hSeparable true false turns []).1.trans hInOrder
  · rw [← runInTurns_nil]
    exact hCalls key

/-- Two targets whose calls alternate, and of which only the first can be mended. -/
theorem parallel_agrees_alternating :
    let w : Workplace (List Job) :=
      ⟨Runner.mending, fun _ => ["a.go", "b.rs"], fun _ => some [], fun _ s => (true, s),
        fun _ _ s => s⟩
    let config (parallel : Bool) : Config :=
      ⟨3, parallel, [⟨"*.go", .go, "lint", "fix"⟩, ⟨"*.rs", .rust, "lint", ""⟩]⟩
    let turns := [1, 0, 0, 1, 1, 0]
    w.toRunner.Separable (w.selected (config true) []) (w.notify .info startedNotice []) ∧
      (w.runInTurns turns (config true) []).1 = (w.run (config false) []).1 ∧
      (w.worked turns (config true) []).1.map CheckResult.target = ["*.rs"] ∧
      (w.worked turns (config true) []).2 ≠ (w.worked [] (config false) []).2 := by
  intro w config turns
  have hSeparable : w.toRunner.Separable (w.selected (config true) [])
      (w.notify .info startedNotice []) := Runner.separable_mending _ []
  obtain ⟨hTurns, -, -⟩ := parallel_agrees_with_sequential w (config true) [] hSeparable
  exact ⟨hSeparable, (hTurns turns).1, by decide +kernel, by decide +kernel⟩

end Workplace

end LintRepair
