import LintRepair.Proofs.Repair.Boundary
import LintRepair.Proofs.Repair.Session
import LintRepair.Proofs.Repair.Succession

/-! Errors that persist, run after run. The only memory is what the engine wrote into the
conversation itself, yet the runs follow an exact schedule: each request carries the next number, and
once one number is left every run ends exhausted and writes nothing. -/

namespace LintRepair

variable {σ : Type}

/-- What others write, and then a run. -/
structure Round (σ : Type) where
  written : List Message
  host : Host σ
  config : Config
  turns : List Nat

namespace Round

/-- The state in which the run of a round begins. -/
def opened (r : Round σ) (s : σ × Conversation) : σ × Conversation := (s.1, s.2 ++ r.written)

def perform (r : Round σ) (s : σ × Conversation) : Outcome × (σ × Conversation) :=
  r.host.runInTurns r.turns r.config (r.opened s)

/-- The run has this limit, and only the engine itself writes fix requests. -/
structure Sole (r : Round σ) (limit : UInt32) : Prop where
  limit : r.config.maxIterations = limit
  quiet : ∀ m ∈ r.written, m.isFixRequest = false

/-- The run finds work and can read what was said before, errors are left if it
gets to work, and prompts are delivered. -/
structure Persistent (r : Round σ) (s : σ × Conversation) : Prop where
  consults : r.host.Consults r.config (r.opened s) (r.opened s).2
  failing : (r.opened s).2.requestCount < max r.config.maxIterations.toNat 1 →
    (r.host.worked r.turns r.config (r.opened s)).1 ≠ []
  delivers : ∀ text u, (r.host.prompt text u).1 = true

theorem opened_snd (r : Round σ) (s : σ × Conversation) : (r.opened s).2 = s.2 ++ r.written := rfl

theorem Sole.requestCount_opened {r : Round σ} {limit : UInt32} (h : r.Sole limit)
    (s : σ × Conversation) : (r.opened s).2.requestCount = s.2.requestCount := by
  have hWritten : Conversation.requestCount r.written = 0 := by
    simpa [Conversation.requestCount, List.filter_eq_nil_iff] using h.quiet
  rw [opened_snd, Conversation.requestCount_append, hWritten, Nat.add_zero]

/-- What a round adds to the conversation. -/
theorem conversation_perform (r : Round σ) (s : σ × Conversation) :
    ((r.perform s).2.2 = s.2 ++ r.written ++ (r.perform s).1.messages ∨
        (r.perform s).2.2 = s.2 ++ r.written) ∧
      ((∀ text u, (r.host.prompt text u).1 = true) →
        (r.perform s).2.2 = s.2 ++ r.written ++ (r.perform s).1.messages) :=
  r.host.conversation_after_run r.turns r.config (r.opened s)

/-- A round that keeps to the limit never counts the last number itself. -/
theorem Sole.requestCount_lt {r : Round σ} {limit : UInt32} (h : r.Sole limit)
    {s : σ × Conversation} (hCount : s.2.requestCount < max limit.toNat 1) :
    (r.perform s).2.2.requestCount < max limit.toNat 1 := by
  have hOpened := h.requestCount_opened s
  have hDecided := r.host.runInTurns_decided r.turns r.config (r.opened s)
  unfold perform
  generalize r.host.runInTurns r.turns r.config (r.opened s) = final at hDecided ⊢
  cases hDecided with
  | quiet other kept =>
      rw [kept, hOpened]
      exact hCount
  | lost room number undelivered kept =>
      rw [kept, hOpened]
      exact hCount
  | sent room number added =>
      rw [Conversation.budget_mayRequest_iff, h.limit, hOpened] at room
      rw [added, Conversation.requestCount_append, Session.requestCount_payload, hOpened]
      exact room

/-- Below the limit a round is not skipped for the budget. -/
theorem Sole.not_exhausted {r : Round σ} {limit : UInt32} (h : r.Sole limit)
    {s : σ × Conversation} (hCount : s.2.requestCount < max limit.toNat 1) (prior : UInt32) :
    (r.perform s).1 ≠ .skipped (.budgetExhausted prior) := by
  intro hOutcome
  rcases r.host.consults_or_skipped r.turns r.config (r.opened s) with
    ⟨c, hConsults⟩ | ⟨reason, hOther, hSkipped⟩
  · have hSpent := (((hConsults.outcome_iff r.turns).1 _).mp hOutcome).1
    rw [r.host.history_reads _ _ hConsults.history, h.limit, h.requestCount_opened] at hSpent
    omega
  · rw [perform, hSkipped] at hOutcome
    exact hOther prior (Outcome.skipped.inj hOutcome)

/-- With errors that persist the outcome of a round hangs on the count alone. -/
theorem Persistent.outcome {r : Round σ} {limit : UInt32} {s : σ × Conversation}
    (h : r.Persistent s) (hSole : r.Sole limit) :
    (max limit.toNat 1 ≤ s.2.requestCount →
        ∃ prior, (r.perform s).1 = .skipped (.budgetExhausted prior)) ∧
      (s.2.requestCount + 1 < max limit.toNat 1 → ∃ request,
        (r.perform s).1 = .requested request ∧ request.iteration.toNat = s.2.requestCount + 1) ∧
      (s.2.requestCount + 1 = max limit.toNat 1 → ∃ iteration results,
        (r.perform s).1 = .exhausted iteration results ∧ iteration.toNat = max limit.toNat 1) := by
  obtain ⟨hSkipped, -, hRequested, hExhausted⟩ := h.consults.outcome_iff r.turns
  have hFailing := h.failing
  rw [hSole.limit] at hSkipped hRequested hExhausted hFailing
  rw [hSole.requestCount_opened] at hSkipped hRequested hExhausted hFailing
  have hNext : s.2.requestCount < max limit.toNat 1 →
      ((r.opened s).2.budget limit).next.toNat = s.2.requestCount + 1 := by
    rw [← hSole.requestCount_opened]
    exact fun hOpen => (Conversation.next_eq_iff hOpen _).mp rfl
  refine ⟨fun hSpent => ⟨_, (hSkipped _).mpr ⟨hSpent, rfl⟩⟩, fun hRoom => ?_, fun hLast => ?_⟩
  · exact ⟨_, (hRequested _).mpr ⟨hRoom, hFailing (by omega), rfl⟩, hNext (by omega)⟩
  · refine ⟨_, _, (hExhausted _ _).mpr ⟨hLast, hFailing (by omega), rfl, rfl⟩, ?_⟩
    rw [hNext (by omega), hLast]

/-- Only a request is counted, so the count goes up while a number is left behind
the next one, and then stays. -/
theorem Persistent.requestCount_perform {r : Round σ} {limit : UInt32} {s : σ × Conversation}
    (h : r.Persistent s) (hSole : r.Sole limit) :
    (r.perform s).2.2.requestCount =
      s.2.requestCount + if s.2.requestCount + 1 < max limit.toNat 1 then 1 else 0 := by
  obtain ⟨hSpent, hRoom, hLast⟩ := h.outcome hSole
  rw [(r.conversation_perform s).2 h.delivers, Conversation.requestCount_append, ← opened_snd,
    hSole.requestCount_opened]
  congr 1
  split
  · rename_i hOpen
    obtain ⟨request, hOutcome, -⟩ := hRoom hOpen
    rw [hOutcome]
    exact Session.requestCount_payload request
  · rename_i hFull
    by_cases hCount : max limit.toNat 1 ≤ s.2.requestCount
    · obtain ⟨prior, hOutcome⟩ := hSpent hCount
      rw [hOutcome]
      rfl
    · obtain ⟨iteration, results, hOutcome, -⟩ := hLast (by omega)
      rw [hOutcome]
      rfl

/-- Errors that persist make an exact schedule, for every limit, every
conversation to begin with and every endless succession of rounds in which
nobody else writes a fix request. From a count below the limit no run is ever
skipped for the budget. When moreover every run has work, leaves errors and gets
its prompt delivered, then from a count that has reached the limit every run is
skipped and writes nothing; and from below it the runs request with the numbers
that follow the count, one each, until only the limit itself is left, which is
what every run from there on reports as exhausted, writing nothing. -/
theorem persistent_errors_schedule (limit : UInt32) (rounds : Nat → Round σ)
    (s : σ × Conversation) (hSole : ∀ k, (rounds k).Sole limit) :
    let most := max limit.toNat 1
    let count := s.2.requestCount
    let before := stateBefore (fun k => (rounds k).perform) s
    let outcome := fun k => ((rounds k).perform (before k)).1
    (count < most → ∀ k prior, outcome k ≠ .skipped (.budgetExhausted prior)) ∧
      ((∀ k, (rounds k).Persistent (before k)) →
        (most ≤ count → ∀ k, (∃ prior, outcome k = .skipped (.budgetExhausted prior)) ∧
          (before (k + 1)).2 = (before k).2 ++ (rounds k).written) ∧
        (count < most → ∀ k,
          (k < most - 1 - count → ∃ request, outcome k = .requested request ∧
            request.iteration.toNat = count + k + 1 ∧
            (before (k + 1)).2 =
              (before k).2 ++ (rounds k).written ++ [.userText request.payload]) ∧
          (most - 1 - count ≤ k → ∃ iteration results,
            outcome k = .exhausted iteration results ∧ iteration.toNat = most ∧
            (before (k + 1)).2 = (before k).2 ++ (rounds k).written))) := by
  intro most count before outcome
  constructor
  · intro hCount k prior
    refine (hSole k).not_exhausted ?_ prior
    exact stateBefore_invariant (P := fun _ (s : σ × Conversation) => s.2.requestCount < most)
      hCount (fun k hBelow => (hSole k).requestCount_lt hBelow) k
  intro hPersistent
  -- Prompts are delivered, so each round adds its request and no round loses one.
  have hAfter : ∀ k, (before (k + 1)).2 =
      (before k).2 ++ (rounds k).written ++ (outcome k).messages :=
    fun k => ((rounds k).conversation_perform (before k)).2 (hPersistent k).delivers
  -- The count climbs to the last number below the limit and stays there.
  have hCounts : ∀ k, (before k).2.requestCount = max count (min (count + k) (most - 1)) := by
    refine stateBefore_invariant (P := fun k (s : σ × Conversation) =>
      s.2.requestCount = max count (min (count + k) (most - 1))) ?_ fun k hCount => ?_
    · change count = _
      omega
    refine ((hPersistent k).requestCount_perform (hSole k)).trans ?_
    change (before k).2.requestCount = _ at hCount
    split <;> omega
  constructor
  · intro hSpent k
    obtain ⟨prior, hOutcome⟩ := ((hPersistent k).outcome (hSole k)).1 (by rw [hCounts]; omega)
    refine ⟨⟨prior, hOutcome⟩, ?_⟩
    rw [hAfter, show outcome k = _ from hOutcome]
    exact List.append_nil _
  · intro hOpen k
    obtain ⟨-, hRoom, hLast⟩ := (hPersistent k).outcome (hSole k)
    rw [hCounts] at hRoom hLast
    constructor
    · intro hEarly
      obtain ⟨request, hOutcome, hNumber⟩ := hRoom (by omega)
      refine ⟨request, hOutcome, by omega, ?_⟩
      rw [hAfter, show outcome k = _ from hOutcome]
      rfl
    · intro hLate
      obtain ⟨iteration, results, hOutcome, hNumber⟩ := hLast (by omega)
      refine ⟨iteration, results, hOutcome, hNumber, ?_⟩
      rw [hAfter, show outcome k = _ from hOutcome]
      exact List.append_nil _

/-- A limit of three and errors that no fix removes: two requests, and then the
third iteration without end. -/
theorem persistent_errors_three :
    let round : Round Unit := ⟨[.userText "go on"], Host.inMemory Runner.stubborn ["a.go"] true,
      ⟨3, true, [⟨"*.go", .go, "lint", "fix"⟩]⟩, [0, 0]⟩
    let before := stateBefore (fun _ => round.perform) ((), [])
    (∃ request, (round.perform (before 0)).1 = .requested request ∧
        request.iteration.toNat = 1) ∧
      (∃ request, (round.perform (before 1)).1 = .requested request ∧
        request.iteration.toNat = 2) ∧
      ∀ k, 2 ≤ k → ∃ iteration results,
        (round.perform (before k)).1 = .exhausted iteration results ∧ iteration.toNat = 3 := by
  intro round before
  have hSole : round.Sole 3 := ⟨rfl, by decide⟩
  have hSelected : Selection.targets round.config.targets ["a.go"] = round.config.targets := by
    decide +kernel
  have hPersistent : ∀ s, round.Persistent s := by
    intro s
    refine ⟨⟨List.cons_ne_nil _ _, ?_, rfl⟩, fun _ => ?_, fun _ _ => rfl⟩
    · change Selection.targets round.config.targets ["a.go"] ≠ []
      rw [hSelected]
      decide
    · change (round.host.toRunner.interleaved [0, 0]
        (Selection.targets round.config.targets ["a.go"]) (round.opened s)).1 ≠ []
      rw [hSelected]
      exact List.cons_ne_nil _ _
  obtain ⟨-, hSchedule⟩ := persistent_errors_schedule 3 (fun _ => round) ((), []) fun _ => hSole
  have hOpen := (hSchedule fun k => hPersistent _).2 (by decide)
  obtain ⟨first, hFirst, hOne, -⟩ := (hOpen 0).1 (by decide)
  obtain ⟨second, hSecond, hTwo, -⟩ := (hOpen 1).1 (by decide)
  refine ⟨⟨first, hFirst, hOne⟩, ⟨second, hSecond, hTwo⟩, fun k hLate => ?_⟩
  obtain ⟨iteration, results, hOutcome, hNumber, -⟩ := (hOpen k).2 hLate
  exact ⟨iteration, results, hOutcome, hNumber⟩

end Round

end LintRepair
