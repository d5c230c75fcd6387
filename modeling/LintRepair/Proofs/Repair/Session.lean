import LintRepair.Proofs.Repair.Host
import LintRepair.Proofs.Repair.Marker

/-! Sessions: runs over one conversation, in turns or one call after another, among messages that
anybody may write. The number of requests is recounted from the conversation at every run, so the
bound is an invariant of the whole log: each request carries the number of the fix requests before it,
plus one. -/

namespace LintRepair

namespace Session

variable {σ : Type}

/-- A step of a session. Every run may have its own host and configuration, and turns
in which a parallel one makes its calls. -/
inductive Step (σ : Type) where
  | run (host : Host σ) (config : Config) (turns : List Nat)
  | message (m : Message)

/-- What a step leaves in the log: the outcome of a run with the messages it
added, or the message that somebody wrote. -/
inductive Entry where
  | run (outcome : Outcome) (added : List Message)
  | message (m : Message)

/-- The messages a step added to the conversation. -/
def Entry.added : Entry → List Message
  | .run _ added => added
  | .message m => [m]

/-- The request of a run, if its payload reached the conversation. -/
def Entry.recorded? : Entry → Option FixRequest
  | .run (.requested r) added => if added = [.userText r.payload] then some r else none
  | _ => none

/-- An entry that adds no fix request: nothing was recorded, and if somebody wrote
a message, it does not count. -/
def Entry.Quiet (e : Entry) : Prop :=
  e.recorded? = none ∧ ∀ m, e = .message m → m.isFixRequest = false

def Step.perform : Step σ → σ × Conversation → Entry × (σ × Conversation)
  | .run host config turns, s =>
    let (outcome, after) := host.runInTurns turns config s
    (.run outcome (after.2.drop s.2.length), after)
  | .message m, s => (.message m, s.1, s.2 ++ [m])

def log : List (Step σ) → σ × Conversation → List Entry
  | [], _ => []
  | step :: steps, s =>
    let (entry, after) := step.perform s
    entry :: log steps after

/-- The largest iteration limit of the runs in a sequence of steps. -/
def largestLimit : List (Step σ) → Nat
  | [] => 0
  | .run _ config _ :: steps => max (max config.maxIterations.toNat 1) (largestLimit steps)
  | .message _ :: steps => largestLimit steps

/-- What an entry can be when the conversation holds so many requests: a request
carries the next number, below the limit, and only requests add to the
conversation. -/
inductive Entry.Fits (limit count : Nat) : Entry → Prop where
  | message (m : Message) : Fits limit count (.message m)
  | silent {outcome : Outcome} (other : ∀ r, outcome ≠ .requested r) :
      Fits limit count (.run outcome [])
  | undelivered {r : FixRequest} (number : r.iteration.toNat = count + 1)
      (room : count + 1 < limit) : Fits limit count (.run (.requested r) [])
  | recorded {r : FixRequest} (number : r.iteration.toNat = count + 1)
      (room : count + 1 < limit) :
      Fits limit count (.run (.requested r) [.userText r.payload])

/-- A log in which every entry fits the number of requests before it. -/
def Fitting (limit : Nat) : Nat → List Entry → Prop
  | _, [] => True
  | count, e :: later =>
    e.Fits limit count ∧ Fitting limit (count + Conversation.requestCount e.added) later

end Session

open Session

variable {σ : Type}

/-- A run in any turns only adds to the conversation, and what it leaves in the log fits the requests
that were there. -/
theorem Host.fits_of_run (host : Host σ) (config : Config) (turns : List Nat) (s : σ × Conversation) :
    let final := host.runInTurns turns config s
    ∃ added, final.2.2 = s.2 ++ added ∧
      Entry.Fits (max config.maxIterations.toNat 1) s.2.requestCount (.run final.1 added) := by
  have hDecided := host.runInTurns_decided turns config s
  generalize host.runInTurns turns config s = final at hDecided ⊢
  cases hDecided with
  | quiet other kept => exact ⟨[], kept.trans (List.append_nil _).symm, .silent other⟩
  | sent room number added =>
      rw [Conversation.budget_mayRequest_iff] at room
      rw [Conversation.next_eq_iff (Nat.lt_of_succ_lt room)] at number
      exact ⟨_, added, .recorded number room⟩
  | lost room number undelivered kept =>
      rw [Conversation.budget_mayRequest_iff] at room
      rw [Conversation.next_eq_iff (Nat.lt_of_succ_lt room)] at number
      exact ⟨[], kept.trans (List.append_nil _).symm, .undelivered number room⟩

namespace Session

theorem Entry.Fits.mono {limit larger count : Nat} {e : Entry} (h : e.Fits limit count)
    (hLimit : limit ≤ larger) : e.Fits larger count := by
  cases h with
  | message m => exact .message m
  | silent other => exact .silent other
  | undelivered number room => exact .undelivered number (by omega)
  | recorded number room => exact .recorded number (by omega)

/-- One step adds to the conversation what its entry says, and the entry fits
the conversation it was made in. -/
theorem Step.perform_fits (step : Step σ) (s : σ × Conversation) :
    (step.perform s).2.2 = s.2 ++ (step.perform s).1.added ∧
      (step.perform s).1.Fits (largestLimit [step]) s.2.requestCount := by
  cases step with
  | message m => exact ⟨rfl, .message m⟩
  | run host config turns =>
      obtain ⟨added, hAfter, hFits⟩ := host.fits_of_run config turns s
      simp only [perform, Entry.added, hAfter, List.drop_left, true_and]
      exact hFits.mono (Nat.le_max_left ..)

theorem largestLimit_cons (step : Step σ) (steps : List (Step σ)) :
    largestLimit (step :: steps) = max (largestLimit [step]) (largestLimit steps) := by
  cases step <;> simp [largestLimit]

theorem Fitting.mono {limit larger count : Nat} {entries : List Entry}
    (h : Fitting limit count entries) (hLimit : limit ≤ larger) : Fitting larger count entries := by
  induction entries generalizing count with
  | nil => trivial
  | cons e later ih => exact ⟨h.1.mono hLimit, ih h.2⟩

/-- Every log fits the conversation its session began with. -/
theorem log_fitting (steps : List (Step σ)) (s : σ × Conversation) :
    Fitting (largestLimit steps) s.2.requestCount (log steps s) := by
  induction steps generalizing s with
  | nil => trivial
  | cons step steps ih =>
      obtain ⟨hAfter, hFits⟩ := step.perform_fits s
      have hLater := ih (step.perform s).2
      rw [hAfter, Conversation.requestCount_append] at hLater
      rw [largestLimit_cons]
      exact ⟨hFits.mono (Nat.le_max_left ..), hLater.mono (Nat.le_max_right ..)⟩

/-- In a log that fits, the part behind some entries fits the requests that
these added. -/
theorem fitting_append {limit count : Nat} {earlier later : List Entry} :
    Fitting limit count (earlier ++ later) ↔ Fitting limit count earlier ∧
      Fitting limit (count + Conversation.requestCount (earlier.flatMap Entry.added)) later := by
  induction earlier generalizing count with
  | nil => simp [Fitting, Conversation.requestCount]
  | cons e earlier ih =>
      rw [List.cons_append, Fitting, Fitting, ih, List.flatMap_cons, Conversation.requestCount_append,
        Nat.add_assoc, and_assoc]

/-- The message of a recorded request counts for one. -/
theorem requestCount_payload (r : FixRequest) : Conversation.requestCount [.userText r.payload] = 1 := by
  rw [Conversation.requestCount_singleton, r.isFixRequest_of_payload_infix (List.infix_refl _)]
  rfl

/-- A request in the log carries the next number, with room behind it. -/
theorem Entry.Fits.of_request {limit count : Nat} {r : FixRequest} {added : List Message}
    (h : Entry.Fits limit count (.run (.requested r) added)) :
    r.iteration.toNat = count + 1 ∧ count + 1 < limit ∧
      (added = [.userText r.payload] ∨ added = []) := by
  cases h with
  | silent other => exact absurd rfl (other r)
  | undelivered number room => exact ⟨number, room, .inr rfl⟩
  | recorded number room => exact ⟨number, room, .inl rfl⟩

theorem Entry.Fits.of_recorded {limit count : Nat} {e : Entry} {r : FixRequest}
    (h : e.Fits limit count) (hRecorded : e.recorded? = some r) :
    r.iteration.toNat = count + 1 ∧ count + 1 < limit ∧ Conversation.requestCount e.added = 1 := by
  unfold recorded? at hRecorded
  split at hRecorded
  · rename_i q added
    split at hRecorded
    · rename_i hAdded
      obtain rfl := Option.some.inj hRecorded
      obtain ⟨hNumber, hRoom, -⟩ := h.of_request
      exact ⟨hNumber, hRoom, hAdded ▸ requestCount_payload q⟩
    · cases hRecorded
  · cases hRecorded

theorem Entry.Fits.count_of_quiet {limit count : Nat} {e : Entry} (h : e.Fits limit count)
    (hQuiet : e.Quiet) : Conversation.requestCount e.added = 0 := by
  cases h with
  | message m => simp [added, Conversation.requestCount_singleton, hQuiet.2 m rfl]
  | silent other => rfl
  | undelivered number room => rfl
  | recorded number room =>
      have hNone := hQuiet.1
      simp [recorded?] at hNone

theorem Fitting.count_of_quiet {limit count : Nat} {entries : List Entry}
    (h : Fitting limit count entries) (hQuiet : ∀ e ∈ entries, e.Quiet) :
    Conversation.requestCount (entries.flatMap Entry.added) = 0 := by
  induction entries generalizing count with
  | nil => rfl
  | cons e later ih =>
      rw [List.flatMap_cons, Conversation.requestCount_append,
        h.1.count_of_quiet (hQuiet e (List.mem_cons_self ..)),
        ih h.2 fun d hd => hQuiet d (List.mem_cons_of_mem _ hd)]

/-- Recorded requests are numbered upwards from the requests there were before. -/
theorem Fitting.lt_iteration {limit count : Nat} {entries : List Entry} {r : FixRequest}
    (h : Fitting limit count entries) (hMem : r ∈ entries.filterMap Entry.recorded?) :
    count < r.iteration.toNat := by
  induction entries generalizing count with
  | nil => cases hMem
  | cons e later ih =>
      obtain ⟨hFits, hLater⟩ := h
      obtain ⟨d, hd, hRecorded⟩ := List.mem_filterMap.mp hMem
      rcases List.mem_cons.mp hd with rfl | hd
      · have hNumber := (hFits.of_recorded hRecorded).1
        omega
      · have hLater := ih hLater (List.mem_filterMap.mpr ⟨d, hd, hRecorded⟩)
        omega

/-- Recorded requests are numbered in rising order, for each adds one to the count of the later
ones. -/
theorem Fitting.pairwise_recorded {limit count : Nat} {entries : List Entry}
    (h : Fitting limit count entries) :
    (entries.filterMap Entry.recorded?).Pairwise fun a b => a.iteration < b.iteration := by
  induction entries generalizing count with
  | nil => exact .nil
  | cons e later ih =>
      obtain ⟨hFits, hLater⟩ := h
      cases hRecorded : e.recorded? with
      | none =>
          rw [List.filterMap_cons_none hRecorded]
          exact ih hLater
      | some r =>
          obtain ⟨hNumber, -, hCount⟩ := hFits.of_recorded hRecorded
          rw [List.filterMap_cons_some hRecorded]
          -- The recorded request counts for the later ones, which carry larger numbers.
          refine .cons (fun b hb => ?_) (ih hLater)
          have hAbove := hLater.lt_iteration hb
          rw [UInt32.lt_iff_toNat_lt]
          omega

/-- Each recorded request uses up one of the numbers below the limit. -/
theorem Fitting.length_recorded {limit count : Nat} {entries : List Entry}
    (h : Fitting limit count entries) :
    (entries.filterMap Entry.recorded?).length ≤ limit - 1 - count := by
  induction entries generalizing count with
  | nil => exact Nat.zero_le _
  | cons e later ih =>
      obtain ⟨hFits, hLater⟩ := h
      have hLength := ih hLater
      cases hRecorded : e.recorded? with
      | none =>
          rw [List.filterMap_cons_none hRecorded]
          omega
      | some r =>
          obtain ⟨-, hRoom, hCount⟩ := hFits.of_recorded hRecorded
          rw [List.filterMap_cons_some hRecorded, List.length_cons]
          omega

/-- From one request of a log to the next, when nothing in between counts, the
number advances by the messages that the first one added. -/
theorem Fitting.iteration_of_request {limit count : Nat} {earlier between later : List Entry}
    {a b : FixRequest} {added given : List Message}
    (h : Fitting limit count
      (earlier ++ .run (.requested a) added :: (between ++ .run (.requested b) given :: later)))
    (hQuiet : ∀ e ∈ between, e.Quiet) :
    (added = [.userText a.payload] ∨ added = []) ∧
      b.iteration.toNat = a.iteration.toNat + Conversation.requestCount added := by
  obtain ⟨-, hFirst, hRest⟩ := fitting_append.mp h
  obtain ⟨hBetween, hSecond, -⟩ := fitting_append.mp hRest
  obtain ⟨hNumber, -, hAdded⟩ := hFirst.of_request
  refine ⟨hAdded, ?_⟩
  rw [hSecond.of_request.1, hBetween.count_of_quiet hQuiet, hNumber, Entry.added]
  omega

/-- The loop is bounded, whatever the hosts do, in whatever turns parallel runs make
their calls and whoever writes in between. With the requests that were there at
the start, no session records more than the largest limit leaves room for;
recorded requests are numbered in rising order; and from one request to the next,
when nothing in between counts, the number advances by one if the first was
recorded and stays if it was not delivered. -/
theorem requests_bounded_and_numbered (steps : List (Step σ)) (own : σ) (c : Conversation) :
    ((log steps (own, c)).filterMap Entry.recorded?).length ≤
        largestLimit steps - 1 - c.requestCount ∧
      (((log steps (own, c)).filterMap Entry.recorded?).Pairwise fun a b =>
        a.iteration < b.iteration) ∧
      ∀ earlier a added between b given later,
        log steps (own, c) = earlier ++ .run (.requested a) added ::
          (between ++ .run (.requested b) given :: later) →
        (∀ e ∈ between, e.Quiet) →
        (added = [.userText a.payload] ∧ b.iteration.toNat = a.iteration.toNat + 1) ∨
          (added = [] ∧ b.iteration = a.iteration) := by
  have hLog := log_fitting steps (own, c)
  refine ⟨hLog.length_recorded, hLog.pairwise_recorded, ?_⟩
  intro earlier a added between b given later hEq hQuiet
  rw [hEq] at hLog
  obtain ⟨hAdded, hNumber⟩ := hLog.iteration_of_request hQuiet
  rcases hAdded with hAdded | hAdded
  · rw [hAdded, requestCount_payload] at hNumber
    exact .inl ⟨hAdded, hNumber⟩
  · rw [hAdded] at hNumber
    exact .inr ⟨hAdded, UInt32.toNat_inj.mp hNumber⟩

-- Errors that never go away: a request that is lost on its way leaves its number to the next one.
example :
    let failing : Runner Unit :=
      ⟨fun t s => (.counted .go t.pattern [⟨"a.go", 1, 1, "", .error, "", false⟩], s), fun _ s => s⟩
    let run (delivers : Bool) : Step Unit :=
      .run (.inMemory failing ["a.go"] delivers) ⟨3, true, [⟨"*", .go, "lint", "fix"⟩]⟩ [0]
    (log [run false, run false] ((), [])).filterMap (fun e =>
      match e with
      | .run (.requested r) added => some (r.iteration.toNat, added.length)
      | _ => none) = [(1, 0), (1, 0)] := by decide +kernel

end Session

end LintRepair
