import LintRepair.Proofs.Repair.Boundary
import LintRepair.Proofs.Repair.Process

/-! Several processes on one conversation. A process that has read that there is room keeps this
permit until its decision, however stale it gets, so the budget is overshot by the permits that are
still out when it is used up: at most one for every process but the one that used it up. -/

namespace LintRepair

open Session (Entry requestCount_payload)

variable {σ : Type}

/-- Processes on one conversation, with the log of what they and others did. -/
structure Crowd (σ : Type) where
  processes : List (Process σ)
  conversation : Conversation
  log : List Entry

namespace Crowd

/-- A process takes a step, or somebody writes a message. -/
inductive Event (σ : Type) where
  | act (process : Nat) (a : Act σ)
  | message (m : Message)

/-- Let something happen. -/
def step (crowd : Crowd σ) : Event σ → Crowd σ
  | .act i a =>
    match crowd.processes[i]? with
    | some p =>
      let (p, c, entries) := p.act crowd.conversation a
      ⟨crowd.processes.set i p, c, crowd.log ++ entries⟩
    | none => crowd
  | .message m => ⟨crowd.processes, crowd.conversation ++ [m], crowd.log ++ [.message m]⟩

/-- Let one thing happen after another. -/
def run (crowd : Crowd σ) (events : List (Event σ)) : Crowd σ := events.foldl step crowd

/-- Nobody has begun a run. -/
def idle (owns : List σ) (c : Conversation) : Crowd σ := ⟨owns.map fun own => ⟨own, .idle⟩, c, []⟩

/-- The requests that have reached the conversation. -/
def recorded (crowd : Crowd σ) : List FixRequest := crowd.log.filterMap Entry.recorded?

def permits (crowd : Crowd σ) : Nat := crowd.processes.countP Process.mayRequest

/-- All that can happen: nothing, a step of one of the processes, or a message. -/
inductive Stepped (crowd : Crowd σ) : Event σ → Crowd σ → Prop where
  | nothing {e : Event σ} : Stepped crowd e crowd
  | acted {i : Nat} {a : Act σ} {before after : List (Process σ)} {p q : Process σ} {c : Conversation}
      {entries : List Entry} (processes_eq : crowd.processes = before ++ p :: after)
      (acted : p.Acted a.limit crowd.conversation (q, c, entries)) :
      Stepped crowd (.act i a) ⟨before ++ q :: after, c, crowd.log ++ entries⟩
  | message {m : Message} :
      Stepped crowd (.message m)
        ⟨crowd.processes, crowd.conversation ++ [m], crowd.log ++ [.message m]⟩

/-- Whatever happens is one of these. -/
theorem step_stepped (crowd : Crowd σ) (e : Event σ) : crowd.Stepped e (crowd.step e) := by
  cases e with
  | message m => exact .message
  | act i a =>
      simp only [step]
      split
      · rename_i p hProcess
        obtain ⟨hi, rfl⟩ := List.getElem?_eq_some_iff.mp hProcess
        have hActed := Process.act_acted crowd.processes[i] crowd.conversation a
        generalize Process.act crowd.processes[i] crowd.conversation a = result at hActed ⊢
        rw [List.set_eq_take_append_cons_drop, if_pos hi]
        refine .acted ?_ hActed
        rw [List.getElem_cons_drop, List.take_append_drop]
      · exact .nothing

theorem recorded_append (processes : List (Process σ)) (c : Conversation)
    (log entries : List Entry) : recorded ⟨processes, c, log ++ entries⟩ =
      log.filterMap Entry.recorded? ++ entries.filterMap Entry.recorded? := List.filterMap_append

theorem permits_le (crowd : Crowd σ) : crowd.permits ≤ crowd.processes.length :=
  List.countP_le_length

/-- The permits are those of the others and that of the process that acts. -/
theorem permits_middle (before after : List (Process σ)) (p : Process σ) (c : Conversation)
    (log : List Entry) : permits ⟨before ++ p :: after, c, log⟩ =
      before.countP Process.mayRequest + after.countP Process.mayRequest +
        if p.mayRequest then 1 else 0 := by
  simp only [permits, List.countP_append, List.countP_cons, Nat.add_assoc]

/-- What holds of a crowd from the start on. All that came to the conversation is in
the log, and every recorded request counts there. A permit is given only while there
is room, and a request takes its permit with it. -/
structure Bounded (limit : Nat) (c : Conversation) (size : Nat) (crowd : Crowd σ) : Prop where
  size_eq : crowd.processes.length = size
  conversation_eq : crowd.conversation = c ++ crowd.log.flatMap Entry.added
  counted : crowd.recorded.length + c.requestCount ≤ crowd.conversation.requestCount
  overshoot : crowd.recorded.length + crowd.permits ≤ limit - 1 - c.requestCount + (size - 1)

/-- Before anybody acts there is neither a permit nor a request. -/
theorem Bounded.idle (limit : Nat) (owns : List σ) (c : Conversation) :
    Bounded limit c owns.length (idle owns c) := by
  have hPermits : (Crowd.idle owns c).permits = 0 := by
    simp [permits, Crowd.idle, Process.mayRequest]
  refine ⟨by simp [Crowd.idle], by simp [Crowd.idle], by simp [Crowd.idle, recorded], ?_⟩
  rw [hPermits]
  exact Nat.zero_le _

/-- A permit takes the room that it read; the request that uses it up takes its place. -/
theorem Bounded.step {limit size : Nat} {c : Conversation} {crowd : Crowd σ}
    (h : crowd.Bounded limit c size) {e : Event σ}
    (hLimit : ∀ i a, e = .act i a → a.limit ≤ limit) : (crowd.step e).Bounded limit c size := by
  have hStepped := crowd.step_stepped e
  generalize crowd.step e = next at hStepped ⊢
  cases hStepped with
  | nothing => exact h
  | @message m =>
      obtain ⟨hSize, hConversation, hCounted, hOvershoot⟩ := h
      have hRecorded : recorded ⟨crowd.processes, crowd.conversation ++ [m],
          crowd.log ++ [.message m]⟩ = crowd.recorded := by
        rw [recorded_append]
        exact List.append_nil _
      refine ⟨hSize, by simp [hConversation, Entry.added], ?_, ?_⟩
      · rw [hRecorded, Conversation.requestCount_append]
        omega
      · rw [hRecorded]
        exact hOvershoot
  | @acted i a before after p q c' entries processes_eq acted =>
      obtain ⟨processes, conversation, log⟩ := crowd
      obtain rfl : processes = before ++ p :: after := processes_eq
      obtain ⟨hSize, hConversation, hCounted, hOvershoot⟩ := h
      have hRoom := hLimit i a rfl
      have hPermits := permits_le ⟨before ++ q :: after, c', log ++ entries⟩
      rw [permits_middle] at hPermits hOvershoot
      simp only [List.length_append, List.length_cons, recorded] at *
      have hSize' : (before ++ q :: after).length = size := by simpa using hSize
      cases acted with
      | admitted room =>
          -- A permit is given while there is room: all the others may still be out.
          rw [List.append_nil]
          refine ⟨hSize', hConversation, hCounted, ?_⟩
          simp only [permits_middle, recorded]
          omega
      | silent kept quiet =>
          have hNone : entries.filterMap Entry.recorded? = [] :=
            List.filterMap_eq_nil_iff.mpr fun e he => (quiet e he).1
          have hNothing : entries.flatMap Entry.added = [] :=
            List.flatMap_eq_nil_iff.mpr fun e he => (quiet e he).2
          have hKept : (if q.mayRequest then 1 else 0) ≤ if p.mayRequest then 1 else 0 := by
            split
            · rw [if_pos (kept ‹_›)]
            · exact Nat.zero_le _
          refine ⟨hSize', by simp [hConversation, hNothing], ?_, ?_⟩
          · rw [recorded_append, hNone, List.append_nil]
            exact hCounted
          · rw [permits_middle, recorded_append, hNone, List.append_nil]
            omega
      | @recorded q r held used =>
          have hOne : [Entry.run (.requested r) [.userText r.payload]].filterMap Entry.recorded? =
              [r] := by simp [Entry.recorded?]
          -- The request adds what its permit takes away.
          rw [if_pos held] at hOvershoot
          refine ⟨hSize', by simp [hConversation, Entry.added], ?_, ?_⟩
          · rw [recorded_append, hOne, Conversation.requestCount_append, requestCount_payload,
              List.length_append, List.length_singleton]
            omega
          · rw [permits_middle, recorded_append, hOne, List.length_append, List.length_singleton,
              if_neg (by simp [used])]
            omega

theorem run_append (crowd : Crowd σ) (earlier later : List (Event σ)) :
    crowd.run (earlier ++ later) = (crowd.run earlier).run later := List.foldl_append

/-- What happens only adds to the conversation. -/
theorem step_prefix (crowd : Crowd σ) (e : Event σ) :
    crowd.conversation <+: (crowd.step e).conversation := by
  have hStepped := crowd.step_stepped e
  generalize crowd.step e = next at hStepped ⊢
  cases hStepped with
  | nothing => exact List.prefix_rfl
  | message => exact List.prefix_append ..
  | acted _ acted =>
      cases acted with
      | admitted => exact List.prefix_rfl
      | silent => exact List.prefix_rfl
      | recorded => exact List.prefix_append ..

/-- Nothing that happens takes a message away. -/
theorem run_prefix (crowd : Crowd σ) (events : List (Event σ)) :
    crowd.conversation <+: (crowd.run events).conversation := by
  induction events generalizing crowd with
  | nil => exact List.prefix_rfl
  | cons e events ih => exact (crowd.step_prefix e).trans (ih (crowd.step e))

/-- The bound is kept by all that happens, by induction on the events. -/
theorem Bounded.run {limit size : Nat} {c : Conversation} {crowd : Crowd σ}
    (h : crowd.Bounded limit c size) {events : List (Event σ)}
    (hLimit : ∀ i a, .act i a ∈ events → a.limit ≤ limit) :
    (crowd.run events).Bounded limit c size := by
  induction events generalizing crowd with
  | nil => exact h
  | cons e events ih =>
      have hStep := h.step (e := e) fun i a he => hLimit i a (he ▸ List.mem_cons_self ..)
      exact ih hStep fun i a hMem => hLimit i a (List.mem_cons_of_mem _ hMem)

/-- However the steps of some processes and the messages of others follow each other,
nothing that came to the conversation is lost, changed or moved, and what the runs
record exceeds the room there was by at most one request for every process but one. -/
theorem overshoot_bounded (owns : List σ) (c : Conversation) (limit : Nat) (events : List (Event σ))
    (hLimit : ∀ i host config, .act i (.start host config) ∈ events →
      max config.maxIterations.toNat 1 ≤ limit) :
    (∀ earlier later, events = earlier ++ later →
      ((idle owns c).run earlier).conversation <+: ((idle owns c).run events).conversation) ∧
    ((idle owns c).run events).conversation =
      c ++ ((idle owns c).run events).log.flatMap Entry.added ∧
    ((idle owns c).run events).recorded.length ≤
      limit - 1 - c.requestCount + (owns.length - 1) := by
  have hLimits : ∀ i a, .act i a ∈ events → a.limit ≤ limit := by
    intro i a hMem
    cases a with
    | start host config => exact hLimit i host config hMem
    | call => exact Nat.zero_le _
    | finish => exact Nat.zero_le _
    | stir => exact Nat.zero_le _
  have hBounded := (Bounded.idle limit owns c).run hLimits
  refine ⟨?_, hBounded.conversation_eq, Nat.le_of_add_right_le hBounded.overshoot⟩
  rintro earlier later rfl
  rw [run_append]
  exact run_prefix _ later

/-- All processes from some position on take the same step, one after another. -/
def sweep (position size : Nat) (a : Act σ) : List (Event σ) :=
  (List.range' position size).map fun i => .act i a

/-- Processes that are alike and take the same step stay alike. -/
theorem run_sweep {p q : Process σ} {a : Act σ} {P : Conversation → Prop} {added : Conversation}
    {entries : List Entry} (hAct : ∀ c, P c → p.act c a = (q, c ++ added, entries))
    (hKeeps : ∀ c, P c → P (c ++ added)) (size : Nat) (done : List (Process σ)) {c : Conversation}
    (h : P c) (log : List Entry) :
    run ⟨done ++ List.replicate size p, c, log⟩ (sweep done.length size a) =
      ⟨done ++ List.replicate size q, c ++ (List.replicate size added).flatten,
        log ++ (List.replicate size entries).flatten⟩ := by
  induction size generalizing done c log with
  | zero => simp [sweep, run]
  | succ size ih =>
      have hNext := ih (done ++ [q]) (hKeeps c h) (log ++ entries)
      rw [List.length_append, List.length_singleton] at hNext
      have hStep : step ⟨done ++ List.replicate (size + 1) p, c, log⟩ (.act done.length a) =
          ⟨done ++ [q] ++ List.replicate size p, c ++ added, log ++ entries⟩ := by
        simp [step, List.replicate_succ, hAct c h]
      have hRun := (congrArg (fun crowd => run crowd (sweep (done.length + 1) size a)) hStep).trans hNext
      rw [sweep, List.range'_succ, List.map_cons]
      refine Eq.trans hRun ?_
      simp [List.replicate_succ]

theorem run_sweep_of_silent {p q : Process σ} {a : Act σ} {c : Conversation}
    (h : p.act c a = (q, c, [])) (size : Nat) :
    run ⟨List.replicate size p, c, []⟩ (sweep 0 size a) = ⟨List.replicate size q, c, []⟩ := by
  have hAct : ∀ d, d = c → p.act d a = (q, d ++ [], []) := by
    rintro d rfl
    rw [h, List.append_nil]
  have hKeeps : ∀ d, d = c → d ++ [] = c := fun d hd => by rw [hd, List.append_nil]
  simpa using run_sweep hAct hKeeps size [] rfl []

/-- A target that nothing helps. -/
def hopeless : Target := ⟨"*", .go, "lint", "fix"⟩

/-- All of some processes read the conversation before the first of them decides. -/
def rush (size : Nat) (limit : UInt32) : List (Event Unit) :=
  [.start (.inMemory Runner.stubborn ["a.go"] true) ⟨limit, false, [hopeless]⟩,
    .call 0, .call 0, .call 0, .finish].flatMap (sweep 0 size)

/-- What is left of the target in the end. -/
def unmended : CheckResult := .counted .go "*" [⟨"a.go", 1, 1, "", .error, "", false⟩]

/-- A process that works on the target with this budget. -/
def rushing (budget : Budget) (stage : Stage) : Process Unit :=
  ⟨(), .working (.inMemory Runner.stubborn ["a.go"] true) budget [⟨hopeless, stage⟩]⟩

theorem act_start_of_room {c : Conversation} {limit : UInt32}
    (h : c.requestCount + 1 < max limit.toNat 1) :
    Process.act ⟨(), .idle⟩ c
      (.start (.inMemory Runner.stubborn ["a.go"] true) ⟨limit, false, [hopeless]⟩) =
      (rushing (c.budget limit) .check, c, []) := by
  have hOpen : (c.budget limit).isSpent = false := by
    rw [Bool.eq_false_iff, ne_eq, Conversation.budget_isSpent_iff]
    omega
  have hSelected : Selection.targets [hopeless] ["a.go"] = [hopeless] := by decide +kernel
  simp [Process.act, Workplace.clearance, Workplace.selected, Host.inMemory, hSelected, hOpen,
    rushing, Runner.lanesOf]

theorem act_call_of_rushing (budget : Budget) (c : Conversation) :
    (rushing budget .check).act c (.call 0) = (rushing budget .fix, c, []) ∧
    (rushing budget .fix).act c (.call 0) = (rushing budget .recheck, c, []) ∧
    (rushing budget .recheck).act c (.call 0) =
      (rushing budget (.ended (some unmended)), c, []) := ⟨rfl, rfl, rfl⟩

theorem act_finish_of_rushing {budget : Budget} (h : budget.mayRequest = true) (c : Conversation) :
    (rushing budget (.ended (some unmended))).act c .finish =
      (⟨(), .idle⟩, c ++ [.userText (FixRequest.of budget [unmended]).payload],
        [.run (.requested (.of budget [unmended]))
          [.userText (FixRequest.of budget [unmended]).payload]]) := by
  simp [Process.act, rushing, Lane.isOver, Workplace.decide, h, Lane.left, Host.inMemory]

/-- The bound is reached. With room for one request, every process that has seen it
records one. -/
theorem recorded_rush (size : Nat) {c : Conversation} {limit : UInt32}
    (hRoom : c.requestCount + 2 = limit.toNat) :
    ((idle (List.replicate size ()) c).run (rush size limit)).recorded.length = size := by
  let budget := c.budget limit
  have hMay : budget.mayRequest = true := by
    rw [Conversation.budget_mayRequest_iff]
    omega
  have hStart : Process.act ⟨(), .idle⟩ c (.start (.inMemory Runner.stubborn ["a.go"] true)
      ⟨limit, false, [hopeless]⟩) = (rushing budget .check, c, []) := act_start_of_room (by omega)
  obtain ⟨hCheck, hFix, hRecheck⟩ := act_call_of_rushing budget c
  have hFinish := run_sweep (P := fun _ => True) (fun d _ => act_finish_of_rushing hMay d)
    (fun _ _ => trivial) size [] (c := c) trivial []
  simp only [List.nil_append, List.length_nil] at hFinish
  simp only [rush, List.flatMap_cons, List.flatMap_nil, List.append_nil, run_append]
  rw [idle, List.map_replicate, run_sweep_of_silent hStart, run_sweep_of_silent hCheck,
    run_sweep_of_silent hFix, run_sweep_of_silent hRecheck, hFinish]
  simp [recorded, Entry.recorded?]

/-- Three processes record three requests where there was room for one. -/
theorem overshoot_of_rush :
    ((idle [(), (), ()] []).run (rush 3 2)).recorded.length = 2 - 1 - 0 + (3 - 1) ∧
      ((idle [(), (), ()] []).run (rush 3 2)).recorded.length ≤ 2 - 1 - 0 + (3 - 1) := by
  refine ⟨recorded_rush 3 rfl, (overshoot_bounded [(), (), ()] [] 2 (rush 3 2) ?_).2.2⟩
  intro i host config hMem
  obtain ⟨-, -, rfl⟩ : i < 3 ∧ .inMemory Runner.stubborn ["a.go"] true = host ∧
      ⟨2, false, [hopeless]⟩ = config := by
    simpa [rush, sweep] using hMem
  decide

end Crowd

end LintRepair
