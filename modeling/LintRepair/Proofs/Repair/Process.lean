import LintRepair.Proofs.Repair.Session

/-! A run taken apart into the steps of a process. Others may come in between its steps, so what the
run has read of the conversation may be out of date when it decides. All that a step can do to the
conversation is said by `Process.Acted`. -/

namespace LintRepair

open Session (Entry)

variable {σ : Type}

/-- What a process is at: nothing, or a run with the budget it has read and the
cycles it goes on with. -/
inductive Phase (σ : Type) where
  | idle
  | working (host : Host σ) (budget : Budget) (lanes : List Lane)

/-- A process with what it sees around it, the conversation apart. -/
structure Process (σ : Type) where
  own : σ
  phase : Phase σ

/-- A step of a process. A run starts by reading the conversation, goes on call by
call, and ends with its decision; what the process sees around it may change at
any time. -/
inductive Act (σ : Type) where
  | start (host : Host σ) (config : Config)
  | call (lane : Nat)
  | finish
  | stir (own : σ)

def Lane.isOver (lane : Lane) : Bool :=
  match lane.stage with
  | .ended _ => true
  | _ => false

namespace Process

/-- Take a step, if it is one that can come next, and give the entries it leaves in
the log. Nobody else acts on the conversation in the meantime. -/
def act (p : Process σ) (c : Conversation) : Act σ → Process σ × Conversation × List Entry
  | .start host config =>
    match p.phase with
    | .working .. => (p, c, [])
    | .idle =>
      match host.clearance config (p.own, c) with
      | .error reason => (p, c, [.run (.skipped reason) []])
      | .ok budget =>
        let lanes := Runner.lanesOf (host.selected config (p.own, c))
        let s := host.notify .info Workplace.startedNotice (p.own, c)
        (⟨s.1, .working host budget lanes⟩, s.2, [])
  | .call turn =>
    match p.phase with
    | .idle => (p, c, [])
    | .working host budget lanes =>
      let (lanes, s) := host.toRunner.takeTurn turn lanes (p.own, c)
      (⟨s.1, .working host budget lanes⟩, s.2, [])
  | .finish =>
    match p.phase with
    | .idle => (p, c, [])
    | .working host budget lanes =>
      if lanes.all Lane.isOver then
        let left := lanes.flatMap fun lane => lane.left.toList
        let (outcome, s) := host.decide budget left (p.own, c)
        (⟨s.1, .idle⟩, s.2, [.run outcome (s.2.drop c.length)])
      else (p, c, [])
  | .stir own => (⟨own, p.phase⟩, c, [])

/-- Take several steps with nobody in between. -/
def acts (p : Process σ) (c : Conversation) : List (Act σ) → Process σ × Conversation × List Entry
  | [] => (p, c, [])
  | a :: more =>
    let (p, c, entries) := p.act c a
    let (p, c, later) := acts p c more
    (p, c, entries ++ later)

/-- The process has read that there is room for a request, and has not decided
yet. -/
def mayRequest (p : Process σ) : Bool :=
  match p.phase with
  | .idle => false
  | .working _ budget _ => budget.mayRequest

end Process

/-- The largest number of iterations that a step may begin a run with. -/
def Act.limit : Act σ → Nat
  | .start _ config => max config.maxIterations.toNat 1
  | _ => 0

/-- What a step can do. A permit is got by reading that there is room; it is used up
by the request that it allows, and nothing else reaches the conversation. -/
inductive Process.Acted (limit : Nat) (p : Process σ) (c : Conversation) :
    Process σ × Conversation × List Entry → Prop where
  | admitted {q : Process σ} (room : c.requestCount + 1 < limit) : Acted limit p c (q, c, [])
  | silent {q : Process σ} {entries : List Entry}
      (kept : q.mayRequest = true → p.mayRequest = true)
      (quiet : ∀ e ∈ entries, e.recorded? = none ∧ e.added = []) : Acted limit p c (q, c, entries)
  | recorded {q : Process σ} {r : FixRequest} (held : p.mayRequest = true)
      (used : q.mayRequest = false) :
      Acted limit p c
        (q, c ++ [.userText r.payload], [.run (.requested r) [.userText r.payload]])

namespace Host

theorem conversation_takeTurn (host : Host σ) (turn : Nat) (lanes : List Lane)
    (s : σ × Conversation) : (host.toRunner.takeTurn turn lanes s).2.2 = s.2 := by
  rcases host.toRunner.takeTurn_cases turn lanes s with hNone | ⟨before, lane, after, -, -, hCall⟩
  · rw [hNone]
  · rw [hCall]
    exact Runner.advance_keeps (P := fun after => after.2 = s.2)
      (fun u hu => (host.check_keeps lane.target u).trans hu)
      (fun u hu => (host.fix_keeps lane.target u).trans hu) rfl

end Host

/-- A run that added nothing recorded nothing. -/
theorem Session.recorded?_of_nothing (outcome : Outcome) :
    (Entry.run outcome []).recorded? = none := by
  cases outcome <;> simp [Entry.recorded?]

namespace Process

/-- A run that ends without a message leaves the conversation to the others. -/
theorem Acted.of_nothing {limit : Nat} {p q : Process σ} (h : q.mayRequest = true → p.mayRequest = true)
    (c : Conversation) (outcome : Outcome) : Acted limit p c (q, c, [.run outcome []]) :=
  .silent h (by simp [Session.recorded?_of_nothing, Entry.added])

/-- No step does more than these, whatever came in between. -/
theorem act_acted (p : Process σ) (c : Conversation) (a : Act σ) :
    Acted a.limit p c (p.act c a) := by
  obtain ⟨own, phase⟩ := p
  cases a with
  | stir other => exact .silent id (by simp)
  | call turn =>
      cases phase with
      | idle => exact .silent id (by simp)
      | working host budget lanes =>
          simp only [act, host.conversation_takeTurn]
          exact .silent id (by simp)
  | start host config =>
      cases phase with
      | working host budget lanes => exact .silent id (by simp)
      | idle =>
          simp only [act]
          cases hClearance : host.clearance config (own, c) with
          | error reason => exact .of_nothing id c _
          | ok budget =>
              have hBudget := Host.clearance_eq_ok hClearance
              simp only [host.notify_keeps]
              cases hRoom : budget.mayRequest with
              | false => exact .silent (by simp [mayRequest, hRoom]) (by simp)
              | true =>
                  rw [hBudget, Conversation.budget_mayRequest_iff] at hRoom
                  exact .admitted hRoom
  | finish =>
      cases phase with
      | idle => exact .silent id (by simp)
      | working host budget lanes =>
          simp only [act]
          split
          · have hDecided := host.decide_decided budget (lanes.flatMap fun lane => lane.left.toList)
              (own, c)
            generalize host.decide budget (lanes.flatMap fun lane => lane.left.toList) (own, c) = final
              at hDecided ⊢
            cases hDecided with
            | quiet other kept =>
                rw [kept, List.drop_length]
                exact .of_nothing (by simp [mayRequest]) c _
            | sent room number added =>
                rw [added, List.drop_left]
                exact .recorded room rfl
            | lost room number undelivered kept =>
                rw [kept, List.drop_length]
                exact .of_nothing (by simp [mayRequest]) c _
          · exact .silent id (by simp)

theorem acts_append (p : Process σ) (c : Conversation) (first second : List (Act σ)) :
    p.acts c (first ++ second) =
      let (q, d, entries) := p.acts c first
      let (q, d, later) := q.acts d second
      (q, d, entries ++ later) := by
  induction first generalizing p c with
  | nil => rfl
  | cons a first ih => simp only [List.cons_append, acts, ih, List.append_assoc]

/-- Calls that follow each other are turns. -/
theorem acts_calls (host : Host σ) (budget : Budget) (turns : List Nat) (lanes : List Lane) (own : σ)
    (c : Conversation) : acts ⟨own, .working host budget lanes⟩ c (turns.map .call) =
      let (lanes, s) := host.toRunner.takeTurns turns lanes (own, c)
      (⟨s.1, .working host budget lanes⟩, s.2, []) := by
  induction turns generalizing lanes own c with
  | nil => rfl
  | cons turn turns ih => simp only [List.map_cons, acts, act, ih, Runner.takeTurns, List.nil_append]

/-- With nobody in between the steps of a process make up the run. -/
theorem acts_eq_runInTurns (host : Host σ) (config : Config) (turns : List Nat) (own : σ)
    (c : Conversation) : ∃ calls : List Nat,
      acts ⟨own, .idle⟩ c (.start host config :: (calls.map .call ++ [.finish])) =
        let (outcome, s) := host.runInTurns turns config (own, c)
        (⟨s.1, .idle⟩, s.2, [.run outcome (s.2.drop c.length)]) := by
  rw [Workplace.runInTurns_eq]
  cases hClearance : host.clearance config (own, c) with
  | error reason =>
      refine ⟨[], ?_⟩
      simp [acts, act, hClearance]
  | ok budget =>
      let s := host.notify .info Workplace.startedNotice (own, c)
      have hConversation : (host.worked turns config (own, c)).2.2 = c :=
        host.conversation_worked turns config (own, c)
      have hWorked : host.worked turns config (own, c) = host.interleaved
          (if config.parallel then turns else []) (host.selected config (own, c)) s :=
        host.pass_eq_interleaved turns config _ s
      obtain ⟨final, hMoves, hOver, hLeft⟩ := host.toRunner.interleaved_moves
        (if config.parallel then turns else []) (host.selected config (own, c)) s
      rw [← hWorked] at hMoves hLeft
      obtain ⟨calls, hCalls⟩ := Runner.takeTurns_of_moves hMoves
      have hAll : final.all Lane.isOver = true := by
        rw [List.all_eq_true]
        intro lane hLane
        obtain ⟨left, hStage⟩ := hOver lane hLane
        rw [Lane.isOver, hStage]
      refine ⟨calls, ?_⟩
      rw [acts, act]
      simp only [hClearance, acts_append, acts_calls]
      rw [show ((host.notify .info Workplace.startedNotice (own, c)).1,
        (host.notify .info Workplace.startedNotice (own, c)).2) = s from rfl, hCalls]
      simp only [acts, act, hAll, if_true, ← hLeft, hConversation]
      have hKept : (host.worked turns config (own, c)).2 =
          ((host.worked turns config (own, c)).2.1, c) := Prod.ext rfl hConversation
      rw [hKept]
      rfl

end Process

end LintRepair
