import LintRepair.Proofs.Repair.Admission

/-! Hosts: workplaces that keep a conversation. In whatever turns a run makes its calls, nothing but a
request reaches the conversation, and the request is one that the budget read at the start allows. All of
this is said by `Host.Decided`. -/

namespace LintRepair

/-- A workplace with a conversation next to its own state. Only a prompt that is
delivered changes the conversation, and it adds the text as a message of the
user; a conversation that can be read is read as it is. -/
structure Host (σ : Type) extends Workplace (σ × Conversation) where
  check_keeps : ∀ t s, (check t s).2.2 = s.2
  fix_keeps : ∀ t s, (fix t s).2 = s.2
  notify_keeps : ∀ level text s, (notify level text s).2 = s.2
  history_reads : ∀ s c, history s = some c → c = s.2
  prompt_sends : ∀ text s, (prompt text s).2.2 =
    if (prompt text s).1 = true then s.2 ++ [.userText text] else s.2

/-- The host that keeps the conversation itself. -/
def Host.inMemory {σ : Type} (runner : Runner σ) (files : List String) (delivers : Bool) : Host σ where
  check t s := ((runner.check t s.1).1, (runner.check t s.1).2, s.2)
  fix t s := (runner.fix t s.1, s.2)
  changedFiles _ := files
  history s := some s.2
  prompt text s := (delivers, s.1, if delivers = true then s.2 ++ [.userText text] else s.2)
  notify _ _ s := s
  check_keeps _ _ := rfl
  fix_keeps _ _ := rfl
  notify_keeps _ _ _ := rfl
  history_reads _ _ h := (Option.some.inj h).symm
  prompt_sends _ _ := rfl

/-- The messages that an outcome adds to the conversation when it is delivered. -/
def Outcome.messages : Outcome → List Message
  | .requested r => [.userText r.payload]
  | _ => []

theorem Outcome.messages_of_ne {outcome : Outcome} (h : ∀ r, outcome ≠ .requested r) :
    outcome.messages = [] := by
  cases outcome with
  | requested r => exact absurd rfl (h r)
  | skipped reason => rfl
  | passed => rfl
  | exhausted iteration results => rfl

variable {σ : Type}

namespace Host

/-- All that a decision on a budget can do to the conversation. -/
inductive Decided (host : Host σ) (budget : Budget) (c : Conversation) :
    Outcome × (σ × Conversation) → Prop where
  | quiet {outcome : Outcome} {after : σ × Conversation} (other : ∀ r, outcome ≠ .requested r)
      (kept : after.2 = c) : Decided host budget c (outcome, after)
  | sent {r : FixRequest} {after : σ × Conversation} (room : budget.mayRequest = true)
      (number : r.iteration = budget.next) (added : after.2 = c ++ [.userText r.payload]) :
      Decided host budget c (.requested r, after)
  | lost {r : FixRequest} {after : σ × Conversation} (room : budget.mayRequest = true)
      (number : r.iteration = budget.next) (undelivered : ∃ text s, (host.prompt text s).1 = false)
      (kept : after.2 = c) : Decided host budget c (.requested r, after)

theorem decide_decided (host : Host σ) (budget : Budget) (left : List CheckResult)
    (s : σ × Conversation) : host.Decided budget s.2 (host.decide budget left s) := by
  cases left with
  | nil => exact .quiet (by simp) (host.notify_keeps ..)
  | cons r more =>
      unfold Workplace.decide
      dsimp only
      split
      · rename_i hRoom
        have hSends := host.prompt_sends (FixRequest.of budget (r :: more)).payload s
        split at hSends
        · exact .sent hRoom rfl hSends
        · rename_i hFailed
          exact .lost hRoom rfl ⟨_, s, Bool.eq_false_iff.mpr hFailed⟩ hSends
      · exact .quiet (by simp) (host.notify_keeps ..)

/-- The budget of a run that is admitted counts the conversation it begins with. -/
theorem clearance_eq_ok {host : Host σ} {config : Config} {s : σ × Conversation} {budget : Budget}
    (h : host.clearance config s = .ok budget) : budget = s.2.budget config.maxIterations := by
  have hAdmission := host.clearance_admission config s
  rw [h] at hAdmission
  cases hAdmission with
  | admitted admitted => rw [host.history_reads s _ admitted.history]

/-- In whatever turns the cycles go on, they leave the conversation alone. -/
theorem conversation_worked (host : Host σ) (turns : List Nat) (config : Config)
    (s : σ × Conversation) : (host.worked turns config s).2.2 = s.2 :=
  Workplace.worked_keeps (P := fun u : σ × Conversation => u.2 = s.2)
    (fun t _ u h => (host.check_keeps t u).trans h) (fun t _ u h => (host.fix_keeps t u).trans h)
    (fun level text u h => (host.notify_keeps level text u).trans h) turns rfl

/-- In whatever turns a run goes on, it ends as a decision on the conversation it began with. -/
theorem runInTurns_decided (host : Host σ) (turns : List Nat) (config : Config)
    (s : σ × Conversation) :
    host.Decided (s.2.budget config.maxIterations) s.2 (host.runInTurns turns config s) := by
  rw [Workplace.runInTurns_eq]
  cases hClearance : host.clearance config s with
  | error reason => exact .quiet (by simp) rfl
  | ok budget =>
      -- Nothing was added before the decision, so it is one on the conversation at the start.
      have hDecided := host.decide_decided budget (host.worked turns config s).1
        (host.worked turns config s).2
      rw [host.conversation_worked, clearance_eq_ok hClearance] at hDecided
      rw [clearance_eq_ok hClearance]
      exact hDecided

/-- A run adds its request to the conversation or leaves it as it was, and if
prompts are delivered the request is added. -/
theorem conversation_after_run (host : Host σ) (turns : List Nat) (config : Config)
    (s : σ × Conversation) :
    let final := host.runInTurns turns config s
    (final.2.2 = s.2 ++ final.1.messages ∨ final.2.2 = s.2) ∧
      ((∀ text u, (host.prompt text u).1 = true) → final.2.2 = s.2 ++ final.1.messages) := by
  dsimp only
  have hDecided := host.runInTurns_decided turns config s
  generalize host.runInTurns turns config s = final at hDecided ⊢
  cases hDecided with
  | quiet other kept =>
      rw [Outcome.messages_of_ne other, List.append_nil]
      exact ⟨.inl kept, fun _ => kept⟩
  | sent room number added => exact ⟨.inl added, fun _ => added⟩
  | lost room number undelivered kept =>
      obtain ⟨text, u, hFailed⟩ := undelivered
      refine ⟨.inr kept, fun hDelivers => ?_⟩
      rw [hDelivers] at hFailed
      cases hFailed

end Host

end LintRepair
