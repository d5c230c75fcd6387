import LintRepair.Repair.Run

/-! The budget of a conversation in exact numbers. The count of requests is held at the greatest
32-bit number, and so is the number of the next request; no limit is large enough for this to change
a decision. -/

namespace LintRepair

namespace Budget

@[simp] theorem spent_of (spent limit : UInt32) : (Budget.of spent limit).spent = spent := by
  unfold Budget.of
  split <;> rfl

/-- A limit of zero allows one iteration all the same. -/
@[simp] theorem toNat_limit_of (spent limit : UInt32) :
    (Budget.of spent limit).limit.toNat = max limit.toNat 1 := by
  unfold Budget.of
  split
  · rename_i hPos
    exact (Nat.max_eq_left hPos).symm
  · rename_i hZero
    change 1 = _
    omega

theorem isSpent_iff (b : Budget) : b.isSpent = true ↔ b.limit.toNat ≤ b.spent.toNat := by
  simp [isSpent, UInt32.le_iff_toNat_le]

/-- The next number is held at the greatest 32-bit number. -/
theorem toNat_next (b : Budget) : b.next.toNat = min (b.spent.toNat + 1) (UInt32.size - 1) := by
  have hSpent := b.spent.toNat_lt
  unfold next
  split
  · rename_i hRoom
    rw [UInt32.toNat_add, UInt32.toNat_one, Nat.mod_eq_of_lt hRoom]
    omega
  · simp only [UInt32.size] at *
    omega

/-- The last number is not for a request. -/
theorem mayRequest_iff (b : Budget) : b.mayRequest = true ↔ b.next.toNat < b.limit.toNat := by
  simp [mayRequest, UInt32.lt_iff_toNat_lt]

end Budget

namespace Conversation

/-- What is counted in two parts is counted in the whole. -/
theorem requestCount_append (c d : Conversation) :
    requestCount (c ++ d) = requestCount c + requestCount d := by
  simp [requestCount]

theorem requestCount_singleton (m : Message) :
    requestCount [m] = if m.isFixRequest then 1 else 0 := by
  cases hRequest : m.isFixRequest <;> simp [requestCount, hRequest]

/-- The count is held at the greatest 32-bit number. -/
theorem toNat_requestsSent (c : Conversation) :
    c.requestsSent.toNat = min c.requestCount (UInt32.size - 1) := by
  unfold requestsSent
  rw [UInt32.toNat_ofNat']
  simp only [UInt32.size]
  omega

@[simp] theorem spent_budget (c : Conversation) (limit : UInt32) :
    (c.budget limit).spent = c.requestsSent := Budget.spent_of _ _

theorem toNat_limit_budget (c : Conversation) (limit : UInt32) :
    (c.budget limit).limit.toNat = max limit.toNat 1 := Budget.toNat_limit_of _ _

/-- Holding the count at its greatest value hides no spent budget. -/
theorem budget_isSpent_iff (c : Conversation) (limit : UInt32) :
    (c.budget limit).isSpent = true ↔ max limit.toNat 1 ≤ c.requestCount := by
  have hLimit := limit.toNat_lt
  rw [Budget.isSpent_iff, toNat_limit_budget, spent_budget, toNat_requestsSent]
  simp only [UInt32.size]
  omega

/-- While the budget is not spent the next number is exact. -/
theorem toNat_next_budget {c : Conversation} {limit : UInt32}
    (h : (c.budget limit).isSpent = false) : (c.budget limit).next.toNat = c.requestCount + 1 := by
  have hLimit := limit.toNat_lt
  have hOpen : ¬ max limit.toNat 1 ≤ c.requestCount := by
    rw [← budget_isSpent_iff, h]
    exact Bool.false_ne_true
  rw [Budget.toNat_next, spent_budget, toNat_requestsSent]
  simp only [UInt32.size]
  omega

/-- Holding the count at its greatest value allows no request too many. -/
theorem budget_mayRequest_iff (c : Conversation) (limit : UInt32) :
    (c.budget limit).mayRequest = true ↔ c.requestCount + 1 < max limit.toNat 1 := by
  have hLimit := limit.toNat_lt
  rw [Budget.mayRequest_iff, toNat_limit_budget, Budget.toNat_next, spent_budget,
    toNat_requestsSent]
  simp only [UInt32.size]
  omega

/-- Within the budget the next number is the exact one. -/
theorem next_eq_iff {c : Conversation} {limit : UInt32}
    (h : c.requestCount < max limit.toNat 1) (iteration : UInt32) :
    iteration = (c.budget limit).next ↔ iteration.toNat = c.requestCount + 1 := by
  have hUnspent : (c.budget limit).isSpent = false := by
    rw [Bool.eq_false_iff, ne_eq, budget_isSpent_iff]
    omega
  rw [← toNat_next_budget hUnspent, UInt32.toNat_inj]

/-- A request is known by its number, its limit and what it lists. -/
theorem request_eq_iff {c : Conversation} {limit : UInt32}
    (h : c.requestCount < max limit.toNat 1) (left : List CheckResult) (request : FixRequest) :
    request = .of (c.budget limit) left ↔ request.iteration.toNat = c.requestCount + 1 ∧
      request.maxIterations.toNat = max limit.toNat 1 ∧ request.results = left := by
  obtain ⟨iteration, maxIterations, results⟩ := request
  rw [← next_eq_iff h, ← toNat_limit_budget c limit, UInt32.toNat_inj]
  simp [FixRequest.of]

end Conversation

end LintRepair
