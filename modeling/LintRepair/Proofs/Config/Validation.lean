import LintRepair.Lint.Selection
import LintRepair.Proofs.Lint.Records
import LintRepair.Proofs.Steps
import LintRepair.Repair.Budget
import Mathlib.Data.List.Forall2

/-! What validation lets through and what it refuses. A configuration is refused for its first fault
alone, in the order of the targets and for each of them in the order of its fields, and one that is
accepted has nothing in it that a later step would have to pass over. -/

namespace LintRepair

/-- A target that can be worked on. -/
structure Target.Usable (t : Target) : Prop where
  pattern : ∃ tokens, Glob.parse t.pattern = .ok tokens
  check : Text.isBlankText t.check = false
  fix : Text.isBlankText t.fix = false

theorem Target.not_usable_iff {t : Target} : ¬ t.Usable ↔
    (∃ cause, Glob.parse t.pattern = .error cause) ∨
      Text.isBlankText t.check = true ∨ Text.isBlankText t.fix = true := by
  constructor
  · intro h
    cases hPattern : Glob.parse t.pattern with
    | error cause => exact .inl ⟨cause, rfl⟩
    | ok tokens =>
        cases hCheck : Text.isBlankText t.check with
        | true => exact .inr (.inl rfl)
        | false =>
            cases hFix : Text.isBlankText t.fix with
            | true => exact .inr (.inr rfl)
            | false => exact absurd ⟨⟨tokens, hPattern⟩, hCheck, hFix⟩ h
  · rintro (⟨cause, hPattern⟩ | hCheck | hFix) h
    · obtain ⟨tokens, hOk⟩ := h.pattern
      cases hPattern.symm.trans hOk
    · cases hCheck.symm.trans h.check
    · cases hFix.symm.trans h.fix

namespace Config

/-- The fault of the target at a position: of its pattern, or with a good pattern of its check
command, or with both good of its fix command. -/
inductive FaultAt (index : Nat) (t : Target) : Fault → Prop where
  | pattern {cause : Glob.Error} (bad : Glob.parse t.pattern = .error cause) :
      FaultAt index t (.badPattern index t.pattern cause)
  | check {tokens : List Glob.Token} (pattern : Glob.parse t.pattern = .ok tokens)
      (blank : Text.isBlankText t.check = true) : FaultAt index t (.emptyCommand index t.pattern .check)
  | fix {tokens : List Glob.Token} (pattern : Glob.parse t.pattern = .ok tokens)
      (check : Text.isBlankText t.check = false) (blank : Text.isBlankText t.fix = true) :
      FaultAt index t (.emptyCommand index t.pattern .fix)

/-- The fault of a configuration that is found first: no iteration is allowed, or else the least
position of a target that cannot be worked on has the fault. -/
inductive FirstFault (c : Config) : Fault → Prop where
  | budget (none : c.maxIterations = 0) : FirstFault c (.maxIterations 0)
  | target {index : Nat} {t : Target} {f : Fault} (some : c.maxIterations ≠ 0)
      (at_index : c.targets[index]? = .some t) (fault : FaultAt index t f)
      (earlier : ∀ s ∈ c.targets.take index, s.Usable) : FirstFault c f

/-- A configuration that can be worked with. -/
structure Valid (c : Config) : Prop where
  budget : 1 ≤ c.maxIterations
  targets : ∀ t ∈ c.targets, t.Usable

/-- The first fault of a target is the one that is reported. -/
theorem targetFault?_eq_some_iff {index : Nat} {t : Target} {f : Fault} :
    targetFault? index t = some f ↔ FaultAt index t f := by
  constructor
  · intro h
    unfold targetFault? at h
    split at h
    · rename_i cause hPattern
      cases h
      exact .pattern hPattern
    · rename_i tokens hPattern
      split at h
      · rename_i hCheck
        cases h
        exact .check hPattern hCheck
      · rename_i hCheck
        split at h
        · rename_i hFix
          cases h
          exact .fix hPattern (Bool.eq_false_iff.mpr hCheck) hFix
        · cases h
  · intro h
    unfold targetFault?
    cases h with
    | pattern bad => rw [bad]
    | check pattern blank => simp only [pattern, blank, if_true]
    | fix pattern check blank =>
        simp only [pattern, check, blank, Bool.false_eq_true, if_false, if_true]

/-- A target without a fault can be worked on, and the other way round. -/
theorem targetFault?_eq_none_iff {index : Nat} {t : Target} :
    targetFault? index t = none ↔ t.Usable := by
  rw [← not_iff_not, Target.not_usable_iff]
  unfold targetFault?
  cases Glob.parse t.pattern with
  | error cause => simp
  | ok tokens =>
      cases Text.isBlankText t.check with
      | true => simp
      | false => cases Text.isBlankText t.fix <;> simp

theorem targetsFault?_of_fault {index : Nat} {t : Target} {f : Fault}
    (h : targetFault? index t = some f) (targets : List Target) :
    targetsFault? index (t :: targets) = some f := by
  rw [targetsFault?, h]

theorem targetsFault?_of_usable {t : Target} (h : t.Usable) (index : Nat) (targets : List Target) :
    targetsFault? index (t :: targets) = targetsFault? (index + 1) targets := by
  rw [targetsFault?, targetFault?_eq_none_iff.mpr h]

theorem targetsFault?_eq_none_iff {index : Nat} {targets : List Target} :
    targetsFault? index targets = none ↔ ∀ t ∈ targets, t.Usable := by
  induction targets generalizing index with
  | nil => simp [targetsFault?]
  | cons t targets ih =>
      rw [targetsFault?, List.forall_mem_cons, ← targetFault?_eq_none_iff]
      cases targetFault? index t with
      | some fault => simp
      | none => simp [ih]

/-- The scan of the targets stops at the first one that cannot be worked on. -/
theorem targetsFault?_eq_some_iff {start : Nat} {targets : List Target} {f : Fault} :
    targetsFault? start targets = some f ↔ ∃ i t, targets[i]? = some t ∧ FaultAt (start + i) t f ∧
      ∀ s ∈ targets.take i, s.Usable := by
  induction targets generalizing start with
  | nil => simp [targetsFault?]
  | cons first targets ih =>
      cases hFirst : targetFault? start first with
      | some g =>
          rw [targetsFault?_of_fault hFirst, ← hFirst]
          constructor
          · intro h
            exact ⟨0, first, rfl, targetFault?_eq_some_iff.mp h, List.forall_mem_nil _⟩
          · rintro ⟨i, t, hAt, hFault, hEarlier⟩
            cases i with
            | zero =>
                cases hAt
                exact targetFault?_eq_some_iff.mpr hFault
            | succ i =>
                have hUsable : first.Usable := hEarlier first List.mem_cons_self
                cases hFirst.symm.trans (targetFault?_eq_none_iff.mpr hUsable)
      | none =>
          have hUsable := targetFault?_eq_none_iff.mp hFirst
          rw [targetsFault?_of_usable hUsable, ih]
          constructor
          · rintro ⟨i, t, hAt, hFault, hEarlier⟩
            rw [Nat.add_right_comm] at hFault
            exact ⟨i + 1, t, hAt, hFault, List.forall_mem_cons.mpr ⟨hUsable, hEarlier⟩⟩
          · rintro ⟨i, t, hAt, hFault, hEarlier⟩
            cases i with
            | zero =>
                cases hAt
                cases hFirst.symm.trans (targetFault?_eq_some_iff.mpr hFault)
            | succ i =>
                refine ⟨i, t, hAt, ?_, (List.forall_mem_cons.mp hEarlier).2⟩
                rwa [Nat.add_right_comm]

/-- A configuration passes its validation when it allows an iteration and all its
targets can be worked on. -/
theorem fault?_eq_none_iff {c : Config} :
    c.fault? = none ↔ c.maxIterations ≠ 0 ∧ ∀ t ∈ c.targets, t.Usable := by
  unfold fault?
  split
  · rename_i hSpent
    exact ⟨nofun, fun h => absurd (UInt32.lt_one_iff.mp hSpent) h.1⟩
  · rename_i hOpen
    rw [targetsFault?_eq_none_iff, and_iff_right (mt UInt32.lt_one_iff.mpr hOpen)]

/-- The fault that is reported of a configuration is the first one. -/
theorem fault?_eq_some_iff {c : Config} {f : Fault} : c.fault? = some f ↔ c.FirstFault f := by
  unfold fault?
  split
  · rename_i hSpent
    have hNone := UInt32.lt_one_iff.mp hSpent
    rw [hNone]
    constructor
    · intro h
      cases h
      exact .budget hNone
    · intro h
      cases h with
      | budget none => rfl
      | target some at_index fault earlier => exact absurd hNone some
  · rename_i hOpen
    have hSome := mt UInt32.lt_one_iff.mpr hOpen
    rw [targetsFault?_eq_some_iff]
    constructor
    · rintro ⟨i, t, hAt, hFault, hEarlier⟩
      rw [Nat.zero_add] at hFault
      exact .target hSome hAt hFault hEarlier
    · intro h
      cases h with
      | budget none => exact absurd none hSome
      | target some at_index fault earlier =>
          refine ⟨_, _, at_index, ?_, earlier⟩
          rwa [Nat.zero_add]

theorem valid_iff {c : Config} : c.Valid ↔ c.fault? = none := by
  rw [fault?_eq_none_iff]
  have hBudget : 1 ≤ c.maxIterations ↔ c.maxIterations ≠ 0 := by
    rw [← UInt32.not_lt, not_iff_not]
    exact UInt32.lt_one_iff
  exact ⟨fun h => ⟨hBudget.mp h.budget, h.targets⟩, fun h => ⟨hBudget.mpr h.1, h.2⟩⟩

theorem validated_eq_ok_iff {c d : Config} : validated c = .ok d ↔ c.fault? = none ∧ c = d := by
  unfold validated
  cases c.fault? <;> simp

/-! ### Texts -/

/-- A text that cannot be decoded has no fault of its configuration. -/
theorem decode_ne_faulty (path text : String) (f : Fault) : decode path text ≠ .error (.faulty f) := by
  unfold decode
  split <;> split <;> exact nofun

theorem parse_eq_ok_iff {path text : String} {c : Config} :
    parse path text = .ok c ↔ decode path text = .ok c ∧ c.Valid := by
  constructor
  · intro h
    obtain ⟨d, hDecode, hValidated⟩ := bind_eq_ok h
    obtain ⟨hFault, rfl⟩ := validated_eq_ok_iff.mp hValidated
    exact ⟨hDecode, valid_iff.mpr hFault⟩
  · rintro ⟨hDecode, hValid⟩
    rw [parse, hDecode]
    exact validated_eq_ok_iff.mpr ⟨valid_iff.mp hValid, rfl⟩

/-- A text is refused for a fault exactly if it decodes to a configuration that has it. -/
theorem parse_eq_faulty_iff {path text : String} {f : Fault} :
    parse path text = .error (.faulty f) ↔ ∃ c, decode path text = .ok c ∧ c.FirstFault f := by
  have hValidated (c : Config) : validated c = .error (.faulty f) ↔ c.FirstFault f := by
    rw [← fault?_eq_some_iff]
    unfold validated
    cases c.fault? <;> simp
  unfold parse
  cases hDecode : decode path text with
  | error fault =>
      refine ⟨fun h => ?_, fun ⟨c, hOk, _⟩ => nomatch hOk⟩
      cases h
      exact absurd hDecode (decode_ne_faulty path text f)
  | ok c =>
      refine (hValidated c).trans ⟨fun h => ⟨c, rfl, h⟩, ?_⟩
      rintro ⟨d, hOk, h⟩
      cases hOk
      exact h

/-! ### Accepted configurations -/

def Compiles (t : Target) (tokens : List Glob.Token) : Prop := Glob.parse t.pattern = .ok tokens

/-- The patterns of targets that can be worked on compile. -/
theorem exists_compiled {targets : List Target} (h : ∀ t ∈ targets, t.Usable) :
    ∃ compiled, List.Forall₂ Compiles targets compiled := by
  induction targets with
  | nil => exact ⟨[], .nil⟩
  | cons t targets ih =>
      obtain ⟨hHead, hTail⟩ := List.forall_mem_cons.mp h
      obtain ⟨tokens, hTokens⟩ := hHead.pattern
      obtain ⟨compiled, hCompiled⟩ := ih hTail
      exact ⟨tokens :: compiled, .cons hTokens hCompiled⟩

/-- Which target a file belongs to is decided by the compiled patterns alone. -/
theorem owner?_of_compiled {targets : List Target} {compiled : List (List Glob.Token)}
    (h : List.Forall₂ Compiles targets compiled) (file : String) :
    Selection.owner? targets file =
      compiled.findIdx? fun tokens => Glob.isMatch tokens (Selection.bare file) := by
  unfold Selection.owner?
  induction h with
  | nil => rfl
  | @cons t tokens targets compiled hHead _ ih =>
      have hCovers : t.covers file = Glob.isMatch tokens (Selection.bare file) := by
        rw [Target.covers, show Glob.parse t.pattern = .ok tokens from hHead]
      rw [List.findIdx?_cons, List.findIdx?_cons, hCovers, ih]

/-- The limit of a valid configuration is the limit of its budget. -/
theorem Valid.limit {c : Config} (h : c.Valid) (spent : UInt32) :
    (Budget.of spent c.maxIterations).limit = c.maxIterations := by
  have hLimit : 1 ≤ c.maxIterations.toNat := UInt32.le_iff_toNat_le.mp h.budget
  rw [Budget.of, dif_pos hLimit]

/-- Validation is exact. A configuration is valid or it is refused for its first fault, and so is a
text that can be decoded. In what is accepted every target has a pattern that is compiled, files
belong to targets by those patterns, and the budget is never raised. -/
theorem validation_exact :
    (∀ c : Config, (c.fault? = none ↔ c.Valid) ∧ ∀ f, c.fault? = some f ↔ c.FirstFault f) ∧
    (∀ path text c, parse path text = .ok c ↔ decode path text = .ok c ∧ c.Valid) ∧
    (∀ path text f, parse path text = .error (.faulty f) ↔
      ∃ c, decode path text = .ok c ∧ c.FirstFault f) ∧
    ∀ path text c, parse path text = .ok c →
      (∃ compiled, List.Forall₂ Compiles c.targets compiled ∧ ∀ file,
        Selection.owner? c.targets file =
          compiled.findIdx? fun tokens => Glob.isMatch tokens (Selection.bare file)) ∧
      ∀ spent, (Budget.of spent c.maxIterations).limit = c.maxIterations := by
  refine ⟨fun c => ⟨valid_iff.symm, fun f => fault?_eq_some_iff⟩, fun _ _ _ => parse_eq_ok_iff,
    fun _ _ _ => parse_eq_faulty_iff, fun path text c hParse => ?_⟩
  obtain ⟨-, hValid⟩ := parse_eq_ok_iff.mp hParse
  obtain ⟨compiled, hCompiled⟩ := exists_compiled hValid.targets
  exact ⟨⟨compiled, hCompiled, owner?_of_compiled hCompiled⟩, hValid.limit⟩

/-- Two targets with patterns of different kinds. -/
def twofold : Config :=
  ⟨5, true, [⟨"src/**/*.\x7bts,tsx\x7d", .js, "eslint", "eslint --fix"⟩, ⟨"*.go", .go, "vet", "fmt"⟩]⟩

/-- The same targets, one of which nothing is right, and one without a check command. -/
def botched : Config :=
  { twofold with targets := twofold.targets ++ [⟨"src/[*.ts", .js, "", " "⟩, ⟨"*", .rust, "", "fix"⟩] }

/-- A text that is accepted, and a configuration that is refused for the pattern of its third target. -/
theorem validation_exact_twofold :
    parse "c.json" (Json.compactText twofold.toJson) = .ok twofold ∧
      (∃ compiled, List.Forall₂ Compiles twofold.targets compiled ∧ ∀ file,
        Selection.owner? twofold.targets file =
          compiled.findIdx? fun tokens => Glob.isMatch tokens (Selection.bare file)) ∧
      (Budget.of 0 twofold.maxIterations).limit = 5 ∧
      botched.fault? = some (.badPattern 2 "src/[*.ts" .unclosedClass) := by
  have hParse : parse "c.json" (Json.compactText twofold.toJson) = .ok twofold :=
    parse_eq_ok_iff.mpr ⟨decode_compactText rfl twofold, valid_iff.mpr (by decide +kernel)⟩
  obtain ⟨hFaults, -, -, hAccepted⟩ := validation_exact
  obtain ⟨hCompiled, hBudget⟩ := hAccepted _ _ _ hParse
  have hUsable : ∀ t ∈ twofold.targets, t.Usable :=
    ((hFaults twofold).1.mp (by decide +kernel)).targets
  refine ⟨hParse, hCompiled, hBudget 0, ((hFaults botched).2 _).mpr ?_⟩
  exact .target (by decide) (rfl : botched.targets[2]? = some _) (.pattern rfl) hUsable

end Config

end LintRepair
