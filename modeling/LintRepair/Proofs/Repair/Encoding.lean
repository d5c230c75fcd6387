import LintRepair.Proofs.Json.Alike
import LintRepair.Proofs.Json.Roundtrip
import LintRepair.Repair.Outcome

/-! What reports are written as. No two outcomes are written alike, not even in another order of
members, and what is written is read back, as long as counts of diagnostics fit 64 bits: a machine
holds no list for which they would not. -/

namespace LintRepair

open Json (Alike Exact Faithful Legible)

/-! ### Different things are written differently -/

theorem Severity.faithful_toJson : Faithful toJson := by
  intro s t h
  have hName : s.name = t.name := Json.alike_string_iff.mp h
  cases s <;> cases t <;> simp [name] at hName <;> rfl

theorem Ecosystem.faithful_toJson : Faithful toJson := by
  intro e f h
  have hTag : e.tag = f.tag := Json.alike_string_iff.mp h
  cases e <;> cases f <;> simp [tag] at hTag <;> rfl

/-- Every field of a diagnostic is written, so diagnostics written alike are the same. -/
theorem Diagnostic.faithful_toJson : Faithful toJson := by
  intro d e h
  have hFields := Alike.aligned h
    ["file", "line", "column", "rule", "severity", "message", "fixable"] (by decide) rfl rfl
  simp only [List.forall₂_cons, Json.alikeMember_iff, Json.alike_string_iff, Json.alike_count_iff,
    Json.alike_bool_iff, Severity.faithful_toJson.alike_iff, List.forall₂_nil_left_iff] at hFields
  obtain ⟨hFile, hLine, hColumn, hRule, hSeverity, hMessage, hFixable, -⟩ := hFields
  cases d
  cases e
  simp_all

theorem Summary.faithful_toJson : Faithful toJson := by
  intro s t h
  have hFields := Alike.aligned h
    ["total", "fixable", "unfixable"] (by decide) rfl rfl
  simp only [List.forall₂_cons, Json.alikeMember_iff, Json.alike_nat_iff,
    List.forall₂_nil_left_iff] at hFields
  obtain ⟨hTotal, hFixable, hUnfixable, -⟩ := hFields
  cases s
  cases t
  simp_all

/-- Results that are written alike are the same. -/
theorem CheckResult.faithful_toJson : Faithful toJson := by
  intro r s h
  have hFields := Alike.aligned h
    ["ecosystem", "target", "errors", "summary"] (by decide) rfl rfl
  simp only [List.forall₂_cons, Json.alikeMember_iff, Json.alike_string_iff,
    Ecosystem.faithful_toJson.alike_iff, Summary.faithful_toJson.alike_iff,
    List.forall₂_nil_left_iff] at hFields
  obtain ⟨hEcosystem, hTarget, hDiagnostics, hSummary, -⟩ := hFields
  have hDiagnostics := Diagnostic.faithful_toJson.list hDiagnostics
  cases r
  cases s
  simp_all

theorem CheckResult.faithful_listJson : Faithful listJson := CheckResult.faithful_toJson.list

/-- Requests that are written alike are the same. -/
theorem FixRequest.faithful_toJson : Faithful toJson := by
  intro r s h
  have hFields := Alike.aligned h
    ["task", "instruction", "iteration", "maxIterations", "results"] (by decide) rfl rfl
  simp only [List.forall₂_cons, Json.alikeMember_iff, Json.alike_count_iff,
    CheckResult.faithful_listJson.alike_iff, List.forall₂_nil_left_iff] at hFields
  obtain ⟨-, -, hIteration, hLimit, hResults, -⟩ := hFields
  cases r
  cases s
  simp_all

namespace Outcome

/-- The kind of an outcome, by its name in reports. -/
def kind : Outcome → String
  | .skipped _ => "skipped"
  | .passed => "passed"
  | .requested _ => "requested"
  | .exhausted _ _ => "exhausted"

/-- What is reported besides the kind. -/
def details : Outcome → List (String × Json)
  | .skipped reason => [("reason", .string reason.name), ("priorAttempts", reason.priorJson)]
  | .passed => []
  | .requested request => [("request", request.toJson)]
  | .exhausted iteration results =>
    [("iteration", .count iteration), ("results", CheckResult.listJson results)]

/-- An outcome is its kind and then its details. -/
theorem toJson_eq (o : Outcome) :
    o.toJson = .object (("outcome", .string o.kind) :: o.details) := by
  cases o <;> rfl

theorem nodup_names (o : Outcome) :
    ((("outcome", .string o.kind) :: o.details).map Prod.fst).Nodup := by
  cases o with
  | skipped reason => exact (by decide : ["outcome", "reason", "priorAttempts"].Nodup)
  | passed => exact (by decide : ["outcome"].Nodup)
  | requested request => exact (by decide : ["outcome", "request"].Nodup)
  | exhausted iteration results => exact (by decide : ["outcome", "iteration", "results"].Nodup)

/-- Outcomes that are written alike are of one kind. -/
theorem kind_eq_of_alike {o p : Outcome} (h : Alike o.toJson p.toJson) : o.kind = p.kind := by
  rw [toJson_eq, toJson_eq] at h
  exact Json.alike_string_iff.mp (h.member p.nodup_names List.mem_cons_self List.mem_cons_self)

end Outcome

/-- A reason is known by its name and the count beside it. -/
theorem SkipReason.eq_of_alike {a b : SkipReason} (hName : a.name = b.name)
    (hPrior : Alike a.priorJson b.priorJson) : a = b := by
  cases a <;> cases b <;> simp [name] at hName
  · rfl
  · rfl
  · rfl
  · rw [Json.alike_count_iff.mp hPrior]

/-- Outcomes that are written alike are the same. -/
theorem Outcome.faithful_toJson : Faithful toJson := by
  intro o p h
  have hKind := kind_eq_of_alike h
  cases o <;> cases p <;> simp [kind] at hKind
  case skipped.skipped reason other =>
    have hFields := Alike.aligned h
      ["outcome", "reason", "priorAttempts"] (by decide) rfl rfl
    simp only [List.forall₂_cons, Json.alikeMember_iff, Json.alike_string_iff,
      List.forall₂_nil_left_iff] at hFields
    obtain ⟨-, hName, hPrior, -⟩ := hFields
    rw [SkipReason.eq_of_alike hName hPrior]
  case passed.passed => rfl
  case requested.requested request other =>
    have hFields := Alike.aligned h
      ["outcome", "request"] (by decide) rfl rfl
    simp only [List.forall₂_cons, Json.alikeMember_iff, FixRequest.faithful_toJson.alike_iff,
      List.forall₂_nil_left_iff] at hFields
    rw [hFields.2.1]
  case exhausted.exhausted iteration results other others =>
    have hFields := Alike.aligned h
      ["outcome", "iteration", "results"] (by decide) rfl rfl
    simp only [List.forall₂_cons, Json.alikeMember_iff, Json.alike_count_iff,
      CheckResult.faithful_listJson.alike_iff, List.forall₂_nil_left_iff] at hFields
    rw [hFields.2.1, hFields.2.2.1]

/-! ### What is written is read back -/

theorem Json.exact_count {depth : Nat} (n : UInt32) : Exact depth (.count n) :=
  .int (isWord_nat (Nat.lt_trans n.toNat_lt (by decide)))

/-- The numbers of a diagnostic have 32 bits, so every diagnostic is read back. -/
theorem Diagnostic.exact_toJson (d : Diagnostic) (depth : Nat) : Exact (depth + 1) d.toJson := by
  refine .object ?_
  simp only [List.forall_mem_cons, List.not_mem_nil, false_implies, implies_true, and_true]
  exact ⟨.string _, Json.exact_count _, Json.exact_count _, .string _, .string _, .string _, .bool _⟩

namespace CheckResult

/-- The diagnostics can be counted in 64 bits. -/
def Countable (r : CheckResult) : Prop := r.diagnostics.length < UInt64.size

/-- No count in a summary is above the number of the diagnostics, and the total is
that number. -/
theorem summary_bounds (r : CheckResult) : r.summary.total = r.diagnostics.length ∧
    r.summary.fixable ≤ r.diagnostics.length ∧ r.summary.unfixable ≤ r.diagnostics.length := by
  rcases r.summary_agrees with h | h
  · rw [h]
    exact ⟨rfl, List.length_filter_le _ _, Nat.sub_le _ _⟩
  · rw [h]
    exact ⟨rfl, Nat.zero_le _, Nat.le_refl _⟩

theorem Countable.exact_summary {r : CheckResult} (h : r.Countable) (depth : Nat) :
    Exact (depth + 1) r.summary.toJson := by
  obtain ⟨hTotal, hFixable, hUnfixable⟩ := r.summary_bounds
  unfold Countable at h
  refine .object ?_
  simp only [List.forall_mem_cons, List.not_mem_nil, false_implies, implies_true, and_true]
  exact ⟨.nat (by omega), .nat (by omega), .nat (by omega)⟩

/-- A result that can be counted is read back. -/
theorem Countable.exact_toJson {r : CheckResult} (h : r.Countable) (depth : Nat) :
    Exact (depth + 3) r.toJson := by
  have hDiagnostics : Exact (depth + 2) (Diagnostic.listJson r.diagnostics) :=
    .array (List.forall_mem_map.mpr fun d _ => d.exact_toJson depth)
  refine .object ?_
  simp only [List.forall_mem_cons, List.not_mem_nil, false_implies, implies_true, and_true]
  exact ⟨.string _, .string _, hDiagnostics, h.exact_summary (depth + 1)⟩

theorem exact_listJson {rs : List CheckResult} (h : ∀ r ∈ rs, r.Countable) (depth : Nat) :
    Exact (depth + 4) (listJson rs) :=
  .array (List.forall_mem_map.mpr fun r hr => (h r hr).exact_toJson depth)

/-- The summary of a result that is read says how many diagnostics there are. -/
theorem countable_of_legible {r : CheckResult} (h : Legible r.toJson) : r.Countable := by
  have hSummary : Legible r.summary.toJson := h.members ("summary", r.summary.toJson) (by simp)
  have hTotal : Legible (.nat r.summary.total) :=
    hSummary.members ("total", .nat r.summary.total) (by simp)
  obtain ⟨hEq, -⟩ := r.summary_bounds
  have hWord := hTotal.int.2
  rw [hEq] at hWord
  exact Int.ofNat_lt.mp hWord

/-- Results that are read back can be counted. -/
theorem countable_of_legible_list {rs : List CheckResult} (h : Legible (listJson rs)) :
    ∀ r ∈ rs, r.Countable :=
  fun _ hr => countable_of_legible (h.items _ (List.mem_map_of_mem hr))

end CheckResult

namespace FixRequest

/-- The diagnostics of each result can be counted in 64 bits. -/
def Countable (r : FixRequest) : Prop := ∀ result ∈ r.results, result.Countable

theorem Countable.exact_toJson {r : FixRequest} (h : r.Countable) (depth : Nat) :
    Exact (depth + 5) r.toJson := by
  refine .object ?_
  simp only [List.forall_mem_cons, List.not_mem_nil, false_implies, implies_true, and_true]
  exact ⟨.string _, .string _, Json.exact_count _, Json.exact_count _,
    CheckResult.exact_listJson h depth⟩

/-- A request that is read back has results that can be counted. -/
theorem countable_of_legible {r : FixRequest} (h : Legible r.toJson) : r.Countable :=
  CheckResult.countable_of_legible_list
    (h.members ("results", CheckResult.listJson r.results) (by simp))

/-- A payload, with or without a line break behind it, is parsed as the request it
was written from. -/
theorem parse_payload_iff (r : FixRequest) {space : List Char} (hSpace : ∀ c ∈ space, c = '\n') :
    Json.parse (r.payload.toList ++ space) = .ok r.toJson ↔ r.Countable := by
  rw [payload, Json.compactText, String.toList_ofList]
  refine ⟨fun h => countable_of_legible (Json.legible_of_parse h), fun h => ?_⟩
  exact Json.Stands.parse (h.exact_toJson 122).stands_compact hSpace

end FixRequest

namespace Outcome

def results : Outcome → List CheckResult
  | .requested request => request.results
  | .exhausted _ results => results
  | _ => []

/-- The diagnostics of each result can be counted in 64 bits. -/
def Countable (o : Outcome) : Prop := ∀ r ∈ o.results, r.Countable

theorem Countable.exact_details {o : Outcome} (h : o.Countable) (depth : Nat) :
    ∀ m ∈ o.details, Exact (depth + 5) m.2 := by
  cases o with
  | skipped reason =>
      simp only [details, List.forall_mem_cons, List.not_mem_nil, false_implies, implies_true,
        and_true]
      refine ⟨.string _, ?_⟩
      cases reason with
      | budgetExhausted prior => exact Json.exact_count prior
      | _ => exact .null
  | passed => exact fun m hm => absurd hm List.not_mem_nil
  | requested request =>
      simp only [details, List.forall_mem_cons, List.not_mem_nil, false_implies, implies_true,
        and_true]
      exact FixRequest.Countable.exact_toJson h depth
  | exhausted iteration results =>
      simp only [details, List.forall_mem_cons, List.not_mem_nil, false_implies, implies_true,
        and_true]
      exact ⟨Json.exact_count _, CheckResult.exact_listJson h (depth + 1)⟩

/-- An outcome that can be counted is read back. -/
theorem Countable.exact_toJson {o : Outcome} (h : o.Countable) (depth : Nat) :
    Exact (depth + 6) o.toJson := by
  rw [toJson_eq]
  exact .object (List.forall_mem_cons.mpr ⟨.string _, h.exact_details depth⟩)

/-- An outcome that is read back can be counted. -/
theorem countable_of_legible {o : Outcome} (h : Legible o.toJson) : o.Countable := by
  rw [toJson_eq] at h
  cases o with
  | skipped reason => exact fun r hr => absurd hr List.not_mem_nil
  | passed => exact fun r hr => absurd hr List.not_mem_nil
  | requested request =>
      exact FixRequest.countable_of_legible
        (h.members ("request", request.toJson) (by simp [details]))
  | exhausted iteration results =>
      exact CheckResult.countable_of_legible_list
        (h.members ("results", CheckResult.listJson results) (by simp [details]))

/-- A report, with or without a line break behind it, is parsed as the value it was
written from. -/
theorem parse_pretty_iff (o : Outcome) {space : List Char} (hSpace : ∀ c ∈ space, c = '\n') :
    Json.parse (o.toJson.pretty ++ space) = .ok o.toJson ↔ o.Countable := by
  refine ⟨fun h => countable_of_legible (Json.legible_of_parse h), fun h => ?_⟩
  exact Json.Stands.parse ((h.exact_toJson 121).stands_pretty 0) hSpace

end Outcome

end LintRepair
