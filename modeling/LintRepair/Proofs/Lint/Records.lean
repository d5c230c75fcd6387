import LintRepair.Config.Loading
import LintRepair.Lint.Diagnostic
import LintRepair.Proofs.Json.Cells
import LintRepair.Proofs.Json.Records
import LintRepair.Proofs.Json.Variants
import LintRepair.Proofs.Repair.Encoding

/-! Targets, diagnostics and configurations as records. What is written for one is read as it again,
whatever its texts and its counts. -/

namespace LintRepair

open Json (Decodes Restores)

/-- Every ecosystem is known by its tag. -/
theorem Ecosystem.variant?_toJson (e : Ecosystem) : Json.variant? tags e.toJson = some e := by
  cases e <;> rfl

theorem Severity.variant?_toJson (s : Severity) : Json.variant? names s.toJson = some s := by
  cases s <;> rfl

namespace Target

/-- What a member sets in a target. -/
def cell (name : String) (d : Draft) (v : Json) : Option Draft :=
  if name = "pattern" then (Json.string? v).map fun s => { d with pattern := some s }
  else if name = "ecosystem" then
    (Json.variant? Ecosystem.tags v).map fun e => { d with ecosystem := some e }
  else if name = "check" then (Json.string? v).map fun s => { d with check := some s }
  else (Json.string? v).map fun s => { d with fix := some s }

/-- The target that a value decodes to. -/
def decode : Json → Option Target := shape.decode cell

/-- The reader of targets reads what decodes to one, and refuses all else. -/
theorem decodes : Decodes reader decode := by
  refine Decodes.record fun f hf state => ?_
  simp only [shape, List.mem_cons, List.not_mem_nil, or_false] at hf
  rcases hf with rfl | rfl | rfl | rfl
  · exact Decodes.field Json.decodes_text "pattern" true Draft.pattern _ state
  · exact Decodes.field (Json.decodes_variant _) "ecosystem" true Draft.ecosystem _ state
  · exact Decodes.field Json.decodes_text "check" true Draft.check _ state
  · exact Decodes.field Json.decodes_text "fix" true Draft.fix _ state

/-- A target that was written decodes to itself. -/
theorem decode_toJson (t : Target) : decode t.toJson = some t := by
  obtain ⟨pattern, ecosystem, check, fix⟩ := t
  simp [decode, Json.Shape.decode, Json.Shape.setMember, shape, Json.Field.of, cell, toJson,
    Json.string?, Ecosystem.variant?_toJson, Draft.build, pure, Except.pure, Except.toOption]

theorem exact_toJson (t : Target) (depth : Nat) : Json.Exact (depth + 1) t.toJson := by
  refine .object ?_
  simp only [List.forall_mem_cons, List.not_mem_nil, false_implies, implies_true, and_true]
  exact ⟨.string _, .string _, .string _, .string _⟩

/-- Targets are restored from their records. -/
theorem restores : Restores 1 reader decode toJson := ⟨decodes, decode_toJson, exact_toJson⟩

end Target

namespace Diagnostic

/-- What a member sets in a diagnostic. -/
def cell (name : String) (d : Draft) (v : Json) : Option Draft :=
  if name = "file" then (Json.string? v).map fun s => { d with file := some s }
  else if name = "line" then (Json.word32? v).map fun n => { d with line := some n }
  else if name = "column" then (Json.word32? v).map fun n => { d with column := some n }
  else if name = "rule" then (Json.string? v).map fun s => { d with rule := some s }
  else if name = "severity" then
    (Json.variant? Severity.names v).map fun s => { d with severity := some s }
  else if name = "message" then (Json.string? v).map fun s => { d with message := some s }
  else (Json.bool? v).map fun b => { d with fixable := some b }

/-- The diagnostic that a value decodes to. -/
def decode : Json → Option Diagnostic := shape.decode cell

theorem decodes : Decodes reader decode := by
  refine Decodes.record fun f hf state => ?_
  simp only [shape, List.mem_cons, List.not_mem_nil, or_false] at hf
  rcases hf with rfl | rfl | rfl | rfl | rfl | rfl | rfl
  · exact Decodes.field Json.decodes_text "file" true Draft.file _ state
  · exact Decodes.field Json.decodes_word32 "line" true Draft.line _ state
  · exact Decodes.field Json.decodes_word32 "column" true Draft.column _ state
  · exact Decodes.field Json.decodes_text "rule" true Draft.rule _ state
  · exact Decodes.field (Json.decodes_variant _) "severity" true Draft.severity _ state
  · exact Decodes.field Json.decodes_text "message" true Draft.message _ state
  · exact Decodes.field Json.decodes_boolean "fixable" true Draft.fixable _ state

theorem decode_toJson (d : Diagnostic) : decode d.toJson = some d := by
  obtain ⟨file, line, column, rule, severity, message, fixable⟩ := d
  simp [decode, Json.Shape.decode, Json.Shape.setMember, shape, Json.Field.of, cell, toJson,
    Json.string?, Json.bool?, Json.word32?_count, Severity.variant?_toJson, Draft.build, pure,
    Except.pure, Except.toOption]

/-- Diagnostics are restored from their records. -/
theorem restores : Restores 1 reader decode toJson := ⟨decodes, decode_toJson, exact_toJson⟩

end Diagnostic

namespace Config

/-- What a member sets in a configuration. -/
def cell (name : String) (d : Draft) (v : Json) : Option Draft :=
  if name = "maxIterations" then (Json.word32? v).map fun n => { d with maxIterations := some n }
  else if name = "parallel" then (Json.bool? v).map fun b => { d with parallel := some b }
  else (Json.list? Target.decode v).map fun ts => { d with targets := some ts }

/-- The configuration that a value decodes to. -/
def ofJson? : Json → Option Config := shape.decode cell

theorem decodes : Decodes reader ofJson? := by
  refine Decodes.record fun f hf state => ?_
  simp only [shape, List.mem_cons, List.not_mem_nil, or_false] at hf
  rcases hf with rfl | rfl | rfl
  · exact Decodes.field Json.decodes_word32 "maxIterations" false Draft.maxIterations _ state
  · exact Decodes.field Json.decodes_boolean "parallel" false Draft.parallel _ state
  · exact Decodes.field Target.decodes.list "targets" true Draft.targets _ state

/-- A configuration that was written decodes to itself. -/
theorem ofJson?_toJson (c : Config) : ofJson? c.toJson = some c := by
  obtain ⟨maxIterations, parallel, targets⟩ := c
  have hTargets := Target.restores.list.decode_write targets
  simp [ofJson?, Json.Shape.decode, Json.Shape.setMember, shape, Json.Field.of, cell, toJson,
    Json.bool?, Json.word32?_count, hTargets, Draft.build, Except.toOption]

theorem exact_toJson (c : Config) (depth : Nat) : Json.Exact (depth + 3) c.toJson := by
  refine .object ?_
  simp only [List.forall_mem_cons, List.not_mem_nil, false_implies, implies_true, and_true]
  exact ⟨Json.exact_count _, .bool _, Target.restores.list.exact c.targets depth⟩

/-- Configurations are restored from their records. -/
theorem restores : Restores 3 reader ofJson? toJson := ⟨decodes, ofJson?_toJson, exact_toJson⟩

/-- A configuration is loaded from the JSON text that is printed for it. -/
theorem decode_compactText {path : String} (hFormat : Format.ofPath path = .json) (c : Config) :
    decode path (Json.compactText c.toJson) = .ok c := by
  have hFinish : Json.finish reader (Json.compactText c.toJson).toList = .ok c := by
    rw [Json.compactText, String.toList_ofList]
    exact (restores.roundTrips (by decide)).restored .compact c
  simp only [decode, hFormat, hFinish]

end Config

end LintRepair
