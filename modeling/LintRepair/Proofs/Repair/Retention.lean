import LintRepair.Proofs.Json.Alike
import LintRepair.Proofs.Json.Records
import LintRepair.Repair.Conversation

/-! What a message keeps of the value that it is decoded from. It keeps the members it knows; a value
that has no others, and none that stands for something missing, is written again as it was. -/

namespace LintRepair

open Json (Alike AlikeMember Decodes Exact Restores)

namespace Part

/-- What a member sets in a part. -/
def cell (name : String) (d : Draft) (v : Json) : Option Draft :=
  if name = "type" then (Json.string? v).map fun s => { d with kind := some s }
  else (Json.optional? Json.string? v).map fun t => { d with text := some t }

/-- The part that a value decodes to. -/
def decode : Json → Option Part := shape.decode cell

theorem decodes : Decodes reader decode := by
  refine Decodes.record fun f hf state => ?_
  rcases List.mem_pair.mp hf with rfl | rfl
  · exact Decodes.field Json.decodes_text "type" true Draft.kind _ state
  · exact Decodes.field (Decodes.optional Json.decodes_text) "text" false Draft.text _ state

/-- What the part under construction would be written as. -/
def Draft.written (d : Draft) : List (String × Json) :=
  d.kind.toList.map (fun s => ("type", .string s)) ++
    d.text.join.toList.map fun t => ("text", .string t)

theorem toJson_of_build {d : Draft} {p : Part} (h : d.build = .ok p) :
    p.toJson = .object d.written := by
  obtain ⟨kind, text⟩ := d
  cases kind with
  | none => cases h
  | some kind =>
      cases h
      rw [toJson, Draft.written]
      cases text.join <;> rfl

/-- An object with a type and a text alone, neither of them `null`. -/
def IsPlain : Json → Prop
  | .object members => ∀ m ∈ members, (m.1 = "type" ∨ m.1 = "text") ∧ m.2 ≠ .null
  | _ => False

/-- A member that a part knows is written again. -/
theorem written_of_setMember {m : String × Json} (hName : m.1 = "type" ∨ m.1 = "text")
    (hNull : m.2 ≠ .null) {d next : Draft} (h : shape.setMember cell d m = some next) :
    ∃ n, AlikeMember m n ∧ (n :: d.written).Perm next.written := by
  obtain ⟨name, v⟩ := m
  obtain ⟨kind, text⟩ := d
  rcases hName with rfl | rfl
  · obtain ⟨rfl, s, hString, rfl⟩ : kind = none ∧ ∃ s, Json.string? v = some s ∧
        ({ kind := some s, text := text } : Draft) = next := by
      simpa [Json.Shape.setMember, shape, Json.Field.of, cell] using h
    rw [Json.string?_eq_some hString]
    exact ⟨_, .named "type" (.same _), .refl _⟩
  · obtain ⟨rfl, t, hText, rfl⟩ : text = none ∧ ∃ t, Json.optional? Json.string? v = some t ∧
        ({ kind := kind, text := some t } : Draft) = next := by
      simpa [Json.Shape.setMember, shape, Json.Field.of, cell] using h
    obtain ⟨s, rfl, rfl⟩ : ∃ s, v = .string s ∧ t = some s := by
      unfold Json.optional? at hText
      split at hText
      · exact absurd rfl hNull
      · obtain ⟨s, hString, rfl⟩ := Option.map_eq_some_iff.mp hText
        exact ⟨s, Json.string?_eq_some hString, rfl⟩
    refine ⟨_, .named "text" (.same _), ?_⟩
    simpa [Draft.written] using (List.perm_append_singleton ("text", Json.string s)
      (kind.toList.map fun k => ("type", Json.string k))).symm

/-- A part is written with strings alone. -/
theorem string_of_mem_toJson {p : Part} {members : List (String × Json)}
    (h : p.toJson = .object members) {m : String × Json} (hm : m ∈ members) :
    (m.1 = "type" ∨ m.1 = "text") ∧ ∃ s, m.2 = .string s := by
  obtain ⟨kind, text⟩ := p
  cases h
  rcases List.mem_cons.mp hm with rfl | hm
  · exact ⟨.inl rfl, kind, rfl⟩
  · cases text with
    | none => cases hm
    | some t =>
        obtain rfl := List.mem_singleton.mp hm
        exact ⟨.inr rfl, t, rfl⟩

/-- What is written for a part is plain, in whatever order. -/
theorem isPlain_of_alike {v : Json} {p : Part} (h : Alike v p.toJson) : IsPlain v := by
  obtain ⟨ms, ns, rfl, hMembers, hPerm⟩ := h.members
  intro m hm
  obtain ⟨n, hn, hSame⟩ := Json.exists_of_forall₂ hMembers hm
  obtain ⟨hName, s, hString⟩ := string_of_mem_toJson rfl (hPerm.mem_iff.mp hn)
  have hValue := hSame.value
  rw [hString] at hValue
  rw [hSame.name_eq, hValue.string]
  exact ⟨hName, nofun⟩

/-- A plain value is written as it was read. -/
theorem alike_of_isPlain {v : Json} {p : Part} (h : decode v = some p) (hPlain : IsPlain v) :
    Alike v p.toJson := by
  cases v with
  | object members =>
      obtain ⟨final, hFold, hBuild⟩ := Json.Shape.decode_object.mp h
      obtain ⟨ns, hMembers, hPerm⟩ := Json.Shape.written_of_foldlM Draft.written
        (fun m hm {d next} hSet => written_of_setMember (hPlain m hm).1 (hPlain m hm).2 hSet) hFold
      rw [show shape.blank.written = [] from rfl, List.append_nil] at hPerm
      rw [toJson_of_build hBuild]
      exact .object hMembers hPerm
  | _ => cases hPlain

/-- A part that was written decodes to itself. -/
theorem decode_toJson (p : Part) : decode p.toJson = some p := by
  obtain ⟨kind, text⟩ := p
  cases text <;> simp [decode, Json.Shape.decode, Json.Shape.setMember, shape, Json.Field.of, cell,
    toJson, Json.string?, Json.optional?, Draft.build, Except.toOption]

theorem exact_toJson (p : Part) (depth : Nat) : Exact (depth + 1) p.toJson := by
  refine .object fun m hm => ?_
  obtain ⟨-, s, hString⟩ := string_of_mem_toJson rfl hm
  rw [hString]
  exact .string s

/-- Parts are restored from their records. -/
theorem restores : Restores 1 reader decode toJson := ⟨decodes, decode_toJson, exact_toJson⟩

end Part

namespace Message

/-- What a member sets in a message. -/
def cell (name : String) (d : Draft) (v : Json) : Option Draft :=
  if name = "role" then (Json.string? v).map fun s => { d with role := some s }
  else (Json.list? Part.decode v).map fun ps => { d with parts := some ps }

/-- The message that a value decodes to. -/
def decode : Json → Option Message := shape.decode cell

theorem decodes : Decodes reader decode := by
  refine Decodes.record fun f hf state => ?_
  rcases List.mem_pair.mp hf with rfl | rfl
  · exact Decodes.field Json.decodes_text "role" true Draft.role _ state
  · exact Decodes.field (Decodes.list Part.decodes) "parts" false Draft.parts _ state

/-- What the message under construction would be written as. -/
def Draft.written (d : Draft) : List (String × Json) :=
  d.role.toList.map (fun s => ("role", .string s)) ++
    d.parts.toList.map fun ps => ("parts", .array (ps.map Part.toJson))

theorem toJson_of_build {d : Draft} {m : Message} (h : d.build = .ok m)
    (hParts : ∃ n ∈ d.written, n.1 = "parts") : m.toJson = .object d.written := by
  obtain ⟨role, parts⟩ := d
  cases role with
  | none => cases h
  | some role =>
      cases h
      cases parts with
      | some ps => rfl
      | none => simp [Draft.written] at hParts

/-- An object with a role and plain parts alone, the parts not left out. -/
def IsPlain : Json → Prop
  | .object members =>
    (∀ m ∈ members, m.1 = "role" ∨
      m.1 = "parts" ∧ ∀ parts, m.2 = .array parts → ∀ p ∈ parts, Part.IsPlain p) ∧
    ∃ m ∈ members, m.1 = "parts"
  | _ => False

/-- Plain parts are written as they were read, one by one. -/
theorem alike_parts {vs : List Json} {ps : List Part} (h : vs.mapM Part.decode = some ps)
    (hPlain : ∀ v ∈ vs, Part.IsPlain v) : List.Forall₂ Alike vs (ps.map Part.toJson) := by
  rw [List.forall₂_map_right_iff]
  have hParts := (List.forall₂_and_left vs ps).mpr ⟨hPlain, Json.forall₂_of_mapM h⟩
  exact hParts.imp fun v p hPart => Part.alike_of_isPlain hPart.2 hPart.1

/-- A member that a message knows is written again, if its parts are. -/
theorem written_of_setMember {m : String × Json}
    (h : m.1 = "role" ∨
      m.1 = "parts" ∧ ∀ parts, m.2 = .array parts → ∀ p ∈ parts, Part.IsPlain p)
    {d next : Draft} (hSet : shape.setMember cell d m = some next) :
    ∃ n, AlikeMember m n ∧ (n :: d.written).Perm next.written := by
  obtain ⟨name, v⟩ := m
  obtain ⟨role, parts⟩ := d
  rcases h with rfl | ⟨rfl, hPlain⟩
  · obtain ⟨rfl, s, hString, rfl⟩ : role = none ∧ ∃ s, Json.string? v = some s ∧
        ({ role := some s, parts := parts } : Draft) = next := by
      simpa [Json.Shape.setMember, shape, Json.Field.of, cell] using hSet
    rw [Json.string?_eq_some hString]
    exact ⟨_, .named "role" (.same _), .refl _⟩
  · obtain ⟨rfl, ps, hList, rfl⟩ : parts = none ∧ ∃ ps, Json.list? Part.decode v = some ps ∧
        ({ role := role, parts := some ps } : Draft) = next := by
      simpa [Json.Shape.setMember, shape, Json.Field.of, cell] using hSet
    obtain ⟨vs, rfl⟩ : ∃ vs, v = .array vs := by
      cases v with
      | array vs => exact ⟨vs, rfl⟩
      | _ => cases hList
    refine ⟨_, .named "parts" (.array (alike_parts hList (hPlain vs rfl))), ?_⟩
    simpa [Draft.written] using
      (List.perm_append_singleton ("parts", Json.array (ps.map Part.toJson))
        (role.toList.map fun s => ("role", Json.string s))).symm

/-- What is written for a message is plain, in whatever order. -/
theorem isPlain_of_alike {v : Json} {m : Message} (h : Alike v m.toJson) : IsPlain v := by
  obtain ⟨ms, ns, rfl, hMembers, hPerm⟩ := h.members
  constructor
  · intro a ha
    obtain ⟨n, hn, hSame⟩ := Json.exists_of_forall₂ hMembers ha
    have hValue := hSame.value
    rw [hSame.name_eq]
    rcases List.mem_pair.mp (hPerm.mem_iff.mp hn) with rfl | rfl
    · exact .inl rfl
    · refine .inr ⟨rfl, fun parts hArray p hp => ?_⟩
      obtain ⟨vs, hItems, hParts⟩ := hValue.items
      cases hArray.symm.trans hItems
      obtain ⟨w, hw, hAlike⟩ := Json.exists_of_forall₂ hParts hp
      obtain ⟨q, -, rfl⟩ := List.mem_map.mp hw
      exact Part.isPlain_of_alike hAlike
  · have hParts : ("parts", Json.array (m.parts.map Part.toJson)) ∈ ns :=
      hPerm.mem_iff.mpr (List.mem_pair.mpr (.inr rfl))
    obtain ⟨a, ha, hSame⟩ := Json.exists_of_forall₂ hMembers.flip hParts
    exact ⟨a, ha, AlikeMember.name_eq hSame⟩

/-- A plain value is written as it was read. -/
theorem alike_of_isPlain {v : Json} {m : Message} (h : decode v = some m) (hPlain : IsPlain v) :
    Alike v m.toJson := by
  cases v with
  | object members =>
      obtain ⟨hNames, a, ha, hName⟩ := hPlain
      obtain ⟨final, hFold, hBuild⟩ := Json.Shape.decode_object.mp h
      obtain ⟨ns, hMembers, hPerm⟩ := Json.Shape.written_of_foldlM Draft.written
        (fun m hm {d next} hSet => written_of_setMember (hNames m hm) hSet) hFold
      rw [show shape.blank.written = [] from rfl, List.append_nil] at hPerm
      obtain ⟨n, hn, hSame⟩ := Json.exists_of_forall₂ hMembers ha
      rw [toJson_of_build hBuild ⟨n, hPerm.mem_iff.mp hn, hSame.name_eq.symm.trans hName⟩]
      exact .object hMembers hPerm
  | _ => cases hPlain

/-- A message that was written decodes to itself. -/
theorem decode_toJson (m : Message) : decode m.toJson = some m := by
  obtain ⟨role, parts⟩ := m
  have hParts := Part.restores.list.decode_write parts
  simp [decode, Json.Shape.decode, Json.Shape.setMember, shape, Json.Field.of, cell, toJson,
    Json.string?, hParts, Draft.build, Except.toOption]

theorem exact_toJson (m : Message) (depth : Nat) : Exact (depth + 3) m.toJson := by
  refine .object ?_
  simp only [List.forall_mem_cons, List.not_mem_nil, false_implies, implies_true, and_true]
  exact ⟨.string _, Part.restores.list.exact m.parts depth⟩

/-- Messages are restored from their records. -/
theorem restores : Restores 3 reader decode toJson := ⟨decodes, decode_toJson, exact_toJson⟩

end Message

end LintRepair
