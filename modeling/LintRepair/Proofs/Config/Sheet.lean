import LintRepair.Proofs.Json.Documents
import LintRepair.Proofs.Json.Members
import LintRepair.Proofs.Lint.Records

/-! What a configuration file says, whatever its format: members by name, and targets as rows of texts
by name, both in any order. A JSON text that says it is decoded to the configuration. -/

namespace LintRepair

/-! ### Members in any order -/

section Order

variable {α : Type} {name : String}

/-- Where one entry at most has a name, the order of the entries makes no difference to it. -/
theorem filter_of_perm {l l' : List (String × α)} (h : l.Perm l')
    (hOnce : (l'.filter (·.1 == name)).length ≤ 1) :
    l.filter (·.1 == name) = l'.filter (·.1 == name) := by
  have hFilter := h.filter (·.1 == name)
  generalize l'.filter (·.1 == name) = found at hFilter hOnce ⊢
  match found with
  | [] => exact hFilter.eq_nil
  | [_] => exact List.perm_singleton.mp hFilter
  | _ :: _ :: _ => simp at hOnce

theorem filter_map_value {β : Type} (f : α → β) (l : List (String × α)) :
    (l.map fun m => (m.1, f m.2)).filter (·.1 == name) =
      (l.filter (·.1 == name)).map fun m => (m.1, f m.2) := by
  rw [List.filter_map]
  rfl

/-- A look-up gives the first member of the name. -/
theorem lookup_eq_filter (l : List (String × α)) :
    l.lookup name = (l.filter (·.1 == name)).head?.map Prod.snd := by
  induction l with
  | nil => rfl
  | cons m l ih =>
      obtain ⟨key, a⟩ := m
      by_cases hKey : key = name
      · simp [hKey]
      · have hOther : (name == key) = false := by simpa using Ne.symm hKey
        rw [List.lookup_cons, hOther]
        simp [hKey, ih]

end Order

/-! ### What a file says -/

namespace Config

/-- What the values of a configuration file are; a number and a flag may be left out. -/
structure Contents where
  limit : Option UInt32
  parallel : Option Bool
  targets : List Target

/-- The value of a member: a number, a flag, or rows of texts by name. -/
inductive Datum where
  | count (n : UInt32)
  | truth (b : Bool)
  | rows (rows : List (List (String × String)))

/-- The members of a configuration file in their order. -/
abbrev Sheet := List (String × Datum)

def row (t : Target) : List (String × String) :=
  [("pattern", t.pattern), ("ecosystem", t.ecosystem.tag), ("check", t.check), ("fix", t.fix)]

namespace Contents

/-- The configuration with the defaults for what is left out. -/
def config (c : Contents) : Config :=
  ⟨c.limit.getD defaultMaxIterations, c.parallel.getD false, c.targets⟩

def members (c : Contents) (rows : List (List (String × String))) : Sheet :=
  (c.limit.map fun n => ("maxIterations", .count n)).toList ++
    (c.parallel.map fun b => ("parallel", .truth b)).toList ++ [("targets", .rows rows)]

end Contents

/-- The members of a sheet are those of the contents, and the texts of each row are those of its target,
both in any order. -/
inductive Arranges (c : Contents) : Sheet → Prop where
  | arranged {rows : List (List (String × String))} {sheet : Sheet}
      (targets : List.Forall₂ (fun r t => List.Perm r (row t)) rows c.targets)
      (members : List.Perm sheet (c.members rows)) : Arranges c sheet

theorem filter_members (c : Contents) (rows : List (List (String × String))) :
    (c.members rows).filter (·.1 == "maxIterations") =
        (c.limit.map fun n => ("maxIterations", Datum.count n)).toList ∧
      (c.members rows).filter (·.1 == "parallel") =
        (c.parallel.map fun b => ("parallel", Datum.truth b)).toList ∧
      (c.members rows).filter (·.1 == "targets") = [("targets", .rows rows)] := by
  obtain ⟨limit, parallel, targets⟩ := c
  cases limit <;> cases parallel <;> simp [Contents.members]

/-- No two members of a configuration have one name. -/
theorem nodup_members (c : Contents) (rows : List (List (String × String))) :
    ((c.members rows).map Prod.fst).Nodup := by
  obtain ⟨limit, parallel, targets⟩ := c
  cases limit <;> cases parallel <;> simp [Contents.members]

theorem name_of_members {c : Contents} {rows : List (List (String × String))} {m : String × Datum}
    (h : m ∈ c.members rows) : m.1 ∈ ["maxIterations", "parallel", "targets"] := by
  obtain ⟨limit, parallel, targets⟩ := c
  cases limit <;> cases parallel <;> simp [Contents.members] at h ⊢ <;> grind

/-- The rows of the targets are the only ones. -/
theorem rows_of_members {c : Contents} {rows rs : List (List (String × String))} {name : String}
    (h : (name, .rows rs) ∈ c.members rows) : rs = rows := by
  obtain ⟨limit, parallel, targets⟩ := c
  cases limit <;> cases parallel <;> simp_all [Contents.members]

theorem nodup_row (t : Target) : ((row t).map Prod.fst).Nodup := by
  simp [row]

/-- A row has one text of each name. -/
theorem filter_row (t : Target) {name text : String} (h : (name, text) ∈ row t) :
    (row t).filter (·.1 == name) = [(name, text)] := by
  simp only [row, List.mem_cons, Prod.mk.injEq, List.not_mem_nil, or_false] at h
  rcases h with ⟨rfl, rfl⟩ | ⟨rfl, rfl⟩ | ⟨rfl, rfl⟩ | ⟨rfl, rfl⟩ <;> rfl

/-- Each name has its one text in a row, wherever it stands. -/
theorem filter_of_row {r : List (String × String)} {t : Target} (h : r.Perm (row t))
    {name text : String} (hText : (name, text) ∈ row t) :
    r.filter (·.1 == name) = [(name, text)] := by
  have hRow := filter_row t hText
  rw [filter_of_perm h (by rw [hRow]; exact Nat.le_refl 1), hRow]

/-- What an arranged sheet has under each of the names. -/
structure Says (c : Contents) (rows : List (List (String × String))) (sheet : Sheet) : Prop where
  limit : sheet.filter (·.1 == "maxIterations") =
    (c.limit.map fun n => ("maxIterations", Datum.count n)).toList
  parallel : sheet.filter (·.1 == "parallel") =
    (c.parallel.map fun b => ("parallel", Datum.truth b)).toList
  targets : sheet.filter (·.1 == "targets") = [("targets", .rows rows)]

/-- What the members say does not hang on their order. -/
theorem says_of_perm {c : Contents} {rows : List (List (String × String))} {sheet : Sheet}
    (h : sheet.Perm (c.members rows)) : Says c rows sheet := by
  obtain ⟨hLimit, hParallel, hTargets⟩ := filter_members c rows
  refine ⟨?_, ?_, ?_⟩
  · rw [filter_of_perm h (by rw [hLimit]; cases c.limit <;> simp), hLimit]
  · rw [filter_of_perm h (by rw [hParallel]; cases c.parallel <;> simp), hParallel]
  · rw [filter_of_perm h (by rw [hTargets]; simp), hTargets]

/-! ### As JSON -/

def Datum.toJson : Datum → Json
  | .count n => .count n
  | .truth b => .bool b
  | .rows rs => .array (rs.map fun r => .object (r.map fun m => (m.1, .string m.2)))

/-- A JSON text that has just the members of a sheet, in its order. -/
def Sheet.WritesJson (sheet : Sheet) (text : List Char) : Prop :=
  Json.WritesText text (.object (sheet.map fun m => (m.1, m.2.toJson)))

end Config

open Json.Shape (Found Given exists_decode)

section Members

variable {α β : Type} {f : α → Json} {decode : Json → Option β} {name : String}
  {l : List (String × α)}

theorem found_of_entry {a : α} {b : β} (h : l.filter (·.1 == name) = [(name, a)])
    (hDecode : decode (f a) = some b) : Found name decode (l.map fun m => (m.1, f m.2)) (some b) := by
  refine .some (Json.holds_of_filter (m := (name, f a)) ?_) hDecode
  rw [filter_map_value, h]
  rfl

/-- An entry that may be left out gives for its field what it holds. -/
theorem found_of_optional {g : β → α} {v : Option β}
    (h : l.filter (·.1 == name) = (v.map fun b => (name, g b)).toList)
    (hDecode : ∀ b, decode (f (g b)) = some b) :
    Found name decode (l.map fun m => (m.1, f m.2)) v := by
  cases v with
  | some b => exact found_of_entry h (hDecode b)
  | none =>
      refine .none (Json.filter_eq_nil_iff.mp ?_)
      rw [filter_map_value, h]
      rfl

end Members

namespace Target

theorem keeps : shape.Keeps cell "pattern" Draft.pattern Json.string? ∧
    shape.Keeps cell "ecosystem" Draft.ecosystem (Json.variant? Ecosystem.tags) ∧
    shape.Keeps cell "check" Draft.check Json.string? ∧
    shape.Keeps cell "fix" Draft.fix Json.string? := by
  refine ⟨?_, ?_, ?_, ?_⟩
  all_goals
    refine ⟨by simp [shape, Json.Field.of], by simp [shape, Json.Field.of], fun state v => ?_, ?_⟩
    · simp [cell, Option.map_map, Function.comp_def]
    · intro f hf hName state next v hSet
      simp only [shape, List.mem_cons, List.not_mem_nil, or_false] at hf
      rcases hf with rfl | rfl | rfl | rfl
      all_goals first
        | exact absurd rfl hName
        | obtain ⟨b, -, rfl⟩ := Option.map_eq_some_iff.mp hSet
          rfl

/-- A row is decoded to its target, whatever the order of its texts. -/
theorem decode_of_row {t : Target} {r : List (String × String)} (h : r.Perm (Config.row t)) :
    decode (.object (r.map fun m => (m.1, .string m.2))) = some t := by
  obtain ⟨kPattern, kEcosystem, kCheck, kFix⟩ := keeps
  have hText {name text : String} (hName : (name, text) ∈ Config.row t) :
      Found name Json.string? (r.map fun m => (m.1, Json.string m.2)) (some text) :=
    found_of_entry (Config.filter_of_row h hName) rfl
  have hPattern := hText (.head _)
  have hCheck := hText (.tail _ (.tail _ (.head _)))
  have hFix := hText (.tail _ (.tail _ (.tail _ (.head _))))
  have hEcosystem : Found "ecosystem" (Json.variant? Ecosystem.tags)
      (r.map fun m => (m.1, Json.string m.2)) (some t.ecosystem) :=
    found_of_entry (Config.filter_of_row h (.tail _ (.head _))) (Ecosystem.variant?_toJson _)
  have hGiven : ∀ f ∈ shape.fields,
      Given shape cell (r.map fun m => (m.1, Json.string m.2)) f.name := by
    simp only [shape, List.forall_mem_cons]
    exact ⟨.given kPattern hPattern rfl, .given kEcosystem hEcosystem rfl, .given kCheck hCheck rfl,
      .given kFix hFix rfl, List.forall_mem_nil _⟩
  obtain ⟨final, hFold, hDecode⟩ := exists_decode hGiven
  have hFinal : final = ⟨some t.pattern, some t.ecosystem, some t.check, some t.fix⟩ := by
    cases final
    rw [Draft.mk.injEq]
    exact ⟨kPattern.get_eq hPattern rfl hFold, kEcosystem.get_eq hEcosystem rfl hFold,
      kCheck.get_eq hCheck rfl hFold, kFix.get_eq hFix rfl hFold⟩
  rw [decode, hDecode, hFinal]
  rfl

end Target

namespace Config

theorem keeps : shape.Keeps cell "maxIterations" Draft.maxIterations Json.word32? ∧
    shape.Keeps cell "parallel" Draft.parallel Json.bool? ∧
    shape.Keeps cell "targets" Draft.targets (Json.list? Target.decode) := by
  refine ⟨?_, ?_, ?_⟩
  all_goals
    refine ⟨by simp [shape, Json.Field.of], by simp [shape, Json.Field.of], fun state v => ?_, ?_⟩
    · simp [cell, Option.map_map, Function.comp_def]
    · intro f hf hName state next v hSet
      simp only [shape, List.mem_cons, List.not_mem_nil, or_false] at hf
      rcases hf with rfl | rfl | rfl
      all_goals first
        | exact absurd rfl hName
        | obtain ⟨b, -, rfl⟩ := Option.map_eq_some_iff.mp hSet
          rfl

/-- An object of the members of a configuration decodes to it, in whatever order they stand. -/
theorem ofJson?_of_members {c : Contents} {rows : List (List (String × String))} {sheet : Sheet}
    (hRows : List.Forall₂ (fun r t => List.Perm r (row t)) rows c.targets)
    (hSays : Says c rows sheet) :
    ofJson? (.object (sheet.map fun m => (m.1, m.2.toJson))) = some c.config := by
  obtain ⟨kLimit, kParallel, kTargets⟩ := keeps
  have hLimit : Found "maxIterations" Json.word32? (sheet.map fun m => (m.1, m.2.toJson)) c.limit :=
    found_of_optional hSays.limit fun n => by rw [Datum.toJson, Json.word32?_count]
  have hParallel : Found "parallel" Json.bool? (sheet.map fun m => (m.1, m.2.toJson)) c.parallel :=
    found_of_optional hSays.parallel fun _ => rfl
  have hTargets : Found "targets" (Json.list? Target.decode) (sheet.map fun m => (m.1, m.2.toJson))
      (some c.targets) := by
    refine found_of_entry hSays.targets ?_
    exact Json.mapM_of_forall₂ (fun v t h => h) (List.forall₂_map_left_iff.mpr
      (hRows.imp fun _ _ => Target.decode_of_row))
  have hGiven : ∀ f ∈ shape.fields,
      Given shape cell (sheet.map fun m => (m.1, m.2.toJson)) f.name := by
    simp only [shape, List.forall_mem_cons]
    exact ⟨.given kLimit hLimit rfl, .given kParallel hParallel rfl, .given kTargets hTargets rfl,
      List.forall_mem_nil _⟩
  obtain ⟨final, hFold, hDecode⟩ := exists_decode hGiven
  have hFinal : final = ⟨c.limit, c.parallel, some c.targets⟩ := by
    cases final
    rw [Draft.mk.injEq]
    exact ⟨kLimit.get_eq hLimit rfl hFold, kParallel.get_eq hParallel rfl hFold,
      kTargets.get_eq hTargets rfl hFold⟩
  rw [ofJson?, hDecode, hFinal]
  rfl

/-- A JSON text with these contents is read as their configuration. -/
theorem finish_of_writesJson {c : Contents} {sheet : Sheet} (h : Arranges c sheet) {text : List Char}
    (hText : sheet.WritesJson text) : Json.finish reader text = .ok c.config := by
  obtain ⟨targets, members⟩ := h
  exact (decodes.finish (Json.parse_eq_ok_iff.mpr hText) _).mpr
    (ofJson?_of_members targets (says_of_perm members))

end Config

end LintRepair
