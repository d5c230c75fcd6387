import LintRepair.Proofs.Json.Decoding
import Mathlib.Data.List.Forall2
import Mathlib.Data.List.Nodup

/-! Values that differ in the order of members alone. A record that is read from an object and written
again is such a value, unless the object has members that the record does not know. -/

namespace LintRepair.Json

mutual

/-- The same value, with the members of its objects in any order. -/
inductive Alike : Json → Json → Prop where
  | same (v : Json) : Alike v v
  | array {vs ws : List Json} (items : List.Forall₂ Alike vs ws) : Alike (.array vs) (.array ws)
  | object {ms ns ls : List (String × Json)} (members : List.Forall₂ AlikeMember ms ns)
      (order : ns.Perm ls) : Alike (.object ms) (.object ls)

/-- The same name with the same value. -/
inductive AlikeMember : String × Json → String × Json → Prop where
  | named (name : String) {v w : Json} (alike : Alike v w) : AlikeMember (name, v) (name, w)

end

theorem Alike.string {v : Json} {s : String} (h : Alike v (.string s)) : v = .string s := by
  cases h
  rfl

theorem Alike.bool {v : Json} {b : Bool} (h : Alike v (.bool b)) : v = .bool b := by
  cases h
  rfl

theorem Alike.int {v : Json} {i : Int} (h : Alike v (.int i)) : v = .int i := by
  cases h
  rfl

/-- What is like an array is an array of like items. -/
theorem Alike.items {v : Json} {ws : List Json} (h : Alike v (.array ws)) :
    ∃ vs, v = .array vs ∧ List.Forall₂ Alike vs ws := by
  cases h with
  | same => exact ⟨ws, rfl, List.forall₂_same.mpr fun w _ => .same w⟩
  | array items => exact ⟨_, rfl, items⟩

/-- What is like an object is an object, with its like members in any order. -/
theorem Alike.members {v : Json} {ls : List (String × Json)} (h : Alike v (.object ls)) :
    ∃ ms ns, v = .object ms ∧ List.Forall₂ AlikeMember ms ns ∧ ns.Perm ls := by
  cases h with
  | same => exact ⟨ls, ls, rfl, List.forall₂_same.mpr fun m _ => .named m.1 (.same m.2), .refl ls⟩
  | object members order => exact ⟨_, _, rfl, members, order⟩

theorem AlikeMember.name_eq {m n : String × Json} (h : AlikeMember m n) : m.1 = n.1 := by
  cases h
  rfl

theorem AlikeMember.value {m n : String × Json} (h : AlikeMember m n) : Alike m.2 n.2 := by
  cases h with
  | named name alike => exact alike

/-- Nothing on the left is without its partner. -/
theorem exists_of_forall₂ {α β : Type} {R : α → β → Prop} {as : List α} {bs : List β}
    (h : List.Forall₂ R as bs) {a : α} (ha : a ∈ as) : ∃ b ∈ bs, R a b := by
  induction h with
  | nil => cases ha
  | cons hHead _ ih =>
      rcases List.mem_cons.mp ha with rfl | ha
      · exact ⟨_, List.mem_cons_self, hHead⟩
      · obtain ⟨b, hb, hPartner⟩ := ih ha
        exact ⟨b, List.mem_cons_of_mem _ hb, hPartner⟩

/-! ### Objects without repeated names -/

/-- Where no name occurs twice a member is known by its name. -/
theorem eq_of_name_eq {members : List (String × Json)} (hNames : (members.map Prod.fst).Nodup)
    {m n : String × Json} (hm : m ∈ members) (hn : n ∈ members) (h : m.1 = n.1) : m = n :=
  List.inj_on_of_nodup_map hNames hm hn h

/-- Members of one object are known by their names. -/
theorem eq_of_names_eq {members ms ns : List (String × Json)}
    (hNames : (members.map Prod.fst).Nodup) (hm : ms ⊆ members) (hn : ns ⊆ members)
    (h : ms.map Prod.fst = ns.map Prod.fst) : ms = ns := by
  induction ms generalizing ns with
  | nil => exact (List.map_eq_nil_iff.mp h.symm).symm
  | cons m ms ih =>
      cases ns with
      | nil => cases h
      | cons n ns =>
          rw [List.map_cons, List.map_cons, List.cons.injEq] at h
          rw [List.cons_subset] at hm hn
          rw [eq_of_name_eq hNames hm.1 hn.1 h.1, ih hm.2 hn.2 h.2]

/-- Members of the same name are alike. -/
theorem Alike.member {ms ls : List (String × Json)} (h : Alike (.object ms) (.object ls))
    (hNames : (ls.map Prod.fst).Nodup) {name : String} {v w : Json} (hv : (name, v) ∈ ms)
    (hw : (name, w) ∈ ls) : Alike v w := by
  obtain ⟨ms, ns, hSame, hMembers, hOrder⟩ := h.members
  cases hSame
  obtain ⟨n, hn, hAlike⟩ := exists_of_forall₂ hMembers hv
  obtain rfl := eq_of_name_eq hNames (hOrder.subset hn) hw hAlike.name_eq.symm
  exact hAlike.value

/-- Where the names come in the same order, the members are alike one by one. -/
theorem Alike.aligned {ms ls : List (String × Json)} (h : Alike (.object ms) (.object ls))
    (names : List String) (hNames : names.Nodup) (hMs : ms.map Prod.fst = names)
    (hLs : ls.map Prod.fst = names) : List.Forall₂ AlikeMember ms ls := by
  obtain ⟨ms, ns, hSame, hMembers, hOrder⟩ := h.members
  cases hSame
  have hKept : ms.map Prod.fst = ns.map Prod.fst := by
    rw [← List.forall₂_eq_eq_eq, List.forall₂_map_left_iff, List.forall₂_map_right_iff]
    exact hMembers.imp fun _ _ => AlikeMember.name_eq
  rw [← hLs] at hNames
  rwa [← eq_of_names_eq hNames hOrder.subset (List.Subset.refl ls)
    (hKept.symm.trans (hMs.trans hLs.symm))]

/-! ### Things that are written -/

/-- Different things are never written alike. -/
def Faithful {α : Type} (toJson : α → Json) : Prop := ∀ {a b}, Alike (toJson a) (toJson b) → a = b

/-- Values that are written faithfully are alike only if they are the same. -/
theorem Faithful.alike_iff {α : Type} {toJson : α → Json} (h : Faithful toJson) {a b : α} :
    Alike (toJson a) (toJson b) ↔ a = b :=
  ⟨h, fun hSame => hSame ▸ .same _⟩

/-- A list of values that are written faithfully is written so too. -/
theorem Faithful.list {α : Type} {toJson : α → Json} (h : Faithful toJson) :
    Faithful fun as : List α => .array (as.map toJson) := by
  intro as bs hAlike
  obtain ⟨vs, hSame, hItems⟩ := hAlike.items
  cases hSame
  rw [List.forall₂_map_left_iff, List.forall₂_map_right_iff] at hItems
  rw [← List.forall₂_eq_eq_eq]
  exact hItems.imp fun _ _ => h

/-- Members of one name are alike as their values are. -/
@[simp] theorem alikeMember_iff {name : String} {v w : Json} :
    AlikeMember (name, v) (name, w) ↔ Alike v w :=
  ⟨AlikeMember.value, .named name⟩

@[simp] theorem alike_string_iff {x y : String} : Alike (.string x) (.string y) ↔ x = y :=
  ⟨fun h => Json.string.inj h.string, fun h => h ▸ .same _⟩

@[simp] theorem alike_bool_iff {a b : Bool} : Alike (.bool a) (.bool b) ↔ a = b :=
  ⟨fun h => Json.bool.inj h.bool, fun h => h ▸ .same _⟩

@[simp] theorem alike_count_iff {m n : UInt32} : Alike (.count m) (.count n) ↔ m = n := by
  refine ⟨fun h => ?_, fun h => h ▸ .same _⟩
  exact UInt32.toNat_inj.mp (Int.ofNat_inj.mp (Json.int.inj h.int))

@[simp] theorem alike_nat_iff {m n : Nat} : Alike (.nat m) (.nat n) ↔ m = n :=
  ⟨fun h => Int.ofNat_inj.mp (Json.int.inj h.int), fun h => h ▸ .same _⟩

/-! ### Values that decode -/

/-- Items that are decoded together are decoded one by one. -/
theorem forall₂_of_mapM {α β : Type} {f : α → Option β} {as : List α} {bs : List β}
    (h : as.mapM f = some bs) : List.Forall₂ (fun a b => f a = some b) as bs := by
  induction as generalizing bs with
  | nil =>
      cases h
      exact .nil
  | cons a as ih =>
      rw [List.mapM_cons] at h
      obtain ⟨b, hHead, h⟩ := Option.bind_eq_some_iff.mp h
      obtain ⟨more, hMore, h⟩ := Option.bind_eq_some_iff.mp h
      cases h
      exact .cons hHead (ih hMore)

/-- Members that put their like into what a state is written as stand there all, once
every one of them has been set. -/
theorem Shape.written_of_foldlM {σ α : Type} {shape : Shape σ α} {cell : String → σ → Json → Option σ}
    (written : σ → List (String × Json)) {members : List (String × Json)}
    (hStep : ∀ m ∈ members, ∀ {state next}, shape.setMember cell state m = some next →
      ∃ n, AlikeMember m n ∧ (n :: written state).Perm (written next))
    {state final : σ} (hFold : members.foldlM (shape.setMember cell) state = some final) :
    ∃ ns, List.Forall₂ AlikeMember members ns ∧ (ns ++ written state).Perm (written final) := by
  induction members generalizing state with
  | nil =>
      cases hFold
      exact ⟨[], .nil, .refl _⟩
  | cons m more ih =>
      rw [List.foldlM_cons, Option.bind_eq_bind, Option.bind_eq_some_iff] at hFold
      obtain ⟨next, hSet, hFold⟩ := hFold
      obtain ⟨n, hAlike, hPerm⟩ := hStep m List.mem_cons_self hSet
      obtain ⟨ns, hMembers, hRest⟩ := ih (fun n hn => hStep n (List.mem_cons_of_mem m hn)) hFold
      refine ⟨n :: ns, .cons hAlike hMembers, ?_⟩
      exact List.perm_middle.symm.trans ((hPerm.append_left ns).trans hRest)

end LintRepair.Json
