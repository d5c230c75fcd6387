import Mathlib.Data.List.Forall2
import LintRepair.Proofs.Json.Decoding

/-! Members of an object by their names. A record that is read from an object keeps each of its fields
by itself: only a member of that name sets it, and only once. So the order of members makes no
difference, and neither do members with other names. -/

namespace LintRepair.Json

def Lacks (name : String) (members : List (String × Json)) : Prop := ∀ m ∈ members, m.1 ≠ name

/-- One member alone has this name, wherever it stands, and it has this value. -/
inductive Holds (name : String) (v : Json) : List (String × Json) → Prop where
  | amid {before after : List (String × Json)} (front : Lacks name before) (back : Lacks name after) :
      Holds name v (before ++ (name, v) :: after)

instance (name : String) (members : List (String × Json)) : Decidable (Lacks name members) :=
  inferInstanceAs (Decidable (∀ m ∈ members, m.1 ≠ name))

theorem lacks_cons {name : String} {m : String × Json} {members : List (String × Json)} :
    Lacks name (m :: members) ↔ m.1 ≠ name ∧ Lacks name members :=
  List.forall_mem_cons

/-- A member of another name can be passed over. -/
theorem holds_cons_of_ne {name : String} {v : Json} {m : String × Json}
    {members : List (String × Json)} (h : m.1 ≠ name) :
    Holds name v (m :: members) ↔ Holds name v members := by
  constructor
  · intro hHolds
    generalize hWhole : m :: members = whole at hHolds
    obtain @⟨before, after, front, back⟩ := hHolds
    cases before with
    | nil =>
        cases hWhole
        exact absurd rfl h
    | cons first before =>
        cases hWhole
        exact .amid (lacks_cons.mp front).2 back
  · rintro ⟨front, back⟩
    exact .amid (lacks_cons.mpr ⟨h, front⟩) back

/-- A name that is held is held once. -/
theorem holds_cons_self {name : String} {v w : Json} {members : List (String × Json)} :
    Holds name v ((name, w) :: members) ↔ v = w ∧ Lacks name members := by
  constructor
  · intro hHolds
    generalize hWhole : (name, w) :: members = whole at hHolds
    obtain @⟨before, after, front, back⟩ := hHolds
    cases before with
    | nil =>
        cases hWhole
        exact ⟨rfl, back⟩
    | cons first before =>
        cases hWhole
        exact absurd rfl (front _ List.mem_cons_self)
  · rintro ⟨rfl, hLacks⟩
    exact .amid (List.forall_mem_nil _) hLacks

theorem Holds.mem {name : String} {v : Json} {members : List (String × Json)}
    (h : Holds name v members) : (name, v) ∈ members := by
  obtain ⟨front, back⟩ := h
  exact List.mem_append_right _ List.mem_cons_self

theorem filter_eq_nil_iff {name : String} {members : List (String × Json)} :
    (members.filter fun (n, _) => n == name) = [] ↔ Lacks name members := by
  simp [Lacks, List.filter_eq_nil_iff]

theorem member?_of_lacks {name : String} {members : List (String × Json)} (h : Lacks name members) :
    member? name members = some none := by
  rw [member?, filter_eq_nil_iff.mpr h]

/-- A name that is held is found with its value. -/
theorem member?_of_holds {name : String} {v : Json} {members : List (String × Json)}
    (h : Holds name v members) : member? name members = some (some v) := by
  obtain ⟨front, back⟩ := h
  simp [member?, filter_eq_nil_iff.mpr front, filter_eq_nil_iff.mpr back]

/-- A name is held with one value at most. -/
theorem Holds.unique {name : String} {v w : Json} {members : List (String × Json)}
    (h : Holds name v members) (h' : Holds name w members) : v = w := by
  have hSame := (member?_of_holds h).symm.trans (member?_of_holds h')
  exact Option.some.inj (Option.some.inj hSame)

theorem holds_of_filter {name : String} {m : String × Json} {members : List (String × Json)}
    (h : (members.filter fun (n, _) => n == name) = [m]) : Holds name m.2 members := by
  induction members with
  | nil => cases h
  | cons first members ih =>
      by_cases hName : first.1 = name
      · rw [List.filter_cons_of_pos (by simpa using hName)] at h
        obtain ⟨rfl, hNone⟩ := List.cons.inj h
        rw [← hName]
        exact holds_cons_self.mpr ⟨rfl, hName ▸ filter_eq_nil_iff.mp hNone⟩
      · rw [List.filter_cons_of_neg (by simpa using hName)] at h
        exact (holds_cons_of_ne hName).mpr (ih h)

theorem holds_of_member? {name : String} {v : Json} {members : List (String × Json)}
    (h : member? name members = some (some v)) : Holds name v members := by
  unfold member? at h
  split at h
  · cases h
  · rename_i hFilter
    cases h
    exact holds_of_filter hFilter
  · cases h

/-! ### Cells -/

theorem mapM_of_forall₂ {α β : Type} {f : α → Option β} {R : α → β → Prop}
    (hf : ∀ a b, R a b → f a = some b) {as : List α} {bs : List β} (h : List.Forall₂ R as bs) :
    as.mapM f = some bs := by
  induction h with
  | nil => rfl
  | cons hHead _ ih => simp [List.mapM_cons, hf _ _ hHead, ih]

theorem word32?_count (n : UInt32) : word32? (.count n) = some n := by
  have hFits := n.toNat_lt
  simp [count, word32?]
  omega

/-- Decoding a list fails with any of its items. -/
theorem mapM_eq_none {α β : Type} {f : α → Option β} {as : List α} {a : α} (ha : a ∈ as)
    (hf : f a = none) : as.mapM f = none := by
  obtain ⟨before, after, rfl⟩ := List.append_of_mem ha
  simp [List.mapM_append, List.mapM_cons, hf]

/-! ### Fields of a record -/

namespace Shape

variable {σ α β : Type}

/-- The field of this name is kept by itself: members of its name set it to what their value decodes
to, and members of other names leave it as it is. -/
structure Keeps (shape : Shape σ α) (cell : String → σ → Json → Option σ) (name : String)
    (get : σ → Option β) (decode : Json → Option β) : Prop where
  known : ∃ f ∈ shape.fields, f.name = name
  isSet : ∀ f ∈ shape.fields, f.name = name → ∀ state, f.isSet state = (get state).isSome
  set : ∀ state v, (cell name state v).map get = (decode v).map some
  keep : ∀ f ∈ shape.fields, f.name ≠ name → ∀ {state next : σ} {v : Json},
    cell f.name state v = some next → get next = get state

variable {shape : Shape σ α} {cell : String → σ → Json → Option σ}

/-- A member is passed over, or it sets the field of its name if that is not set yet. -/
theorem setMember_cases (state : σ) (m : String × Json) :
    ((∀ f ∈ shape.fields, f.name ≠ m.1) ∧ shape.setMember cell state m = some state) ∨
      ∃ f ∈ shape.fields, f.name = m.1 ∧ shape.setMember cell state m =
        if f.isSet state then none else cell m.1 state m.2 := by
  unfold setMember
  cases hFind : shape.fields.find? fun f => f.name.toList == m.1.toList with
  | none =>
      refine .inl ⟨fun f hf hName => ?_, rfl⟩
      exact List.find?_eq_none.mp hFind f hf (by simp [hName])
  | some f =>
      have hFound := List.find?_some hFind
      have hName : f.name = m.1 := String.toList_inj.mp (by simpa using hFound)
      exact .inr ⟨f, List.mem_of_find?_eq_some hFind, hName, by rw [← hName]⟩

variable {name : String} {get : σ → Option β} {decode : Json → Option β}

/-- Members of other names leave a field as it is. -/
theorem Keeps.of_ne (h : Keeps shape cell name get decode) {state next : σ} {m : String × Json}
    (hName : m.1 ≠ name) (hSet : shape.setMember cell state m = some next) : get next = get state := by
  rcases setMember_cases state m with ⟨-, hSame⟩ | ⟨f, hf, hField, hCell⟩
  · rw [hSame] at hSet
    cases hSet
    rfl
  · rw [hCell] at hSet
    split at hSet
    · cases hSet
    · rw [← hField] at hSet hName
      exact h.keep f hf hName hSet

/-- A member of its name sets a field to what it decodes to. -/
theorem Keeps.of_self (h : Keeps shape cell name get decode) {state next : σ} {v : Json}
    (hSet : shape.setMember cell state (name, v) = some next) :
    ∃ b, decode v = some b ∧ get next = some b := by
  rcases setMember_cases state (name, v) with ⟨hNone, -⟩ | ⟨f, hf, hField, hCell⟩
  · obtain ⟨f, hf, hName⟩ := h.known
    exact absurd hName (hNone f hf)
  · rw [hCell] at hSet
    split at hSet
    · cases hSet
    · have hValue := h.set state v
      rw [hSet, Option.map_some] at hValue
      obtain ⟨b, hDecode, hGet⟩ := Option.map_eq_some_iff.mp hValue.symm
      exact ⟨b, hDecode, hGet.symm⟩

theorem Keeps.of_lacks (h : Keeps shape cell name get decode) {members : List (String × Json)}
    (hLacks : Lacks name members) {state final : σ}
    (hFold : members.foldlM (shape.setMember cell) state = some final) : get final = get state := by
  induction members generalizing state with
  | nil =>
      cases hFold
      rfl
  | cons m members ih =>
      rw [List.foldlM_cons] at hFold
      obtain ⟨next, hStep, hFold⟩ := Option.bind_eq_some_iff.mp hFold
      obtain ⟨hName, hMore⟩ := lacks_cons.mp hLacks
      rw [ih hMore hFold, h.of_ne hName hStep]

/-- A member is what its field is set to in the end, and it decodes. -/
theorem Keeps.of_holds (h : Keeps shape cell name get decode) {members : List (String × Json)}
    {v : Json} (hHolds : Holds name v members) {state final : σ}
    (hFold : members.foldlM (shape.setMember cell) state = some final) :
    ∃ b, decode v = some b ∧ get final = some b := by
  obtain ⟨front, back⟩ := hHolds
  rw [List.foldlM_append] at hFold
  obtain ⟨mid, -, hFold⟩ := Option.bind_eq_some_iff.mp hFold
  rw [List.foldlM_cons] at hFold
  obtain ⟨next, hStep, hFold⟩ := Option.bind_eq_some_iff.mp hFold
  obtain ⟨b, hDecode, hGet⟩ := h.of_self hStep
  exact ⟨b, hDecode, (h.of_lacks back hFold).trans hGet⟩

/-- The field of this name can be read: there is no member for it, or one whose value decodes, and
then the field is not set yet. -/
inductive Ready (shape : Shape σ α) (cell : String → σ → Json → Option σ) (name : String) (state : σ)
    (members : List (String × Json)) : Prop where
  | lacks (lacks : Lacks name members)
  | holds {v : Json} (free : ∀ f ∈ shape.fields, f.name = name → f.isSet state = false)
      (holds : Holds name v members) (fits : ∀ state, (cell name state v).isSome = true)

/-- What the members give for the field of this name. -/
inductive Found (name : String) (decode : Json → Option β) (members : List (String × Json)) :
    Option β → Prop where
  | none (lacks : Lacks name members) : Found name decode members none
  | some {v : Json} {b : β} (holds : Holds name v members) (decodes : decode v = some b) :
      Found name decode members (some b)

theorem Found.unique {members : List (String × Json)} {found other : Option β}
    (h : Found name decode members found) (h' : Found name decode members other) : found = other := by
  cases h with
  | none lacks =>
      cases h' with
      | none => rfl
      | some holds => exact absurd rfl (lacks _ holds.mem)
  | some holds decodes =>
      cases h' with
      | none lacks => exact absurd rfl (lacks _ holds.mem)
      | some holds' decodes' =>
          rw [holds.unique holds'] at decodes
          exact decodes.symm.trans decodes'

theorem Keeps.ready (h : Keeps shape cell name get decode) {members : List (String × Json)}
    {found : Option β} (hFound : Found name decode members found) {state : σ}
    (hFree : get state = none) : Ready shape cell name state members := by
  cases hFound with
  | none lacks => exact .lacks lacks
  | @some v b holds decodes =>
      refine .holds (fun f hf hName => ?_) holds fun other => ?_
      · rw [h.isSet f hf hName, hFree]
        rfl
      · have hValue := h.set other v
        rw [decodes] at hValue
        obtain ⟨next, hCell, -⟩ := Option.map_eq_some_iff.mp hValue
        rw [hCell]
        rfl

/-- A field that is set has no members any more, since it may not be set twice. -/
theorem Keeps.lacks_of_set (h : Keeps shape cell name get decode) {members : List (String × Json)}
    {state final : σ} {b : β} (hSet : get state = some b)
    (hFold : members.foldlM (shape.setMember cell) state = some final) : Lacks name members := by
  induction members generalizing state with
  | nil => exact List.forall_mem_nil _
  | cons m members ih =>
      rw [List.foldlM_cons] at hFold
      obtain ⟨next, hStep, hFold⟩ := Option.bind_eq_some_iff.mp hFold
      have hName : m.1 ≠ name := by
        intro hName
        rcases setMember_cases state m with ⟨hNone, -⟩ | ⟨f, hf, hField, hCell⟩
        · obtain ⟨f, hf, hField⟩ := h.known
          exact hNone f hf (hField.trans hName.symm)
        · rw [hCell, h.isSet f hf (hField.trans hName), hSet] at hStep
          cases hStep
      exact lacks_cons.mpr ⟨hName, ih ((h.of_ne hName hStep).trans hSet) hFold⟩

/-- What a field is set to in the end is what the members give for it. -/
theorem Keeps.found_of_foldlM (h : Keeps shape cell name get decode)
    {members : List (String × Json)} {state final : σ} (hFree : get state = none)
    (hFold : members.foldlM (shape.setMember cell) state = some final) :
    Found name decode members (get final) := by
  induction members generalizing state with
  | nil =>
      cases hFold
      rw [hFree]
      exact .none (List.forall_mem_nil _)
  | cons m members ih =>
      rw [List.foldlM_cons] at hFold
      obtain ⟨next, hStep, hMore⟩ := Option.bind_eq_some_iff.mp hFold
      by_cases hName : m.1 = name
      · have hMember : m = (name, m.2) := Prod.ext hName rfl
        rw [hMember] at hStep ⊢
        obtain ⟨b, hDecode, hSet⟩ := h.of_self hStep
        have hLacks := h.lacks_of_set hSet hMore
        rw [h.of_lacks hLacks hMore, hSet]
        exact .some (holds_cons_self.mpr ⟨rfl, hLacks⟩) hDecode
      · have hFound := ih ((h.of_ne hName hStep).trans hFree) hMore
        generalize get final = found at hFound ⊢
        cases hFound with
        | none lacks => exact .none (lacks_cons.mpr ⟨hName, lacks⟩)
        | some holds decodes => exact .some ((holds_cons_of_ne hName).mpr holds) decodes

/-- A field that is not set before is set to what the members give for it. -/
theorem Keeps.get_eq (h : Keeps shape cell name get decode) {members : List (String × Json)}
    {found : Option β} (hFound : Found name decode members found) {state final : σ}
    (hFree : get state = none)
    (hFold : members.foldlM (shape.setMember cell) state = some final) : get final = found :=
  (h.found_of_foldlM hFree hFold).unique hFound

/-- What is left of the members is read like all of them were. -/
theorem Ready.step {state next : σ} {m : String × Json} {members : List (String × Json)}
    (h : Ready shape cell name state (m :: members)) (hName : m.1 ≠ name)
    (hFree : ∀ f ∈ shape.fields, f.name = name → f.isSet next = f.isSet state) :
    Ready shape cell name next members := by
  cases h with
  | lacks lacks => exact .lacks (lacks_cons.mp lacks).2
  | holds free holds fits =>
      exact .holds (fun f hf hField => (hFree f hf hField).trans (free f hf hField))
        ((holds_cons_of_ne hName).mp holds) fits

theorem exists_foldlM (hKeeps : ∀ f ∈ shape.fields, ∃ (β : Type) (get : σ → Option β)
      (decode : Json → Option β), Keeps shape cell f.name get decode)
    {members : List (String × Json)} {state : σ}
    (hReady : ∀ f ∈ shape.fields, Ready shape cell f.name state members) :
    ∃ final, members.foldlM (shape.setMember cell) state = some final := by
  induction members generalizing state with
  | nil => exact ⟨state, rfl⟩
  | cons m members ih =>
      obtain ⟨next, hStep, hNext⟩ : ∃ next, shape.setMember cell state m = some next ∧
          ∀ f ∈ shape.fields, Ready shape cell f.name next members := by
        rcases setMember_cases state m with ⟨hOther, hSame⟩ | ⟨f, hf, hName, hCell⟩
        · exact ⟨state, hSame, fun f hf => (hReady f hf).step (hOther f hf).symm fun _ _ _ => rfl⟩
        · obtain ⟨name, v⟩ := m
          cases hName
          cases hReady f hf with
          | lacks lacks => exact absurd rfl (lacks_cons.mp lacks).1
          | holds free holds fits =>
              obtain ⟨rfl, hMore⟩ := holds_cons_self.mp holds
              obtain ⟨next, hFits⟩ := Option.isSome_iff_exists.mp (fits state)
              rw [free f hf rfl] at hCell
              refine ⟨next, hCell.trans hFits, fun g hg => ?_⟩
              by_cases hSame : f.name = g.name
              · rw [← hSame]
                exact .lacks hMore
              · obtain ⟨β, get, decode, hGet⟩ := hKeeps g hg
                refine (hReady g hg).step hSame fun e he hName => ?_
                rw [hGet.isSet e he hName, hGet.isSet e he hName, hGet.keep f hf hSame hFits]
      obtain ⟨final, hFold⟩ := ih hNext
      exact ⟨final, by rw [List.foldlM_cons, hStep]; exact hFold⟩

/-- The members give something for the field of this name, or leave it out, and it is not set before. -/
inductive Given (shape : Shape σ α) (cell : String → σ → Json → Option σ)
    (members : List (String × Json)) (name : String) : Prop where
  | given {β : Type} {get : σ → Option β} {decode : Json → Option β} {found : Option β}
      (keeps : Keeps shape cell name get decode) (found : Found name decode members found)
      (blank : get shape.blank = none)

/-- An object whose members give every field can be read to its end, and the record is built from what
has been read. -/
theorem exists_decode {members : List (String × Json)}
    (h : ∀ f ∈ shape.fields, Given shape cell members f.name) :
    ∃ final, members.foldlM (shape.setMember cell) shape.blank = some final ∧
      shape.decode cell (.object members) = (shape.build final).toOption := by
  obtain ⟨final, hFold⟩ : ∃ final, members.foldlM (shape.setMember cell) shape.blank = some final := by
    refine exists_foldlM (fun f hf => ?_) fun f hf => ?_
    · obtain ⟨keeps, -, -⟩ := h f hf
      exact ⟨_, _, _, keeps⟩
    · obtain ⟨keeps, found, blank⟩ := h f hf
      exact keeps.ready found blank
  exact ⟨final, hFold, by rw [decode, hFold]; rfl⟩

/-- Where the members say what each field is, and there is no more to a draft than its fields, the
record of an object is built from the one draft that they give. -/
theorem decode_object_iff_of_found {members : List (String × Json)} {P : σ → Prop}
    (hFound : ∀ final, members.foldlM (shape.setMember cell) shape.blank = some final → P final)
    (hGiven : ∀ d, P d → ∀ f ∈ shape.fields, Given shape cell members f.name)
    (hUnique : ∀ d e, P d → P e → d = e) {a : α} :
    shape.decode cell (.object members) = some a ↔ ∃ d, P d ∧ shape.build d = .ok a := by
  constructor
  · intro h
    obtain ⟨final, hFold, hBuild⟩ := decode_object.mp h
    exact ⟨final, hFound final hFold, hBuild⟩
  · rintro ⟨d, hd, hBuild⟩
    obtain ⟨final, hFold, hDecode⟩ := exists_decode (hGiven d hd)
    rw [hDecode, hUnique final d (hFound final hFold) hd, hBuild]
    rfl

/-- What is wrong with a member: it is missing though the record needs it, or its value does not fit. -/
inductive Faulty (required : Bool) (name : String) (fits : Json → Prop)
    (members : List (String × Json)) : Prop where
  | missing (needed : required = true) (lacks : Lacks name members)
  | wrong {v : Json} (holds : Holds name v members) (unfit : ¬ fits v)

/-- One faulty member is enough for the record not to be read. -/
theorem Keeps.decode_of_faulty (h : Keeps shape cell name get decode) {required : Bool}
    {fits : Json → Prop} {members : List (String × Json)} (hFaulty : Faulty required name fits members)
    (hFits : ∀ v b, decode v = some b → fits v) (hBlank : get shape.blank = none)
    (hRequired : required = true → ∀ final a, get final = none → shape.build final ≠ .ok a) :
    shape.decode cell (.object members) = none := by
  refine Option.eq_none_iff_forall_ne_some.mpr fun a hDecode => ?_
  obtain ⟨final, hFold, hBuild⟩ := decode_object.mp hDecode
  cases hFaulty with
  | missing needed lacks =>
      exact hRequired needed final a ((h.of_lacks lacks hFold).trans hBlank) hBuild
  | wrong holds unfit =>
      obtain ⟨b, hValue, -⟩ := h.of_holds holds hFold
      exact unfit (hFits _ b hValue)

end Shape

end LintRepair.Json
