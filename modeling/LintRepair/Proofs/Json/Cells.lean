import LintRepair.Proofs.Json.Roundtrip

/-! Readers of single values against what is read: whole numbers are taken if they lie between their
bounds, and a value that is not looked into is taken as it is. -/

namespace LintRepair.Json

/-- A whole number between two bounds. -/
def whole? (low high : Int) : Json → Option Int
  | .int i => if low ≤ i ∧ i ≤ high then some i else none
  | _ => none

theorem opensWith_sign_of_isDigit {v : Json} {c : Char} (hDigit : c.isDigit = true)
    (hOpens : v.opensWith c = true) : v.opensWith '-' = true := by
  cases v with
  | int | float => rfl
  | null | string | array | object =>
      obtain rfl := eq_of_beq hOpens
      cases hDigit
  | bool b =>
      rcases Bool.or_eq_true_iff.mp hOpens with hOpen | hOpen <;>
        (obtain rfl := eq_of_beq hOpen; cases hDigit)

/-- A number opens with its sign or with a digit, and no other value does. -/
theorem spells_number {depth : Nat} {s rest : List Char} {v : Json} (h : Spells depth s v rest)
    (hNumber : v.opensWith '-' = true) : ∃ c t, skipSpace s = c :: t ∧
      (c = '-' ∧ number true t = .ok (v, rest) ∨
        c ≠ '-' ∧ c.isDigit = true ∧ number false (c :: t) = .ok (v, rest)) := by
  cases h with
  | negative next isNumber => exact ⟨_, _, next, .inl ⟨rfl, isNumber⟩⟩
  | @positive _ _ c _ _ _ next isDigit isNumber =>
      refine ⟨_, _, next, .inr ⟨?_, isDigit, isNumber⟩⟩
      rintro rfl
      cases isDigit
  | _ => cases hNumber

/-- What is read at the next token, checked against the bounds. -/
theorem whole_eq (low high : Int) (expected : List Char) {s t : List Char} {c : Char}
    (h : skipSpace s = c :: t) : whole low high expected s =
      (if c = '-' then number true t
        else if c.isDigit then number false (c :: t) else wrongKind expected (c :: t)) >>= fun (v, r) =>
          match v with
          | .int i => if low ≤ i ∧ i ≤ high then .ok (i, r) else failAt (.wrongValue i expected) r
          | .float negative m => failAt (.wrongType (.float negative m) expected) r
          | _ => failAt .invalidNumber r := by
  simp only [whole, nextToken_of_skipSpace h, bind, Except.bind]
  by_cases hSign : c = '-'
  · subst hSign
    rfl
  · rw [if_neg hSign]
    split
    · rename_i hOpen
      exact absurd (List.cons.inj hOpen).1 hSign
    · rename_i hOpen
      cases hOpen
      cases c.isDigit <;> rfl
    · rename_i hOpen
      cases hOpen

/-- A reader of whole numbers takes those within its bounds and refuses every other value. -/
theorem decodes_whole (low high : Int) (expected : List Char) :
    Decodes (whole low high expected) (whole? low high) := by
  intro depth s rest v h
  cases hNumber : v.opensWith '-' with
  | true =>
      obtain ⟨c, t, hNext, hRead⟩ := spells_number h hNumber
      have hToken : (if c = '-' then number true t
          else if c.isDigit then number false (c :: t) else wrongKind expected (c :: t)) =
            .ok (v, rest) := by
        rcases hRead with ⟨rfl, hRead⟩ | ⟨hSign, hDigit, hRead⟩
        · exact hRead
        · rw [if_neg hSign, if_pos hDigit, hRead]
      rw [whole_eq low high expected hNext, hToken]
      cases v with
      | int i =>
          simp only [whole?, bind, Except.bind]
          split
          · exact gives_ok i rest
          · exact ⟨_, rfl⟩
      | _ => exact ⟨_, rfl⟩
  | false =>
      obtain ⟨c, t, hNext, hOpens⟩ := h.head
      have hDigit : ¬ c.isDigit = true := fun hDigit =>
        Bool.false_ne_true (hNumber.symm.trans (opensWith_sign_of_isDigit hDigit hOpens))
      obtain ⟨fault, hFault⟩ := wrongKind_error expected (c :: t)
      have hNone : whole? low high v = none := by
        cases v with
        | int => cases hNumber
        | _ => rfl
      rw [whole_eq low high expected hNext, if_neg (ne_of_opensWith hOpens hNumber), if_neg hDigit,
        hFault, hNone]
      exact ⟨fault, rfl⟩

theorem decodes_word32 : Decodes word32 word32? := by
  intro depth s rest v h
  have hMap := (decodes_whole 0 (UInt32.size - 1 : Nat) "u32".toList h).map fun i => UInt32.ofNat i.toNat
  have hSame : (whole? 0 (UInt32.size - 1 : Nat) v).map (fun i => UInt32.ofNat i.toNat) = word32? v := by
    cases v with
    | int i =>
        simp only [whole?, word32?]
        have hSize : UInt32.size = 4294967296 := rfl
        by_cases hFits : 0 ≤ i ∧ i < UInt32.size
        · rw [if_pos hFits, if_pos ⟨hFits.1, by omega⟩]
          rfl
        · rw [if_neg hFits, if_neg (by omega)]
          rfl
    | _ => rfl
  rw [← hSame]
  exact hMap

theorem decodes_signed64 :
    Decodes signed64 (whole? Int64.minValue.toInt Int64.maxValue.toInt) :=
  decodes_whole _ _ _

/-- A value is taken as it is. -/
theorem decodesAt_value (depth : Nat) : DecodesAt depth (value .read depth) some :=
  fun _ _ _ h => h.value_eq

/-! ### Values by what they decode to -/

theorem exists_eq_string_of_string? {v : Json} {s : String} (h : string? v = some s) :
    ∃ s, v = .string s :=
  ⟨s, string?_eq_some h⟩

/-- Only a count is read as a number of 32 bits. -/
theorem eq_count_of_word32? {v : Json} {n : UInt32} (h : word32? v = some n) : v = .count n := by
  cases v with
  | int i =>
      simp only [word32?] at h
      split at h
      · rename_i hFits
        cases h
        have hSize : UInt32.size = 2 ^ 32 := rfl
        have hValue : i.toNat % 2 ^ 32 = i.toNat := Nat.mod_eq_of_lt (by omega)
        rw [count, UInt32.toNat_ofNat', hValue, Int.toNat_of_nonneg hFits.1]
      · cases h
  | _ => cases h

theorem exists_int64_of_whole? {v : Json} {i : Int}
    (h : whole? Int64.minValue.toInt Int64.maxValue.toInt v = some i) :
    ∃ n : Int64, v = .int n.toInt := by
  cases v with
  | int j =>
      simp only [whole?] at h
      split at h
      · rename_i hFits
        have hLow : Int64.minValue.toInt = -2 ^ 63 := rfl
        have hHigh : Int64.maxValue.toInt = 2 ^ 63 - 1 := rfl
        exact ⟨Int64.ofInt j, by rw [Int64.toInt_ofInt_of_le (by omega) (by omega)]⟩
      · cases h
  | _ => cases h

/-- Every number of 64 bits is within the bounds that are read. -/
theorem whole?_int64 (i : Int64) :
    whole? Int64.minValue.toInt Int64.maxValue.toInt (.int i.toInt) = some i.toInt :=
  if_pos ⟨i.minValue_le_toInt, i.toInt_le⟩

/-- An optional value fits if it is left out or its item fits. -/
theorem optional?_fits {α : Type} {item : Json → Option α} {fits : Json → Prop}
    (hFits : ∀ v a, item v = some a → fits v) (v : Json) (a : Option α)
    (h : optional? item v = some a) : v = .null ∨ fits v := by
  by_cases hNull : v = .null
  · exact .inl hNull
  · rw [optional?_of_ne_null hNull] at h
    obtain ⟨b, hItem, -⟩ := Option.map_eq_some_iff.mp h
    exact .inr (hFits v b hItem)

end LintRepair.Json
