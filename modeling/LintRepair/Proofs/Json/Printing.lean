import LintRepair.Proofs.Json.Escaping

/-! What the written forms of a value are made of. Everything but a string is written with plain
characters, and the compact form holds no control character, hence no line break. -/

namespace LintRepair.Json

open Decimal (Binary64)

/-- What may stand behind a value: nothing, a separator, a closing bracket or a new line. -/
def Closes (rest : List Char) : Prop := ∀ c ∈ rest.head?, c ∈ [',', ']', '\x7d', '\n']

theorem closes_nil : Closes [] := by simp [Closes]

theorem closes_cons {c : Char} {rest : List Char} : Closes (c :: rest) ↔ c ∈ [',', ']', '\x7d', '\n'] := by
  simp [Closes]

theorem closes_newline (depth : Nat) (rest : List Char) : Closes (newline depth ++ rest) :=
  closes_cons.mpr (by decide)

/-- Behind an item there stands a comma, or what closes the array. -/
theorem closes_prettyItems {rest : List Char} (hRest : Closes rest) (depth : Nat) (items : List Json) :
    Closes (prettyItems depth items ++ rest) := by
  cases items with
  | nil => exact hRest
  | cons v more => exact closes_cons.mpr (by decide)

theorem closes_prettyMembers {rest : List Char} (hRest : Closes rest) (depth : Nat)
    (members : List (String × Json)) : Closes (prettyMembers depth members ++ rest) := by
  cases members with
  | nil => exact hRest
  | cons m more => exact closes_cons.mpr (by decide)

/-- Digits need no escape. -/
theorem isPlain_of_isDigit {c : Char} (h : c.isDigit = true) : IsPlain c := by
  have hRange : 48 ≤ c.toNat ∧ c.toNat ≤ 57 := by
    simpa [Char.isDigit, UInt32.le_iff_toNat_le] using h
  refine ⟨?_, ?_, by omega⟩ <;> rintro rfl <;> simp at hRange

theorem isPlain_of_mem_toDigits {n : Nat} {c : Char} (h : c ∈ Nat.toDigits 10 n) : IsPlain c :=
  isPlain_of_isDigit (Nat.isDigit_of_mem_toDigits (by decide) (by decide) h)

/-- A whole number is printed in characters that need no escape. -/
theorem isPlain_of_mem_integer {i : Int} {c : Char} (h : c ∈ integer i) : IsPlain c := by
  unfold integer at h
  split at h
  · rcases List.mem_cons.mp h with rfl | h
    · decide
    · exact isPlain_of_mem_toDigits h
  · exact isPlain_of_mem_toDigits h

theorem mem_of_mem_stripZeros {ds : List Char} {c : Char} (h : c ∈ Decimal.stripZeros ds) : c ∈ ds := by
  have hMem := (List.dropWhile_sublist _).subset (List.mem_reverse.mp h)
  exact List.mem_reverse.mp hMem

/-- A floating-point number is written with digits, a point, a sign and the
letter of the exponent, in each of its three notations. -/
theorem isPlain_of_mem_floatText {m : Binary64} {c : Char} (h : c ∈ m.text) : IsPlain c := by
  have hDigits : ∀ d ∈ Decimal.stripZeros (Nat.toDigits 10 m.shortest.1), IsPlain d :=
    fun d hd => isPlain_of_mem_toDigits (mem_of_mem_stripZeros hd)
  unfold Binary64.text at h
  by_cases hZero : m.isZero = true
  · rw [if_pos hZero] at h
    simp only [List.mem_cons, List.not_mem_nil, or_false] at h
    rcases h with rfl | rfl | rfl <;> decide
  rw [if_neg hZero] at h
  dsimp only at h
  -- The point stands among the digits, in front of them, or there is an exponent.
  split at h
  · simp only [List.mem_append, List.mem_cons] at h
    rcases h with (h | h) | rfl | h
    · exact hDigits c (List.mem_of_mem_take h)
    · rw [List.eq_of_mem_replicate h]
      decide
    · decide
    · split at h
      · rw [List.mem_singleton.mp h]
        decide
      · exact hDigits c (List.mem_of_mem_drop h)
  · split at h
    · simp only [List.mem_append, List.mem_cons, List.not_mem_nil, or_false] at h
      rcases h with ((rfl | rfl) | h) | h
      · decide
      · decide
      · rw [List.eq_of_mem_replicate h]
        decide
      · exact hDigits c h
    · simp only [List.mem_append, List.mem_cons] at h
      rcases h with (h | h) | rfl | h | h
      · exact hDigits c (List.mem_of_mem_take h)
      · split at h
        · exact absurd h List.not_mem_nil
        · rcases List.mem_cons.mp h with rfl | h
          · decide
          · exact hDigits c (List.mem_of_mem_drop h)
      · decide
      · rw [h]
        split <;> decide
      · exact isPlain_of_mem_toDigits h

/-- The text of a value that is neither a string nor composed of others. -/
theorem isPlain_of_mem_scalar {v : Json} (hNotString : ∀ s, v ≠ .string s) {c : Char}
    (h : c ∈ v.scalar) : IsPlain c := by
  cases v with
  | null =>
      simp only [scalar, List.mem_cons, List.not_mem_nil, or_false] at h
      rcases h with rfl | rfl | rfl | rfl <;> decide
  | bool b =>
      cases b with
      | false =>
          simp only [scalar, List.mem_cons, List.not_mem_nil, or_false] at h
          rcases h with rfl | rfl | rfl | rfl | rfl <;> decide
      | true =>
          simp only [scalar, List.mem_cons, List.not_mem_nil, or_false] at h
          rcases h with rfl | rfl | rfl | rfl <;> decide
  | int i => exact isPlain_of_mem_integer h
  | float negative m =>
      simp only [scalar] at h
      split at h
      · rcases List.mem_cons.mp h with rfl | h
        · decide
        · exact isPlain_of_mem_floatText h
      · exact isPlain_of_mem_floatText h
  | string s => exact absurd rfl (hNotString s)
  | array items => exact absurd h List.not_mem_nil
  | object members => exact absurd h List.not_mem_nil

/-- A written string holds no control character. -/
theorem le_toNat_of_mem_quote {s : String} {c : Char} (h : c ∈ quote s) : 0x20 ≤ c.toNat := by
  simp only [quote_eq, List.cons_append, List.mem_cons, List.mem_append, List.not_mem_nil, or_false] at h
  rcases h with rfl | h | rfl
  · decide
  · exact le_toNat_of_mem_escaped h
  · decide

/-- No control character is left in a printed scalar. -/
theorem le_toNat_of_mem_scalar {v : Json} {c : Char} (h : c ∈ v.scalar) : 0x20 ≤ c.toNat := by
  by_cases hString : ∃ s, v = .string s
  · obtain ⟨s, rfl⟩ := hString
    exact le_toNat_of_mem_quote h
  · exact (isPlain_of_mem_scalar (not_exists.mp hString) h).2.2

mutual

/-- The compact form is a single line without controls, whatever the strings
inside the value hold. -/
theorem le_toNat_of_mem_compact {c : Char} : (v : Json) → c ∈ v.compact → 0x20 ≤ c.toNat
  | .array items, h => by
      simp only [compact, List.cons_append, List.mem_cons, List.mem_append, List.not_mem_nil,
        or_false] at h
      rcases h with rfl | h | rfl
      · decide
      · exact le_toNat_of_mem_compactItems items h
      · decide
  | .object members, h => by
      simp only [compact, List.cons_append, List.mem_cons, List.mem_append, List.not_mem_nil,
        or_false] at h
      rcases h with rfl | h | rfl
      · decide
      · exact le_toNat_of_mem_compactMembers members h
      · decide
  | .null, h => le_toNat_of_mem_scalar (v := .null) h
  | .bool b, h => le_toNat_of_mem_scalar (v := .bool b) h
  | .int i, h => le_toNat_of_mem_scalar (v := .int i) h
  | .float negative m, h => le_toNat_of_mem_scalar (v := .float negative m) h
  | .string s, h => le_toNat_of_mem_scalar (v := .string s) h

/-- The induction over values has to go through items and members as well. -/
theorem le_toNat_of_mem_compactItems {c : Char} :
    (items : List Json) → c ∈ compactItems items → 0x20 ≤ c.toNat
  | [], h => absurd h List.not_mem_nil
  | [v], h => le_toNat_of_mem_compact v h
  | v :: w :: rest, h => by
      simp only [compactItems, List.mem_append, List.mem_cons] at h
      rcases h with h | rfl | h
      · exact le_toNat_of_mem_compact v h
      · decide
      · exact le_toNat_of_mem_compactItems (w :: rest) h

theorem le_toNat_of_mem_compactMembers {c : Char} :
    (members : List (String × Json)) → c ∈ compactMembers members → 0x20 ≤ c.toNat
  | [], h => absurd h List.not_mem_nil
  | [(name, v)], h => by
      simp only [compactMembers, List.mem_append, List.mem_cons] at h
      rcases h with h | rfl | h
      · exact le_toNat_of_mem_quote h
      · decide
      · exact le_toNat_of_mem_compact v h
  | (name, v) :: w :: rest, h => by
      simp only [compactMembers, List.mem_append, List.mem_cons] at h
      rcases h with (h | rfl | h) | rfl | h
      · exact le_toNat_of_mem_quote h
      · decide
      · exact le_toNat_of_mem_compact v h
      · decide
      · exact le_toNat_of_mem_compactMembers (w :: rest) h

end

end LintRepair.Json
