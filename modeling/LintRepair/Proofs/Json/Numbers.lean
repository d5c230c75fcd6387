import LintRepair.Proofs.Json.Printing
import LintRepair.Proofs.Json.Spelling

/-! Whole numbers that fit 64 bits are read back as they were written, whatever value or text comes
behind them. No other whole number is ever read: beyond the 64 bits numbers become doubles. -/

namespace LintRepair

namespace Decimal

theorem le_ofDigitChars (digits : List Char) (n : Nat) : n ≤ Nat.ofDigitChars 10 digits n := by
  induction digits generalizing n with
  | nil => exact Nat.le_refl n
  | cons c digits ih =>
      rw [Nat.ofDigitChars_cons]
      exact Nat.le_trans (by omega) (ih _)

/-- A numeral that stays within the limit is taken up in full. -/
theorem absorb_of_le {digits : List Char} {n : Nat}
    (h : Nat.ofDigitChars 10 digits n ≤ significandLimit) :
    absorb n digits = (Nat.ofDigitChars 10 digits n, []) := by
  induction digits generalizing n with
  | nil => rfl
  | cons c digits ih =>
      have hNext : Nat.ofDigitChars 10 (c :: digits) n =
          Nat.ofDigitChars 10 digits (n * 10 + digitValue c) := by
        rw [Nat.ofDigitChars_cons, Nat.mul_comm]
        rfl
      rw [hNext] at h ⊢
      rw [absorb, if_pos (Nat.le_trans (le_ofDigitChars digits _) h), ih h]

theorem absorb_le {n : Nat} (h : n ≤ significandLimit) (digits : List Char) :
    (absorb n digits).1 ≤ significandLimit := by
  induction digits generalizing n with
  | nil => exact h
  | cons c digits ih =>
      rw [absorb]
      split
      · rename_i hFits
        exact ih hFits
      · exact h

/-- Digits that were all absorbed give the number that they write. -/
theorem eq_ofDigitChars_of_absorb {digits : List Char} {n k : Nat} (h : absorb n digits = (k, [])) :
    k = Nat.ofDigitChars 10 digits n := by
  induction digits generalizing n with
  | nil =>
      cases h
      rfl
  | cons c digits ih =>
      rw [absorb] at h
      split at h
      · rw [ih h, Nat.ofDigitChars_cons, Nat.mul_comm]
        rfl
      · cases h

end Decimal

namespace Json

/-- The whole numbers that are read as such. -/
def IsWord (i : Int) : Prop := -(UInt64.size / 2 : Nat) ≤ i ∧ i < UInt64.size

/-- Numbers of 64 bits are read as such. -/
theorem isWord_nat {n : Nat} (h : n < UInt64.size) : IsWord n := by
  unfold IsWord
  omega

theorem isDigit_toDigits (n : Nat) : ∀ c ∈ Nat.toDigits 10 n, c.isDigit = true :=
  fun _ hc => Nat.isDigit_of_mem_toDigits (by decide) (by decide) hc

/-- A number that is written has no zero in front, unless it is zero. -/
theorem toDigits_eq_cons (n : Nat) :
    ∃ c ds, Nat.toDigits 10 n = c :: ds ∧ c.isDigit = true ∧ (c = '0' → ds = []) := by
  induction n using Nat.strongRecOn with
  | ind n ih =>
      by_cases hSmall : n < 10
      · refine ⟨n.digitChar, [], Nat.toDigits_of_lt_base hSmall, ?_, fun _ => rfl⟩
        exact Nat.isDigit_of_mem_toDigits (b := 10) (by decide) (by decide)
          (by rw [Nat.toDigits_of_lt_base hSmall]; exact List.mem_singleton_self _)
      · obtain ⟨c, ds, hDigits, hDigit, hZero⟩ := ih (n / 10) (by omega)
        refine ⟨c, ds ++ [(n % 10).digitChar], ?_, hDigit, fun hc => ?_⟩
        · rw [Nat.toDigits_eq_if (by decide), if_neg hSmall, hDigits, List.cons_append]
        · -- A leading zero would be all of the number before its last digit.
          obtain rfl := hZero hc
          have hValue := congrArg (Nat.ofDigitChars 10 · 0) hDigits
          simp only [Nat.ofDigitChars_ten_toDigits, hc] at hValue
          have hNone : n / 10 = 0 := hValue.trans (by decide)
          omega

theorem toNat_of_isDigit {c : Char} (h : c.isDigit = true) : 48 ≤ c.toNat ∧ c.toNat ≤ 57 := by
  simpa [Char.isDigit, Char.le_def, UInt32.le_iff_toNat_le] using h

theorem exists_digitChar {c : Char} (h : c.isDigit = true) :
    ∃ d < 10, c = d.digitChar ∧ c.toNat - '0'.toNat = d := by
  obtain ⟨hLow, hHigh⟩ := toNat_of_isDigit h
  refine ⟨c.toNat - 48, by omega, ?_, rfl⟩
  have hAll : ∀ d < 10, (Char.ofNat (48 + d)) = d.digitChar := by decide
  rw [← hAll _ (by omega), Nat.add_sub_cancel' hLow, Char.ofNat_toNat]

/-- Digits behind a number that is not zero are the last digits of a greater one. -/
theorem toDigits_ofDigitChars_of_pos {n : Nat} (hPos : 0 < n) {ds : List Char}
    (h : ∀ c ∈ ds, c.isDigit = true) :
    Nat.toDigits 10 (Nat.ofDigitChars 10 ds n) = Nat.toDigits 10 n ++ ds := by
  induction ds generalizing n with
  | nil => rw [Nat.ofDigitChars_nil, List.append_nil]
  | cons c ds ih =>
      obtain ⟨d, hSmall, hChar, hValue⟩ := exists_digitChar (h c List.mem_cons_self)
      rw [Nat.ofDigitChars_cons, hValue, ih (by omega) fun e he => h e (List.mem_cons_of_mem c he),
        ← Nat.toDigits_append_toDigits (by decide) hPos hSmall, Nat.toDigits_of_lt_base hSmall, hChar,
        List.append_assoc, List.singleton_append]

/-- Digits without a zero in front are those of the number they write. -/
theorem toDigits_ofDigitChars {ds : List Char} (hSome : ds ≠ []) (h : ∀ c ∈ ds, c.isDigit = true)
    (hZero : ∀ more, ds = '0' :: more → more = []) :
    Nat.toDigits 10 (Nat.ofDigitChars 10 ds 0) = ds := by
  cases ds with
  | nil => exact absurd rfl hSome
  | cons c ds =>
      obtain ⟨d, hSmall, hChar, hValue⟩ := exists_digitChar (h c List.mem_cons_self)
      rw [Nat.ofDigitChars_cons, hValue, Nat.mul_zero, Nat.zero_add]
      by_cases hd : d = 0
      · subst hd
        subst hChar
        rw [hZero ds rfl]
        rfl
      · rw [toDigits_ofDigitChars_of_pos (by omega) fun e he => h e (List.mem_cons_of_mem c he),
          Nat.toDigits_of_lt_base hSmall, hChar, List.singleton_append]

/-- No number goes on here. -/
def EndsNumber (rest : List Char) : Prop :=
  ∀ c ∈ rest.head?, c.isDigit = false ∧ c ≠ '.' ∧ c ≠ 'e' ∧ c ≠ 'E'

theorem Closes.endsNumber {rest : List Char} (h : Closes rest) : EndsNumber rest := by
  intro c hc
  have hClose := h c hc
  simp only [List.mem_cons, List.not_mem_nil, or_false] at hClose
  rcases hClose with rfl | rfl | rfl | rfl <;> decide

theorem takeWhile_isDigit_append {ds rest : List Char} (h : ∀ c ∈ ds, c.isDigit = true)
    (hRest : ∀ c ∈ rest.head?, c.isDigit = false) :
    (ds ++ rest).takeWhile Char.isDigit = ds := by
  rw [List.takeWhile_append_of_pos h]
  cases rest with
  | nil => simp
  | cons c rest => simp [hRest c rfl]

theorem exponentPart_of_endsNumber (mode : Mode) {rest : List Char} (h : EndsNumber rest) :
    exponentPart mode rest = .ok (none, rest) := by
  cases rest with
  | nil => rfl
  | cons c rest =>
      obtain ⟨-, -, hLower, hUpper⟩ := h c rfl
      simp [exponentPart, hLower, hUpper]

/-- The digits of a number are a numeral of their own wherever a value may end. -/
theorem numeral_toDigits (mode : Mode) (n : Nat) {rest : List Char} (h : EndsNumber rest) :
    numeral mode (Nat.toDigits 10 n ++ rest) = .ok (⟨Nat.toDigits 10 n, [], false, none⟩, rest) := by
  have hWhole : (Nat.toDigits 10 n ++ rest).takeWhile Char.isDigit = Nat.toDigits 10 n :=
    takeWhile_isDigit_append (fun c hc => Nat.isDigit_of_mem_toDigits (by decide) (by decide) hc)
      fun c hc => (h c hc).1
  have hPoint : ∀ t, rest ≠ '.' :: t := by
    rintro t rfl
    exact (h '.' rfl).2.1 rfl
  obtain ⟨c, ds, hDigits, -, hZero⟩ := toDigits_eq_cons n
  unfold numeral
  dsimp only
  rw [hWhole, List.drop_left, hDigits]
  split
  · rename_i hNone
    cases hNone
  · rename_i hLeading
    cases hLeading
    cases hZero rfl
  · split
    · rename_i t
      exact absurd rfl (hPoint t)
    · rw [exponentPart_of_endsNumber mode h]
      rfl

/-- A number of 64 bits is read back from its decimal digits. -/
theorem number_toDigits {n : Nat} (hFits : n < UInt64.size) {rest : List Char} (h : EndsNumber rest) :
    number false (Nat.toDigits 10 n ++ rest) = .ok (.int n, rest) := by
  have hAbsorb : Decimal.absorb 0 (Nat.toDigits 10 n) = (n, []) := by
    have hValue := Nat.ofDigitChars_ten_toDigits (n := n)
    rw [Decimal.absorb_of_le (by rw [hValue]; exact Nat.le_sub_one_of_lt hFits), hValue]
  rw [number, numeral_toDigits .read n h]
  simp [Numeral.value, hAbsorb, bind, Except.bind, pure, Except.pure]

/-- Behind a sign the number has to be from one to `2 ^ 63`. -/
theorem number_negative_toDigits {n : Nat} (hPos : 1 ≤ n) (hFits : n ≤ UInt64.size / 2)
    {rest : List Char} (h : EndsNumber rest) :
    number true (Nat.toDigits 10 n ++ rest) = .ok (.int (-n), rest) := by
  have hAbsorb : Decimal.absorb 0 (Nat.toDigits 10 n) = (n, []) := by
    have hValue := Nat.ofDigitChars_ten_toDigits (n := n)
    have hLimit : n ≤ Decimal.significandLimit := Nat.le_trans hFits (by decide)
    rw [Decimal.absorb_of_le (by rw [hValue]; exact hLimit), hValue]
  rw [number, numeral_toDigits .read n h]
  simp [Numeral.value, hAbsorb, hPos, hFits, bind, Except.bind, pure, Except.pure]

theorem isSpace_of_isDigit {c : Char} (h : c.isDigit = true) : isSpace c = false := by
  cases hSpace : isSpace c with
  | false => rfl
  | true =>
      simp only [isSpace, Bool.or_eq_true, beq_iff_eq] at hSpace
      rcases hSpace with ((rfl | rfl) | rfl) | rfl <;> cases h

/-- A whole number that fits is spelled where it is written. -/
theorem spells_integer {i : Int} (hWord : IsWord i) (depth : Nat) {rest : List Char}
    (h : EndsNumber rest) : Spells depth (integer i ++ rest) (.int i) rest := by
  obtain ⟨hLow, hHigh⟩ := hWord
  unfold integer
  split
  · rename_i hNegative
    have hNumber := number_negative_toDigits (n := i.natAbs) (by omega) (by omega) h
    rw [show (-(i.natAbs : Int)) = i by omega] at hNumber
    exact .negative (skipSpace_of_head (by decide) _) hNumber
  · rename_i hNegative
    have hNumber := number_toDigits (n := i.natAbs) (by omega) h
    rw [show (i.natAbs : Int) = i by omega] at hNumber
    obtain ⟨c, ds, hDigits, hDigit, -⟩ := toDigits_eq_cons i.natAbs
    rw [hDigits, List.cons_append] at hNumber ⊢
    exact .positive (skipSpace_of_head (isSpace_of_isDigit hDigit) _) hDigit hNumber

/-- A numeral that is read as a whole number fits into 64 bits. -/
theorem isWord_of_numeral {negative : Bool} {n : Numeral} {rest : List Char} {i : Int}
    (h : n.value negative rest = .ok (.int i)) : IsWord i := by
  have hLimit := Decimal.absorb_le (Nat.zero_le _) n.whole
  have hSize : Decimal.significandLimit < UInt64.size := by decide
  unfold Numeral.value at h
  dsimp only at h
  -- Only a plain numeral gives a whole number.
  repeat' split at h
  all_goals cases h
  · unfold IsWord
    omega
  · exact isWord_nat (by omega)

/-- No whole number is read but one of 64 bits. -/
theorem isWord_of_number {negative : Bool} {s rest : List Char} {i : Int}
    (h : number negative s = .ok (.int i, rest)) : IsWord i := by
  obtain ⟨⟨n, r⟩, -, h⟩ := bind_eq_ok h
  obtain ⟨v, hValue, h⟩ := bind_eq_ok h
  cases h
  exact isWord_of_numeral hValue

end Json

end LintRepair
