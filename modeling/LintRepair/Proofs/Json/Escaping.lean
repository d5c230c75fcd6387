import LintRepair.Json.Printer

/-! Where a quote can stand in a written string: as one of the two delimiters, or behind a backslash.
A stretch of plain characters up to a quote is therefore the whole of the string. -/

namespace LintRepair.Json

/-- Written inside a string as it is. -/
def IsPlain (c : Char) : Prop := c ≠ '"' ∧ c ≠ '\\' ∧ 0x20 ≤ c.toNat

instance (c : Char) : Decidable (IsPlain c) := inferInstanceAs (Decidable (_ ∧ _))

/-- The text between the quotes of a written string. -/
def escaped (s : List Char) : List Char := s.flatMap escapeChar

@[simp] theorem escaped_nil : escaped [] = [] := rfl

@[simp] theorem escaped_cons (c : Char) (s : List Char) :
    escaped (c :: s) = escapeChar c ++ escaped s := List.flatMap_cons

/-- A quoted text is its escaped characters between quotes. -/
theorem quote_eq (s : String) : quote s = '"' :: escaped s.toList ++ ['"'] := rfl

theorem hexDigit_isPlain : ∀ n < 16, IsPlain (hexDigit n) := by decide

/-- A plain character stands for itself. -/
theorem escapeChar_of_isPlain {c : Char} (h : IsPlain c) : escapeChar c = [c] := by
  obtain ⟨hQuote, hBackslash, hPrint⟩ := h
  have hNe : ∀ d : Char, d.toNat < 0x20 → c ≠ d := by
    rintro d hd rfl
    omega
  simp only [escapeChar, if_neg hQuote, if_neg hBackslash, if_neg (hNe '\x08' (by decide)),
    if_neg (hNe '\x0c' (by decide)), if_neg (hNe '\n' (by decide)), if_neg (hNe '\r' (by decide)),
    if_neg (hNe '\t' (by decide)), if_neg (Nat.not_lt.mpr hPrint)]

/-- Every character that is not plain is written behind a backslash. Nothing
behind the backslash is a control, and only the quote itself brings a quote. -/
theorem escapeChar_of_not_isPlain {c : Char} (h : ¬ IsPlain c) :
    ∃ tail, escapeChar c = '\\' :: tail ∧ (c = '"' ∧ tail = ['"'] ∨ c ≠ '"' ∧ '"' ∉ tail) ∧
      ∀ d ∈ tail, 0x20 ≤ d.toNat := by
  by_cases hQuote : c = '"'
  · subst c
    exact ⟨['"'], rfl, Or.inl ⟨rfl, rfl⟩, by simp⟩
  by_cases hControl : c.toNat < 0x20
  · have hHigh := hexDigit_isPlain (c.toNat / 16) (by omega)
    have hLow := hexDigit_isPlain (c.toNat % 16) (Nat.mod_lt _ (by decide))
    unfold escapeChar
    rw [if_neg hQuote, if_pos hControl]
    repeat' split
    all_goals refine ⟨_, rfl, Or.inr ⟨hQuote, ?_⟩, ?_⟩
    all_goals simp [hHigh.1.symm, hHigh.2.2, hLow.1.symm, hLow.2.2]
  · by_cases hBackslash : c = '\\'
    · subst c
      exact ⟨['\\'], rfl, Or.inr ⟨hQuote, by decide⟩, by simp⟩
    · exact absurd ⟨hQuote, hBackslash, Nat.not_lt.mp hControl⟩ h

/-- No control character is left in escaped text. -/
theorem le_toNat_of_mem_escaped {s : List Char} {d : Char} (h : d ∈ escaped s) :
    0x20 ≤ d.toNat := by
  obtain ⟨c, -, hMem⟩ := List.mem_flatMap.mp h
  by_cases hPlain : IsPlain c
  · rw [escapeChar_of_isPlain hPlain, List.mem_singleton] at hMem
    exact hMem ▸ hPlain.2.2
  · obtain ⟨tail, hEq, -, hTail⟩ := escapeChar_of_not_isPlain hPlain
    rw [hEq, List.mem_cons] at hMem
    rcases hMem with rfl | hMem
    · decide
    · exact hTail d hMem

/-- A written string that opens with plain characters and a quote holds just
these characters: the quote cannot be an escaped one, so it closes the string. -/
theorem plain_quote_prefix_iff {w s x rest : List Char} (hw : ∀ c ∈ w, IsPlain c) :
    w ++ '"' :: x <+: escaped s ++ '"' :: rest ↔ s = w ∧ x <+: rest := by
  induction w generalizing s with
  | nil =>
      cases s with
      | nil => simp
      | cons c s =>
          have hNot : ¬ '"' :: x <+: escaped (c :: s) ++ '"' :: rest := by
            by_cases hPlain : IsPlain c
            · simp [escapeChar_of_isPlain hPlain, hPlain.1.symm]
            · obtain ⟨tail, hEq, -, -⟩ := escapeChar_of_not_isPlain hPlain
              simp [hEq]
          simpa using hNot
  | cons d w ih =>
      have hd := hw d (List.mem_cons_self ..)
      cases s with
      | nil => simp [hd.1]
      | cons c s =>
          by_cases hPlain : IsPlain c
          · simp [escapeChar_of_isPlain hPlain, ih fun e he => hw e (List.mem_cons_of_mem _ he),
              and_assoc, eq_comm]
          · obtain ⟨tail, hEq, -, -⟩ := escapeChar_of_not_isPlain hPlain
            have hNe : c ≠ d := fun h => hPlain (h ▸ hd)
            simp [hEq, hNe, hd.2.1]

end LintRepair.Json
