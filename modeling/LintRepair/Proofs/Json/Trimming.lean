import Mathlib.Data.List.DropRight
import LintRepair.Proofs.Json.Documents
import LintRepair.Proofs.Text.Lines

/-! Blanks around a JSON text. A value neither opens nor closes with a blank character, and the spacing
around it is blank, so a text whose ends are trimmed writes the same value. -/

namespace LintRepair

namespace Text

/-- The text opens and closes with a character that is not blank. -/
def IsEdged (s : List Char) : Prop :=
  (∃ c more, s = c :: more ∧ isBlank c = false) ∧ ∃ front c, s = front ++ [c] ∧ isBlank c = false

/-- A text with no blank at either end has its edges. -/
theorem isEdged_of_ends {s : List Char} (hSome : s ≠ []) (hFirst : isBlank (s.head hSome) = false)
    (hLast : isBlank (s.getLast hSome) = false) : IsEdged s :=
  ⟨⟨s.head hSome, s.tail, (List.cons_head_tail hSome).symm, hFirst⟩,
    s.dropLast, s.getLast hSome, (List.dropLast_append_getLast hSome).symm, hLast⟩

theorem isEdged_of_forall {s : List Char} (hSome : s ≠ []) (h : ∀ c ∈ s, isBlank c = false) :
    IsEdged s :=
  isEdged_of_ends hSome (h _ (List.head_mem hSome)) (h _ (List.getLast_mem hSome))

theorem isEdged_between {c d : Char} (hc : isBlank c = false) (hd : isBlank d = false)
    (s : List Char) : IsEdged (c :: (s ++ [d])) :=
  ⟨⟨c, s ++ [d], rfl, hc⟩, c :: s, d, rfl, hd⟩

/-- Trimming takes off the blanks around such a text and no more. -/
theorem IsEdged.trim_eq {s before after : List Char} (h : IsEdged s)
    (hBefore : ∀ c ∈ before, isBlank c = true) (hAfter : ∀ c ∈ after, isBlank c = true) :
    trim (before ++ (s ++ after)) = s := by
  obtain ⟨⟨c, more, hOpen, hFirst⟩, front, d, hClose, hLast⟩ := h
  have hStart : trimStart (s ++ after) = s ++ after := by
    rw [hOpen]
    exact List.dropWhile_cons_of_neg (by simp [hFirst])
  rw [trim_append hBefore, trim, hStart, trimEnd_append hAfter, hClose]
  unfold trimEnd
  rw [List.reverse_append, List.reverse_singleton, List.singleton_append,
    List.dropWhile_cons_of_neg (by simp [hLast]), List.reverse_cons, List.reverse_reverse]

/-- Trimming leaves a text that has its edges. -/
theorem IsEdged.trim {s : List Char} (h : IsEdged s) : Text.trim s = s := by
  have hTrim := h.trim_eq (List.forall_mem_nil _) (List.forall_mem_nil _)
  rwa [List.append_nil, List.nil_append] at hTrim

/-- What trimming leaves is edged, unless it leaves nothing. -/
theorem isEdged_trim {s : List Char} (h : trim s ≠ []) : IsEdged (trim s) := by
  refine isEdged_of_ends h ?_ ?_
  · obtain ⟨rest, hRest⟩ : trim s <+: trimStart s := List.rdropWhile_prefix isBlank _
    have hStart : trimStart s ≠ [] := by
      intro hNone
      rw [hNone, List.append_eq_nil_iff] at hRest
      exact h hRest.1
    have hHead : (trim s).head h = (trimStart s).head hStart := by
      simp only [← hRest, List.head_append_of_ne_nil h]
    rw [hHead]
    exact List.head_dropWhile_not isBlank hStart
  · exact Bool.eq_false_iff.mpr (List.rdropWhile_last_not isBlank (trimStart s) h)

theorem isBlank_of_isDigit {c : Char} (h : c.isDigit = true) : isBlank c = false := by
  obtain ⟨hLow, hHigh⟩ := Json.toNat_of_isDigit h
  simp [isBlank]
  omega

end Text

namespace Json

open Text (isBlank IsEdged)

/-- The space of JSON is blank, but not all that is blank is space. -/
theorem isBlank_of_isSpace {c : Char} (h : isSpace c = true) : isBlank c = true := by
  simp only [isSpace, Bool.or_eq_true, beq_iff_eq] at h
  rcases h with ((rfl | rfl) | rfl) | rfl <;> decide

/-! ### Numbers have no blanks -/

theorem IsDigits.notBlank {ds : List Char} (h : IsDigits ds) : ∀ c ∈ ds, isBlank c = false :=
  fun c hc => Text.isBlank_of_isDigit (h.2 c hc)

theorem WritesExponent.notBlank {t : List Char} {e : Option (Bool × List Char)}
    (h : WritesExponent t e) : ∀ c ∈ t, isBlank c = false := by
  have hLetters {letter : Char} (isLetter : letter = 'e' ∨ letter = 'E') : isBlank letter = false := by
    rcases isLetter with rfl | rfl <;> decide
  cases h with
  | none => exact List.forall_mem_nil _
  | plain isLetter digits => exact List.forall_mem_cons.mpr ⟨hLetters isLetter, digits.notBlank⟩
  | plus isLetter digits | minus isLetter digits =>
      exact List.forall_mem_cons.mpr
        ⟨hLetters isLetter, List.forall_mem_cons.mpr ⟨by decide, digits.notBlank⟩⟩

theorem WritesNumeral.notBlank {t : List Char} {n : Numeral} (h : WritesNumeral t n) :
    ∀ c ∈ t, isBlank c = false := by
  cases h with
  | plain whole exponent => exact List.forall_mem_append.mpr ⟨whole.1.notBlank, exponent.notBlank⟩
  | pointed whole fraction exponent =>
      exact List.forall_mem_append.mpr ⟨whole.1.notBlank, List.forall_mem_cons.mpr
        ⟨by decide, List.forall_mem_append.mpr ⟨fraction.notBlank, exponent.notBlank⟩⟩⟩

theorem isEdged_sign {negative : Bool} {t : List Char} (hSome : t ≠ [])
    (h : ∀ c ∈ t, isBlank c = false) : IsEdged (sign negative ++ t) := by
  refine Text.isEdged_of_forall (List.append_ne_nil_of_right_ne_nil _ hSome)
    (List.forall_mem_append.mpr ⟨?_, h⟩)
  cases negative <;> simp [sign, isBlank]

/-- A printed number has no blank at its ends. -/
theorem isEdged_integer (i : Int) : IsEdged (integer i) := by
  have hDigits : ∀ c ∈ Nat.toDigits 10 i.natAbs, isBlank c = false := fun c hc =>
    Text.isBlank_of_isDigit (Nat.isDigit_of_mem_toDigits (by decide) (by decide) hc)
  have hText : integer i = sign (decide (i < 0)) ++ Nat.toDigits 10 i.natAbs := by
    unfold integer sign
    by_cases hNegative : i < 0 <;> simp [hNegative]
  rw [hText]
  exact isEdged_sign Nat.toDigits_ne_nil hDigits

/-! ### Values -/

/-- No text of a scalar begins or ends with a blank. -/
theorem WritesScalar.isEdged {t : List Char} {v : Json} (h : WritesScalar t v) : IsEdged t := by
  cases h with
  | null | yes | no => exact Text.isEdged_of_forall (by decide) (by simp [isBlank])
  | string writes =>
      obtain ⟨letters⟩ := writes
      exact Text.isEdged_between (by decide) (by decide) _
  | whole word => exact isEdged_integer _
  | float numeral value =>
      obtain ⟨c, more, hSome, -⟩ := numeral.head
      exact isEdged_sign (by rw [hSome]; exact List.cons_ne_nil c more) numeral.notBlank

/-- No text of a value begins or ends with a blank. -/
theorem Writes.isEdged {depth : Nat} {t : List Char} {v : Json} (h : Writes depth t v) :
    IsEdged t := by
  cases depth with
  | zero => exact WritesScalar.isEdged h
  | succ depth =>
      cases h with
      | scalar writes => exact writes.isEdged
      | array writes => exact Text.isEdged_between (by decide) (by decide) _
      | object writes => exact Text.isEdged_between (by decide) (by decide) _

/-- A JSON text without the blanks at its ends writes the same value. -/
theorem WritesText.trim {text : List Char} {v : Json} (h : WritesText text v) :
    WritesText (Text.trim text) v := by
  obtain ⟨front, writes, back⟩ := h
  rw [writes.isEdged.trim_eq (fun c hc => isBlank_of_isSpace (front c hc))
    fun c hc => isBlank_of_isSpace (back c hc)]
  have hText := WritesText.text (List.forall_mem_nil _) writes (List.forall_mem_nil _)
  rwa [List.nil_append, List.append_nil] at hText

end Json

end LintRepair
