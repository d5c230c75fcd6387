import Mathlib.Data.List.Infix
import LintRepair.Text.Blank

/-! Where a needle stands in a text. A needle that opens with a character can only stand where that
character is, so stretches of text without it are passed over in one step. -/

namespace LintRepair.Text

/-- At how many places of the text the needle stands; places may overlap. -/
def occurrences (needle text : List Char) : Nat := text.tails.countP needle.isPrefixOf

/-- The search finds a text exactly if it occurs. -/
theorem hasInfix_iff (needle text : List Char) : hasInfix needle text = true ↔ needle <:+: text := by
  induction text with
  | nil => simp [hasInfix]
  | cons c rest ih => simp [hasInfix, List.infix_cons_iff, ih]

theorem occurrences_cons (needle : List Char) (c : Char) (rest : List Char) :
    occurrences needle (c :: rest) =
      (if needle <+: c :: rest then 1 else 0) + occurrences needle rest := by
  unfold occurrences
  rw [List.tails_cons, List.countP_cons, Nat.add_comm]
  simp only [List.isPrefixOf_iff_prefix]

/-- What occurs no time is nowhere in the text. -/
theorem occurrences_eq_zero_iff (needle text : List Char) :
    occurrences needle text = 0 ↔ ¬ needle <:+: text := by
  rw [occurrences, List.countP_eq_zero, List.infix_iff_prefix_suffix]
  simp only [List.mem_tails, List.isPrefixOf_iff_prefix, not_exists, not_and]
  exact ⟨fun h rest hPrefix hSuffix => h rest hSuffix hPrefix,
    fun h rest hSuffix hPrefix => h rest hPrefix hSuffix⟩

theorem occurrences_cons_nil (d : Char) (needle : List Char) : occurrences (d :: needle) [] = 0 := by
  rw [occurrences_eq_zero_iff, List.infix_nil]
  exact List.cons_ne_nil d needle

/-- The needle does not start at another character than its first. -/
theorem occurrences_cons_of_ne {d c : Char} (h : d ≠ c) (needle rest : List Char) :
    occurrences (d :: needle) (c :: rest) = occurrences (d :: needle) rest := by
  simp [occurrences_cons, h]

/-- A stretch without the needle's first character holds no start of it. -/
theorem occurrences_append_of_notMem {d : Char} {stretch : List Char} (h : d ∉ stretch)
    (needle rest : List Char) :
    occurrences (d :: needle) (stretch ++ rest) = occurrences (d :: needle) rest := by
  induction stretch with
  | nil => rfl
  | cons c stretch ih =>
      rw [List.mem_cons, not_or] at h
      rw [List.cons_append, occurrences_cons_of_ne h.1, ih h.2]

end LintRepair.Text
