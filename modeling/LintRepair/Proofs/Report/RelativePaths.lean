import Mathlib.Data.List.DropRight
import LintRepair.Report.FileReports

/-! Paths below a root, whichever separators are used and however many of them end the root. -/

namespace LintRepair

namespace Text

theorem dropLead?_eq_some_iff {lead s rest : List Char} :
    dropLead? lead s = some rest ↔ s = lead ++ rest := by
  induction lead generalizing s with
  | nil => exact Option.some_inj
  | cons c lead ih =>
      cases s with
      | nil => exact iff_of_false nofun nofun
      | cons d s =>
          by_cases hSame : c = d
          · rw [dropLead?, if_pos hSame, ih, List.cons_append, List.cons.injEq]
            exact (and_iff_right hSame.symm).symm
          · rw [dropLead?, if_neg hSame]
            exact iff_of_false nofun fun h => hSame (List.cons.inj h).1.symm

end Text

namespace Report.FileReports

/-- What is left of a path below the root: the root without the separators at its end is taken off,
and one separator behind it. A root of separators alone has nothing below it. -/
inductive IsBelow : List Char → List Char → List Char → Prop where
  | below {front ends rest : List Char} {last separator : Char} (last_plain : last ∉ ['/', '\\'])
      (ends_separate : ∀ c ∈ ends, c ∈ ['/', '\\']) (separates : separator ∈ ['/', '\\']) :
      IsBelow (front ++ last :: ends) (front ++ last :: separator :: rest) rest

/-- A path relative to the root. It is left as it is if it does not lie below the root. -/
inductive IsRelative (root path : List Char) : List Char → Prop where
  | below {rest : List Char} (below : IsBelow root path rest) : IsRelative root path rest
  | apart (apart : ∀ rest, ¬ IsBelow root path rest) : IsRelative root path path

theorem isSeparator_iff {c : Char} : isSeparator c = true ↔ c ∈ ['/', '\\'] := by
  simp [isSeparator]

theorem bareRoot_append {front ends : List Char} {last : Char} (hLast : last ∉ ['/', '\\'])
    (hEnds : ∀ c ∈ ends, c ∈ ['/', '\\']) : bareRoot (front ++ last :: ends) = front ++ [last] := by
  have hPlain : ¬ isSeparator last = true := fun h => hLast (isSeparator_iff.mp h)
  rw [bareRoot, List.reverse_append, List.reverse_cons, List.append_assoc,
    List.dropWhile_append_of_pos fun c hc => isSeparator_iff.mpr (hEnds c (List.mem_reverse.mp hc)),
    List.singleton_append, List.dropWhile_cons_of_neg hPlain, List.reverse_cons, List.reverse_reverse]

/-- A root of which something is left ends in separators behind a character that is none. -/
theorem exists_of_bareRoot_ne_nil {root : List Char} (h : bareRoot root ≠ []) :
    ∃ front last ends, root = front ++ last :: ends ∧ last ∉ ['/', '\\'] ∧
      ∀ c ∈ ends, c ∈ ['/', '\\'] := by
  have hSplit : bareRoot root ++ root.rtakeWhile isSeparator = root :=
    List.rdropWhile_append_rtakeWhile
  refine ⟨(bareRoot root).dropLast, (bareRoot root).getLast h, root.rtakeWhile isSeparator, ?_, ?_, ?_⟩
  · rw [List.append_cons, List.dropLast_append_getLast, hSplit]
  · exact fun hMem => List.rdropWhile_last_not _ _ h (isSeparator_iff.mpr hMem)
  · exact fun c hc => isSeparator_iff.mp (List.mem_rtakeWhile_imp hc)

/-- A path below the root is cut behind the separator. -/
theorem relativeTo_of_isBelow {root path rest : List Char} (h : IsBelow root path rest) :
    relativeTo path root = rest := by
  obtain @⟨front, ends, rest, last, separator, hLast, hEnds, separates⟩ := h
  have hBare : bareRoot (front ++ last :: ends) = front ++ [last] := bareRoot_append hLast hEnds
  have hDrop : Text.dropLead? (front ++ [last]) (front ++ last :: separator :: rest) =
      some (separator :: rest) :=
    Text.dropLead?_eq_some_iff.mpr (List.append_cons _ _ _)
  unfold relativeTo
  split
  · rename_i hNil
    rw [hBare] at hNil
    exact absurd hNil (List.append_ne_nil_of_right_ne_nil _ (List.cons_ne_nil _ _))
  · rw [hBare, hDrop]
    exact if_pos (isSeparator_iff.mpr separates)

/-- A path that is not below the root stays as it is. -/
theorem isBelow_or_relativeTo_eq (path root : List Char) :
    IsBelow root path (relativeTo path root) ∨ relativeTo path root = path := by
  unfold relativeTo
  split
  · exact .inr rfl
  · rename_i hSome
    obtain ⟨front, last, ends, rfl, hLast, hEnds⟩ := exists_of_bareRoot_ne_nil hSome
    rw [bareRoot_append hLast hEnds]
    split
    · rename_i separator rest hDrop
      split
      · rename_i hSeparator
        rw [Text.dropLead?_eq_some_iff.mp hDrop, ← List.append_cons]
        exact .inl (.below hLast hEnds (isSeparator_iff.mp hSeparator))
      · exact .inr rfl
    · exact .inr rfl

/-- There is exactly one path relative to a root. -/
theorem isRelative_iff {root path relative : List Char} :
    IsRelative root path relative ↔ relativeTo path root = relative := by
  constructor
  · rintro (below | apart)
    · exact relativeTo_of_isBelow below
    · exact (isBelow_or_relativeTo_eq path root).resolve_left (apart _)
  · rintro rfl
    by_cases hBelow : ∃ rest, IsBelow root path rest
    · obtain ⟨rest, hBelow⟩ := hBelow
      rw [relativeTo_of_isBelow hBelow]
      exact .below hBelow
    · have hApart := not_exists.mp hBelow
      rw [(isBelow_or_relativeTo_eq path root).resolve_left (hApart _)]
      exact .apart hApart

end Report.FileReports

end LintRepair
