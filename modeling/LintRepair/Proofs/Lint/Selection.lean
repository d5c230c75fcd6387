import LintRepair.Lint.Selection

/-! The selected targets among the configured ones. They keep their order, and no two of them have the
same pattern: the later one would own no file. -/

namespace LintRepair

namespace Selection

/-- Looking up every position of a list in turn gives the list. -/
theorem filterMap_range_getElem? {α : Type} (l : List α) :
    ((List.range l.length).filterMap fun i => l[i]?) = l := by
  induction l with
  | nil => rfl
  | cons a l ih =>
      rw [List.length_cons, List.range_succ_eq_map, List.filterMap_cons_some List.getElem?_cons_zero,
        List.filterMap_map]
      exact congrArg (a :: ·) ih

/-- The selection keeps the configured order and takes no target twice. -/
theorem targets_sublist (targets : List Target) (files : List String) :
    (Selection.targets targets files).Sublist targets := by
  have hPositions : (positions targets files).Sublist (List.range targets.length) :=
    List.filter_sublist
  have hTargets := hPositions.filterMap fun i => targets[i]?
  rw [filterMap_range_getElem?] at hTargets
  exact hTargets

/-- No file, no target. -/
theorem targets_nil (targets : List Target) : Selection.targets targets [] = [] := by
  simp [Selection.targets, positions]

theorem mem_positions {targets : List Target} {files : List String} {i : Nat} :
    i ∈ positions targets files ↔ ∃ file ∈ files, owner? targets file = some i := by
  simp only [positions, List.mem_filter, List.mem_range, List.contains_iff_mem, List.mem_filterMap]
  refine ⟨fun h => h.2, fun h => ⟨?_, h⟩⟩
  obtain ⟨file, -, hOwner⟩ := h
  exact (List.findIdx?_eq_some_iff_getElem.mp hOwner).1

/-- Only the pattern of a target says what it covers. -/
theorem covers_congr {t u : Target} (h : t.pattern = u.pattern) (file : String) :
    t.covers file = u.covers file := by
  unfold Target.covers
  rw [h]

/-- An earlier target with the same pattern would own the file itself. -/
theorem pattern_ne_of_owner {targets : List Target} {file : String} {i j : Nat}
    (hOwner : owner? targets file = some j) (hLess : i < j) {t u : Target}
    (ht : targets[i]? = some t) (hu : targets[j]? = some u) : t.pattern ≠ u.pattern := by
  obtain ⟨hj, hCovers, hEarlier⟩ := List.findIdx?_eq_some_iff_getElem.mp hOwner
  obtain ⟨hi, rfl⟩ := List.getElem?_eq_some_iff.mp ht
  obtain ⟨-, rfl⟩ := List.getElem?_eq_some_iff.mp hu
  intro hPattern
  rw [← covers_congr hPattern] at hCovers
  exact hEarlier i hLess hCovers

/-- No two selected targets have the same pattern. -/
theorem nodup_pattern_targets (targets : List Target) (files : List String) :
    ((Selection.targets targets files).map Target.pattern).Nodup := by
  have hRising : (positions targets files).Pairwise (· < ·) :=
    List.pairwise_lt_range.filter _
  have hApart : (positions targets files).Pairwise fun i j => ∀ t ∈ targets[i]?, ∀ u ∈ targets[j]?,
      t.pattern ≠ u.pattern := by
    refine hRising.imp_of_mem fun _ hj hLess t ht u hu => ?_
    obtain ⟨file, -, hOwner⟩ := mem_positions.mp hj
    exact pattern_ne_of_owner hOwner hLess ht hu
  unfold List.Nodup
  rw [List.pairwise_map]
  exact hApart.filterMap _ fun i j h => h

end Selection

end LintRepair
