import LintRepair.Proofs.Lint.Selection
import Mathlib.Data.List.Nodup

/-! The selection said without the two scans. A file is owned by the first target whose pattern
matches it, a target is selected if it owns a file, and what lies behind the owner of a file, or is
no pattern at all, has no part in it. -/

namespace LintRepair

namespace Selection

/-- The pattern is well formed and matches the path. -/
def Matches (pattern path : String) : Prop :=
  ∃ tokens, Glob.parse pattern = .ok tokens ∧ Glob.isMatch tokens path = true

/-- The target at a position owns a file: its pattern matches the path without a
leading `./`, and every earlier pattern is malformed or does not match it. -/
structure Owns (targets : List Target) (i : Nat) (file : String) : Prop where
  matched : ∃ t, targets[i]? = some t ∧ Matches t.pattern (bare file)
  first : ∀ j < i, ∀ t, targets[j]? = some t → ¬ Matches t.pattern (bare file)

theorem bare_eq_iff {file path : String} :
    bare file = path ↔
      file = "./" ++ path ∨ file = path ∧ ¬ ['.', '/'] <+: file.toList := by
  unfold bare
  split
  · rename_i rest hList
    have hFile : file = "./" ++ String.ofList rest := by
      rw [← String.toList_inj, hList]
      simp
    refine ⟨fun hPath => .inl (hPath ▸ hFile), fun h => ?_⟩
    rcases h with hLead | ⟨-, hNone⟩
    · rw [hFile] at hLead
      exact String.append_right_inj _ |>.mp hLead
    · rw [hList] at hNone
      exact absurd (by simp) hNone
  · rename_i hOther
    have hNone : ¬ ['.', '/'] <+: file.toList := by
      rintro ⟨rest, hList⟩
      exact hOther rest hList.symm
    refine ⟨fun hPath => .inr ⟨hPath, hNone⟩, fun h => ?_⟩
    rcases h with hLead | ⟨hPath, -⟩
    · rw [hLead] at hNone
      exact absurd (by simp) hNone
    · exact hPath

theorem covers_iff {t : Target} {file : String} :
    t.covers file = true ↔ Matches t.pattern (bare file) := by
  unfold Target.covers Matches
  cases Glob.parse t.pattern with
  | ok tokens => simp
  | error cause => simp

/-- The owner of a file is the first target that covers it. -/
theorem owner?_eq_some_iff {targets : List Target} {file : String} {i : Nat} :
    owner? targets file = some i ↔ Owns targets i file := by
  unfold owner?
  rw [List.findIdx?_eq_some_iff_getElem]
  constructor
  · rintro ⟨hi, hCovers, hEarlier⟩
    refine ⟨⟨targets[i], List.getElem?_eq_getElem hi, covers_iff.mp hCovers⟩, ?_⟩
    intro j hj t ht hMatches
    obtain ⟨_, rfl⟩ := List.getElem?_eq_some_iff.mp ht
    exact hEarlier j hj (covers_iff.mpr hMatches)
  · rintro ⟨⟨t, ht, hMatches⟩, hFirst⟩
    obtain ⟨hi, rfl⟩ := List.getElem?_eq_some_iff.mp ht
    refine ⟨hi, covers_iff.mpr hMatches, fun j hj hCovers => ?_⟩
    exact hFirst j hj _ (List.getElem?_eq_getElem (Nat.lt_trans hj hi)) (covers_iff.mp hCovers)

/-- The positions that are selected are those of the owners. -/
theorem mem_positions_iff {targets : List Target} {files : List String} {i : Nat} :
    i ∈ positions targets files ↔ ∃ file ∈ files, Owns targets i file := by
  simp only [mem_positions, owner?_eq_some_iff]

/-- No file has two owners. -/
theorem Owns.unique {targets : List Target} {file : String} {i j : Nat} (hi : Owns targets i file)
    (hj : Owns targets j file) : i = j :=
  Option.some.inj ((owner?_eq_some_iff.mpr hi).symm.trans (owner?_eq_some_iff.mpr hj))

/-- The first target that matches owns the file. -/
theorem exists_owner {targets : List Target} {file : String}
    (h : ∃ t ∈ targets, Matches t.pattern (bare file)) : ∃ i, Owns targets i file := by
  obtain ⟨t, ht, hMatches⟩ := h
  cases hOwner : owner? targets file with
  | some i => exact ⟨i, owner?_eq_some_iff.mp hOwner⟩
  | none =>
      have hNone := List.findIdx?_eq_none_iff.mp hOwner t ht
      rw [covers_iff.mpr hMatches] at hNone
      cases hNone

/-- The selected targets stand at the positions. -/
theorem map_some_targets (targets : List Target) (files : List String) :
    (Selection.targets targets files).map some =
      (positions targets files).map fun i => targets[i]? := by
  unfold Selection.targets
  have hInside : ∀ i ∈ positions targets files, (targets[i]?).isSome := by
    intro i hi
    obtain ⟨file, -, hOwns⟩ := mem_positions_iff.mp hi
    obtain ⟨t, ht, -⟩ := hOwns.matched
    rw [ht]
    rfl
  generalize positions targets files = is at hInside
  induction is with
  | nil => rfl
  | cons i is ih =>
      rw [List.forall_mem_cons] at hInside
      obtain ⟨t, ht⟩ := Option.isSome_iff_exists.mp hInside.1
      rw [List.filterMap_cons_some ht, List.map_cons, List.map_cons, ih hInside.2, ht]

/-! ### Files -/

theorem owner?_congr {file other : String} (h : bare file = bare other) (targets : List Target) :
    owner? targets file = owner? targets other := by
  unfold owner? Target.covers
  simp only [h]

/-- More files select more positions, and a file counts by its path without a
leading `./`. -/
theorem positions_sublist {files others : List String}
    (h : ∀ path ∈ files.map bare, path ∈ others.map bare) (targets : List Target) :
    (positions targets files).Sublist (positions targets others) := by
  refine List.monotone_filter_right _ fun i hi => ?_
  simp only [List.contains_iff_mem, List.mem_filterMap] at hi ⊢
  obtain ⟨file, hFile, hOwner⟩ := hi
  obtain ⟨other, hOther, hBare⟩ := List.mem_map.mp (h _ (List.mem_map_of_mem hFile))
  exact ⟨other, hOther, (owner?_congr hBare targets).trans hOwner⟩

/-- A file alone selects its owner. -/
theorem targets_singleton {targets : List Target} {file : String} {i : Nat} {t : Target}
    (h : Owns targets i file) (ht : targets[i]? = some t) :
    Selection.targets targets [file] = [t] := by
  have hPositions : positions targets [file] = [i] := by
    have hMem : ∀ j, j ∈ positions targets [file] ↔ j ∈ [i] := by
      intro j
      rw [mem_positions_iff, List.mem_singleton]
      refine ⟨fun hOwned => ?_, fun hj => ⟨file, List.mem_singleton_self _, hj ▸ h⟩⟩
      obtain ⟨other, hOther, hOwns⟩ := hOwned
      rw [List.mem_singleton.mp hOther] at hOwns
      exact hOwns.unique h
    have hNodup : (positions targets [file]).Nodup := List.nodup_range.filter _
    exact List.perm_singleton.mp
      ((List.perm_ext_iff_of_nodup hNodup (List.nodup_singleton i)).mpr hMem)
  rw [Selection.targets, hPositions, List.filterMap_cons_some ht, List.filterMap_nil]

theorem targets_sublist_of_subset {files others : List String}
    (h : ∀ path ∈ files.map bare, path ∈ others.map bare) (targets : List Target) :
    (Selection.targets targets files).Sublist (Selection.targets targets others) :=
  (positions_sublist h targets).filterMap _

/-! ### Targets -/

theorem owner?_lt {targets : List Target} {file : String} {i : Nat}
    (h : owner? targets file = some i) : i < targets.length :=
  (List.findIdx?_eq_some_iff_getElem.mp h).1

theorem owner?_append (targets later : List Target) (file : String) :
    owner? (targets ++ later) file =
      (owner? targets file).or ((owner? later file).map (· + targets.length)) :=
  List.findIdx?_append

/-- Targets that are added behind others own none of the files of these. -/
theorem owner?_append_left {targets : List Target} {i : Nat} (hi : i < targets.length)
    (later : List Target) (file : String) :
    owner? (targets ++ later) file = some i ↔ owner? targets file = some i := by
  rw [owner?_append, Option.or_eq_some_iff]
  refine ⟨fun h => ?_, .inl⟩
  rcases h with hOwner | ⟨-, hLater⟩
  · exact hOwner
  · obtain ⟨j, -, rfl⟩ := Option.map_eq_some_iff.mp hLater
    omega

theorem owner?_append_right (targets later : List Target) (file : String) (i : Nat) :
    owner? (targets ++ later) file = some (targets.length + i) ↔
      owner? targets file = none ∧ owner? later file = some i := by
  rw [owner?_append, Option.or_eq_some_iff]
  constructor
  · rintro (hOwner | ⟨hNone, hLater⟩)
    · have hLess := owner?_lt hOwner
      omega
    · obtain ⟨j, hOwner, hj⟩ := Option.map_eq_some_iff.mp hLater
      obtain rfl : j = i := by omega
      exact ⟨hNone, hOwner⟩
  · rintro ⟨hNone, hLater⟩
    exact .inr ⟨hNone, by rw [hLater, Option.map_some, Nat.add_comm]⟩

/-- Targets behind others get the files that the others leave. -/
theorem positions_append (targets later : List Target) (files : List String) :
    positions (targets ++ later) files = positions targets files ++
      (positions later (files.filter fun file => (owner? targets file).isNone)).map
        (targets.length + ·) := by
  simp only [positions]
  rw [List.length_append, List.range_add, List.filter_append, List.filter_map]
  congr 1
  · refine List.filter_congr fun i hi => ?_
    rw [Bool.eq_iff_iff]
    simp only [List.contains_iff_mem, List.mem_filterMap,
      owner?_append_left (List.mem_range.mp hi)]
  · refine congrArg _ (List.filter_congr fun i _ => ?_)
    rw [Bool.eq_iff_iff]
    simp only [Function.comp_apply, List.contains_iff_mem, List.mem_filterMap, owner?_append_right,
      List.mem_filter, Option.isNone_iff_eq_none, and_assoc]

theorem targets_append (targets later : List Target) (files : List String) :
    Selection.targets (targets ++ later) files = Selection.targets targets files ++
      Selection.targets later (files.filter fun file => (owner? targets file).isNone) := by
  simp only [Selection.targets]
  rw [positions_append, List.filterMap_append, List.filterMap_map]
  congr 1
  · refine List.filterMap_congr fun i hi => ?_
    obtain ⟨file, -, hOwner⟩ := mem_positions.mp hi
    exact List.getElem?_append_left (owner?_lt hOwner)
  · refine List.filterMap_congr fun i _ => ?_
    rw [Function.comp_apply, List.getElem?_append_right (Nat.le_add_right ..), Nat.add_sub_cancel_left]

/-- A target whose pattern is malformed owns no file, and takes none from others. -/
theorem targets_erase_malformed {t : Target} {cause : Glob.Error}
    (h : Glob.parse t.pattern = .error cause) (earlier later : List Target) (files : List String) :
    Selection.targets (earlier ++ t :: later) files = Selection.targets (earlier ++ later) files := by
  have hCovers : ∀ file, t.covers file = false := by
    intro file
    unfold Target.covers
    rw [h]
  have hOwner : ∀ file, owner? [t] file = none := by
    intro file
    simp [owner?, hCovers]
  have hAlone : ∀ rest, Selection.targets [t] rest = [] := by
    intro rest
    simp [Selection.targets, positions, hOwner]
  rw [targets_append, targets_append earlier, ← List.singleton_append, targets_append [t], hAlone,
    List.nil_append]
  simp [hOwner]

/-- The selection in full. The selected targets stand at the rising positions that
own one of the files, and no two of them have the same pattern. A file that some
pattern matches is owned by one target, which it selects alone. The selection does
not depend on the order or the repetition of the files, or on a leading `./`; more
files select no less; targets that are added at the end leave the positions before
them as they are; and a target with a malformed pattern may as well be left out. -/
theorem selection_exact (targets : List Target) (files : List String) :
    ((positions targets files).Pairwise (· < ·) ∧
      (∀ i, i ∈ positions targets files ↔ ∃ file ∈ files, Owns targets i file) ∧
      (Selection.targets targets files).map some =
        (positions targets files).map (fun i => targets[i]?) ∧
      ((Selection.targets targets files).map Target.pattern).Nodup ∧
      ∀ file path, bare file = path ↔
        file = "./" ++ path ∨ file = path ∧ ¬ ['.', '/'] <+: file.toList) ∧
    (∀ file, (∃ t ∈ targets, Matches t.pattern (bare file)) →
      ∃ i t, (∀ j, Owns targets j file ↔ j = i) ∧ targets[i]? = some t ∧
        Selection.targets targets [file] = [t] ∧
        (file ∈ files → t ∈ Selection.targets targets files)) ∧
    (∀ others, (∀ path, path ∈ files.map bare ↔ path ∈ others.map bare) →
      Selection.targets targets files = Selection.targets targets others) ∧
    (∀ others, files ⊆ others →
      (Selection.targets targets files).Sublist (Selection.targets targets others)) ∧
    (∀ later, ∃ added, positions (targets ++ later) files = positions targets files ++ added ∧
      (∀ i ∈ added, targets.length ≤ i) ∧
      Selection.targets targets files <+: Selection.targets (targets ++ later) files) ∧
    ∀ earlier t later cause, targets = earlier ++ t :: later →
      Glob.parse t.pattern = .error cause →
      Selection.targets (earlier ++ later) files = Selection.targets targets files := by
  refine ⟨⟨List.pairwise_lt_range.filter _, fun i => mem_positions_iff, map_some_targets _ _,
    nodup_pattern_targets _ _, fun file path => bare_eq_iff⟩, fun file hMatches => ?_,
    fun others hSame => ?_, fun others hMore => ?_, fun later => ?_, ?_⟩
  · obtain ⟨i, hOwns⟩ := exists_owner hMatches
    obtain ⟨t, ht, -⟩ := hOwns.matched
    have hAlone := targets_singleton hOwns ht
    refine ⟨i, t, fun j => ⟨fun hj => hj.unique hOwns, fun hj => hj ▸ hOwns⟩, ht, hAlone, fun hFile => ?_⟩
    -- The file alone selects its target, and more files select no less.
    have hMore : (Selection.targets targets [file]).Sublist (Selection.targets targets files) :=
      targets_sublist_of_subset (List.map_subset bare (by simpa using hFile)) targets
    rw [hAlone] at hMore
    exact List.singleton_sublist.mp hMore
  · exact (targets_sublist_of_subset (fun path => (hSame path).mp) targets).antisymm
      (targets_sublist_of_subset (fun path => (hSame path).mpr) targets)
  · exact targets_sublist_of_subset (List.map_subset bare hMore) targets
  · refine ⟨_, positions_append targets later files, fun i hi => ?_, ?_⟩
    · obtain ⟨j, -, rfl⟩ := List.mem_map.mp hi
      exact Nat.le_add_right ..
    · rw [targets_append]
      exact List.prefix_append ..
  · rintro earlier t later cause rfl hMalformed
    exact (targets_erase_malformed hMalformed earlier later files).symm

-- A malformed pattern, a shadowed one, and a file that nobody owns.
example :
    positions [⟨"src/[*.ts", .js, "", ""⟩, ⟨"**/*.ts", .js, "", ""⟩, ⟨"src/**", .js, "", ""⟩]
      ["./src/a.ts", "README.md", "src/b.css", "src/a.ts"] = [1, 2] := by decide +kernel

end Selection

end LintRepair
