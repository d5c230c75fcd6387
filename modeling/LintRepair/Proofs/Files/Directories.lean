import LintRepair.Proofs.Files.Writing

/-! Directories that are made for a file. After that the path to the file's directory leads to a
directory, writing the file keeps it one, and making the directories once more does nothing. -/

namespace LintRepair.Files

namespace Path

/-- What is left of a path without its empty tail does not end in a slash, unless
it is the top. -/
theorem dropEmptyTail_cases (reversed : List Char) :
    dropEmptyTail reversed = ['/'] ∨ (dropEmptyTail reversed).head? ≠ some '/' := by
  fun_induction dropEmptyTail reversed with
  | case1 => simp
  | case2 => simp
  | case3 rest _ ih => exact ih
  | case4 rest ih => exact ih
  | case5 path hNil hTop hSlash hDot =>
      refine .inr fun hHead => ?_
      obtain ⟨rest, rfl⟩ := List.head?_eq_some_iff.mp hHead
      exact hSlash rest rfl

/-- The path of a parent has no slashes to drop. -/
theorem withoutFinalSlashes_parent {path parent : String} (h : parent? path = some parent) :
    withoutFinalSlashes parent = parent := by
  unfold parent? at h
  split at h
  · cases h
  · cases h
  · obtain rfl := Option.some.inj h
    rcases dropEmptyTail_cases ((dropEmptyTail path.toList.reverse).dropWhile (· != '/')) with
      hTop | hName
    · rw [hTop]
      decide
    · refine withoutFinalSlashes_eq ?_
      rw [endsInSlash, String.toList_ofList, List.getLast?_reverse]
      exact beq_eq_false_iff_ne.mpr hName

end Path

namespace Tree

theorem isDirectory_iff {t : Tree} {base : Location} {path : String} :
    t.isDirectory base path = true ↔
      ∃ here, t.locate base path = .ok here ∧ t.entry? here = some .directory := by
  cases hLocate : t.locate base path with
  | error cause => simp [isDirectory, find, hLocate, bind, Except.bind]
  | ok here =>
      cases hEntry : t.entry? here with
      | none => simp [isDirectory, find, hLocate, hEntry, bind, Except.bind]
      | some e => cases e <;> simp [isDirectory, find, hLocate, hEntry, bind, Except.bind]

/-- What is put where no directory stands leaves every directory in its place. -/
theorem isDirectory_put {t : Tree} {here : Location} (h : t.entry? here ≠ some .directory)
    (e : Entry) {base : Location} {path : String} (hDirectory : t.isDirectory base path = true) :
    (t.put here e).isDirectory base path = true := by
  obtain ⟨there, hLocate, hThere⟩ := isDirectory_iff.mp hDirectory
  have hNe : there ≠ here := by
    rintro rfl
    exact h hThere
  exact isDirectory_iff.mpr ⟨there, locate_put h e hLocate, by rw [entry?_put_of_ne hNe, hThere]⟩

/-- A directory that was made is there. -/
theorem isDirectory_makeDirectory {t after : Tree} {base : Location} {path : String}
    (hPath : Path.withoutFinalSlashes path = path) (h : t.makeDirectory base path = .ok after) :
    after.isDirectory base path = true := by
  unfold makeDirectory at h
  obtain ⟨here, hLocate, h⟩ := bind_eq_ok h
  rw [hPath] at hLocate
  split at h
  · cases h
  · rename_i hNone
    obtain ⟨-, -, h⟩ := bind_eq_ok h
    obtain rfl := Except.ok.inj h
    have hNotDirectory : t.entry? here ≠ some .directory := by simp [hNone]
    exact isDirectory_iff.mpr ⟨here, locate_put hNotDirectory _ hLocate,
      entry?_put_self (ne_nil_of_not_directory hNotDirectory) _⟩

/-- When all directories on a path could be made, the path leads to one. -/
theorem isDirectory_makeAll {t after : Tree} {base : Location} {path : String}
    (hPath : Path.withoutFinalSlashes path = path) (h : t.makeAll base path = (none, after)) :
    path = "" ∨ after.isDirectory base path = true := by
  rw [makeAll, makeDirectories] at h
  split at h
  · rename_i hEmpty
    exact .inl (String.isEmpty_iff.mp hEmpty)
  refine .inr ?_
  -- Every way to succeed ends with the directory made, or found where it could not be made.
  split at h
  · rename_i hMade
    cases h
    exact isDirectory_makeDirectory hPath hMade
  · split at h
    · cases h
    · split at h
      · cases h
      · split at h
        · rename_i hMade
          cases h
          exact isDirectory_makeDirectory hPath hMade
        · split at h
          · cases h
            assumption
          · cases h
  · split at h
    · cases h
      assumption
    · cases h

/-- Where there is a directory already, making it does nothing. -/
theorem makeAll_of_isDirectory {t : Tree} {base : Location} {path : String}
    (hPath : Path.withoutFinalSlashes path = path)
    (h : path = "" ∨ t.isDirectory base path = true) : t.makeAll base path = (none, t) := by
  rcases h with rfl | hDirectory
  · rfl
  obtain ⟨here, hLocate, hEntry⟩ := isDirectory_iff.mp hDirectory
  have hMade : t.makeDirectory base path = .error .alreadyExists := by
    simp [makeDirectory, hPath, hLocate, hEntry, bind, Except.bind]
  rw [makeAll, makeDirectories]
  split
  · rfl
  · simp only [hMade]

/-- A file is still written where one was written before. -/
theorem locateFile_put {t : Tree} {base here : Location} {path : String} {content : ByteArray}
    (h : t.locateFile base path = .ok here) :
    (t.put here (.file content)).locateFile base path = .ok here := by
  obtain ⟨hLocate, hEntry⟩ := locate_of_locateFile h
  have hSlash : Path.endsInSlash path = false := by
    unfold locateFile at h
    obtain ⟨place, -, h⟩ := bind_eq_ok h
    split at h
    · cases h
    · rename_i hSlash
      exact Bool.eq_false_iff.mpr hSlash
  simp [locateFile, Path.withoutFinalSlashes_eq hSlash, locate_put hEntry _ hLocate, hSlash,
    entry?_put_self (ne_nil_of_not_directory hEntry), bind, Except.bind]

end Tree

end LintRepair.Files
