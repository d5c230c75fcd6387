import LintRepair.Files.Tree
import LintRepair.Proofs.Steps

/-! What writing does to a tree. A file that was written is read back under the path it was written
to: the names on the way lead through directories, and a directory is never the place of the file.
Making directories touches no file. -/

namespace LintRepair.Files

theorem Path.withoutFinalSlashes_eq {path : String} (h : Path.endsInSlash path = false) :
    Path.withoutFinalSlashes path = path := by
  have hLast : path.toList.reverse.head? ≠ some '/' := by
    rw [List.head?_reverse]
    simpa [Path.endsInSlash] using h
  unfold withoutFinalSlashes
  rw [List.dropWhile_beq_eq_self_of_head?_ne hLast, List.reverse_reverse]
  split
  · rename_i hEmpty
    simp [String.toList_eq_nil_iff.mp hEmpty]
  · exact String.ofList_toList

namespace Tree

theorem entry?_put_self {t : Tree} {here : Location} (h : here ≠ []) (e : Entry) :
    entry? (t.put here e) here = some e := by
  unfold entry? put
  simp [h]

theorem lookup_filter_ne {here there : Location} (h : there ≠ here)
    (entries : List (Location × Entry)) :
    (entries.filter (·.1 != here)).lookup there = entries.lookup there := by
  have hNe : (there == here) = false := beq_eq_false_iff_ne.mpr h
  induction entries with
  | nil => rfl
  | cons entry entries ih =>
      obtain ⟨place, e⟩ := entry
      by_cases hPlace : place = here
      · subst hPlace
        simp [List.lookup_cons, hNe, ih]
      · simp [hPlace, List.lookup_cons, ih]

/-- What is put at a location changes no other one. -/
theorem entry?_put_of_ne {t : Tree} {here there : Location} (h : there ≠ here) (e : Entry) :
    entry? (t.put here e) there = t.entry? there := by
  have hNe : (there == here) = false := beq_eq_false_iff_ne.mpr h
  unfold entry? put
  simp [List.lookup_cons, hNe, lookup_filter_ne h]

/-- The top is a directory, so only other locations lack one. -/
theorem ne_nil_of_not_directory {t : Tree} {here : Location} (h : t.entry? here ≠ some .directory) :
    here ≠ [] := by
  rintro rfl
  exact h rfl

/-- Putting something where there is no directory changes no way that leads
somewhere: the way goes through directories only. -/
theorem follow_put {t : Tree} {here : Location} (h : t.entry? here ≠ some .directory) (e : Entry)
    {names : List (List Char)} {start target : Location} (hFollow : t.follow start names = .ok target) :
    (t.put here e).follow start names = .ok target := by
  induction names generalizing start with
  | nil => exact hFollow
  | cons name names ih =>
      have hDirectory : t.entry? start = some .directory := by
        unfold follow at hFollow
        split at hFollow
        · cases hFollow
        · cases hFollow
        · assumption
      -- The way goes on from a directory, so it does not pass the place that changes.
      have hNe : start ≠ here := by
        rintro rfl
        exact h hDirectory
      rw [follow, hDirectory] at hFollow
      rw [follow, entry?_put_of_ne hNe, hDirectory]
      dsimp only at hFollow ⊢
      split at hFollow
      · rename_i hStay
        rw [if_pos hStay]
        exact ih hFollow
      · rename_i hStay
        rw [if_neg hStay]
        split at hFollow
        · rename_i hUp
          rw [if_pos hUp]
          exact ih hFollow
        · rename_i hUp
          rw [if_neg hUp]
          split at hFollow
          · cases hFollow
          · rename_i hShort
            rw [if_neg hShort]
            exact ih hFollow

/-- Paths lead where they led before, unless a directory is replaced. -/
theorem locate_put {t : Tree} {here : Location} (h : t.entry? here ≠ some .directory) (e : Entry)
    {base target : Location} {path : String} (hLocate : t.locate base path = .ok target) :
    (t.put here e).locate base path = .ok target := by
  unfold locate at hLocate ⊢
  split at hLocate
  · cases hLocate
  · rename_i hPath
    rw [if_neg hPath]
    split at hLocate
    · cases hLocate
    · rename_i hNul
      rw [if_neg hNul]
      split at hLocate
      · cases hLocate
      · rename_i hLong
        rw [if_neg hLong]
        exact follow_put h e hLocate

/-- A file stands where its path leads, and no directory does. -/
theorem locate_of_locateFile {t : Tree} {base here : Location} {path : String}
    (h : t.locateFile base path = .ok here) :
    t.locate base path = .ok here ∧ t.entry? here ≠ some .directory := by
  unfold locateFile at h
  obtain ⟨place, hLocate, h⟩ := bind_eq_ok h
  split at h
  · cases h
  · rename_i hSlash
    rw [Path.withoutFinalSlashes_eq (Bool.eq_false_iff.mpr hSlash)] at hLocate
    split at h
    · cases h
    · rename_i hFile
      obtain rfl := Except.ok.inj h
      exact ⟨hLocate, by simp [hFile]⟩
    · rename_i hNone
      obtain ⟨-, -, h⟩ := bind_eq_ok h
      obtain rfl := Except.ok.inj h
      exact ⟨hLocate, by simp [hNone]⟩

/-- A write that succeeds puts the file where its path leads. -/
theorem write_eq {t after : Tree} {base : Location} {path : String} {content : ByteArray}
    (h : t.write base path content = .ok after) :
    ∃ here, t.locate base path = .ok here ∧ t.entry? here ≠ some .directory ∧
      after = t.put here (.file content) := by
  unfold write at h
  obtain ⟨here, hPlace, h⟩ := bind_eq_ok h
  obtain ⟨hLocate, hEntry⟩ := locate_of_locateFile hPlace
  exact ⟨here, hLocate, hEntry, (Except.ok.inj h).symm⟩

/-- What was written is found under the path it was written to. -/
theorem find_write {t after : Tree} {base : Location} {path : String} {content : ByteArray}
    (h : t.write base path content = .ok after) :
    ∃ here, after.find base path = .ok (here, .file content) := by
  obtain ⟨here, hLocate, hEntry, rfl⟩ := write_eq h
  refine ⟨here, ?_⟩
  simp [find, locate_put hEntry _ hLocate, entry?_put_self (ne_nil_of_not_directory hEntry), bind,
    Except.bind]

theorem fromUTF8?_toByteArray (text : String) : String.fromUTF8? text.toByteArray = some text := by
  simp [String.fromUTF8?, text.isValidUTF8, String.fromUTF8]

/-- What was written as text is read as text. -/
theorem readText_write {t after : Tree} {base : Location} {path text : String}
    (h : t.write base path text.toUTF8 = .ok after) :
    after.doesExist base path = true ∧ after.readText base path = .ok text := by
  obtain ⟨here, hFind⟩ := find_write h
  refine ⟨by simp [doesExist, hFind, Except.toOption], ?_⟩
  simp [readText, read, hFind, fromUTF8?_toByteArray, bind, Except.bind]

/-- The content of the file at a location, if a file stands there. -/
def content? (t : Tree) (here : Location) : Option ByteArray :=
  match t.entry? here with
  | some (.file content) => some content
  | _ => none

theorem content?_put_of_ne {t : Tree} {here there : Location} (h : there ≠ here) (e : Entry) :
    (t.put here e).content? there = t.content? there := by
  rw [content?, content?, entry?_put_of_ne h]

/-- A new directory takes the place of no file. -/
theorem content?_put_directory {t : Tree} {here : Location} (h : t.entry? here = none) :
    (t.put here .directory).content? = t.content? := by
  funext there
  by_cases hThere : there = here
  · subst hThere
    have hNotDirectory : t.entry? there ≠ some .directory := by simp [h]
    rw [content?, content?, entry?_put_self (ne_nil_of_not_directory hNotDirectory), h]
  · exact content?_put_of_ne hThere .directory

/-- Making a directory changes the content of no file. -/
theorem content?_makeDirectory {t after : Tree} {base : Location} {path : String}
    (h : t.makeDirectory base path = .ok after) : after.content? = t.content? := by
  unfold makeDirectory at h
  obtain ⟨here, -, h⟩ := bind_eq_ok h
  split at h
  · cases h
  · rename_i hNone
    obtain ⟨-, -, h⟩ := bind_eq_ok h
    obtain rfl := Except.ok.inj h
    exact content?_put_directory hNone

/-- However far the making of directories comes, every file keeps its content. -/
theorem content?_makeDirectories (base : Location) (bound : Nat) (path : String) (t : Tree) :
    (makeDirectories base bound path t).2.content? = t.content? := by
  induction bound generalizing path t with
  | zero => rfl
  | succ bound ih =>
      rw [makeDirectories]
      split
      · rfl
      split
      · rename_i hMade
        exact content?_makeDirectory hMade
      · split
        · rfl
        · rename_i parent hParent
          have hAbove := ih parent t
          split
          · rename_i hFailed
            rw [hFailed] at hAbove
            exact hAbove
          · rename_i above hAll
            rw [hAll] at hAbove
            split
            · rename_i hMade
              exact (content?_makeDirectory hMade).trans hAbove
            · split
              · exact hAbove
              · exact hAbove
      · split <;> rfl

theorem content?_makeAll (t : Tree) (base : Location) (path : String) :
    (t.makeAll base path).2.content? = t.content? :=
  content?_makeDirectories base _ path t

end Tree

end LintRepair.Files
