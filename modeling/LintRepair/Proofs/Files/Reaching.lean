import LintRepair.Proofs.Files.Paths

/-! Directories that are reached from the top by names. Whatever a path leads to stands in such a
directory, and a name joined to the directory's own path leads where the name alone leads from there.
A path that goes on behind a directory's path shows that there is such a directory. -/

namespace LintRepair.Files

namespace Tree

/-- Names lead from the top to a directory, through directories only. -/
inductive Reaches (t : Tree) : Location → Prop where
  | top : Reaches t []
  | down {here : Location} {name : String} (above : Reaches t here) (named : IsName name)
      (stands : t.entry? (here ++ [name]) = some .directory) : Reaches t (here ++ [name])

/-- A place in a directory that is reached, whether or not anything stands there. -/
inductive Placed (t : Tree) : Location → Prop where
  | top : Placed t []
  | below {here : Location} {name : String} (above : Reaches t here) (named : IsName name) :
      Placed t (here ++ [name])

variable {t : Tree} {here : Location}

/-- What is reached is a directory. -/
theorem Reaches.directory (h : Reaches t here) : t.entry? here = some .directory := by
  cases h with
  | top => rfl
  | down above named stands => exact stands

theorem Reaches.names (h : Reaches t here) : ∀ name ∈ here, IsName name := by
  induction h with
  | top => simp
  | down above named stands ih =>
      intro name hMem
      rcases List.mem_append.mp hMem with hAbove | hLast
      · exact ih name hAbove
      · exact List.mem_singleton.mp hLast ▸ named

theorem Reaches.placed (h : Reaches t here) : Placed t here := by
  cases h with
  | top => exact .top
  | down above named stands => exact .below above named

theorem Reaches.dropLast (h : Reaches t here) : Reaches t here.dropLast := by
  cases h with
  | top => exact .top
  | down above named stands => simpa using above

/-- Everything on the way to a location is reached. -/
theorem Reaches.of_prefix {there : Location} (h : Reaches t here) (hPrefix : there <+: here) :
    Reaches t there := by
  induction h with
  | top => exact List.prefix_nil.mp hPrefix ▸ .top
  | down above named stands ih =>
      rcases List.prefix_concat_iff.mp hPrefix with rfl | hAbove
      · exact .down above named stands
      · exact ih hAbove

theorem Placed.reaches (h : Placed t here) (hStands : t.entry? here = some .directory) :
    Reaches t here := by
  cases h with
  | top => exact .top
  | below above named => exact .down above named hStands

/-! ### Following names -/

/-- Following names in two goes is following all of them. -/
theorem follow_append (front back : List (List Char)) :
    t.follow here (front ++ back) = (t.follow here front).bind fun there => t.follow there back := by
  induction front generalizing here with
  | nil => rfl
  | cons name front ih =>
      rw [List.cons_append, follow, follow]
      cases t.entry? here with
      | none => rfl
      | some e =>
          cases e with
          | file content => rfl
          | directory =>
              dsimp only
              split
              · exact ih
              · split
                · exact ih
                · split
                  · rfl
                  · exact ih

theorem follow_name {name : String} (h : IsName name) (hHere : t.entry? here = some .directory)
    (names : List (List Char)) :
    t.follow here (name.toList :: names) = t.follow (here ++ [name]) names := by
  have hStay : (name.toList.isEmpty || name.toList == ['.']) = false := by
    have hDot : name.toList ≠ ".".toList := fun hSame => h.ne_dot (String.toList_inj.mp hSame)
    simpa [h.ne_empty] using hDot
  have hUp : (name.toList == ['.', '.']) = false := by
    have hDots : name.toList ≠ "..".toList := fun hSame => h.ne_dots (String.toList_inj.mp hSame)
    simpa using hDots
  rw [follow, hHere]
  dsimp only
  rw [hStay, hUp, String.ofList_toList, if_neg Bool.false_ne_true, if_neg Bool.false_ne_true,
    if_neg (Nat.not_lt.mpr h.short)]

/-- From the top the names of a directory lead to it. -/
theorem Reaches.follow (h : Reaches t here) (names : List (List Char)) :
    t.follow [] (here.map String.toList ++ names) = t.follow here names := by
  induction h generalizing names with
  | top => rfl
  | @down here name above named stands ih =>
      rw [List.map_append, List.append_assoc, ih]
      exact follow_name named above.directory names

/-- Only a directory lets names lead on. -/
theorem directory_of_follow {target : Location} {names : List (List Char)} (hSome : names ≠ [])
    (h : t.follow here names = .ok target) : t.entry? here = some .directory := by
  cases names with
  | nil => exact absurd rfl hSome
  | cons name names =>
      unfold follow at h
      split at h
      · cases h
      · cases h
      · assumption

theorem isName_ofList {name : List Char} (hStay : (name.isEmpty || name == ['.']) ≠ true)
    (hUp : (name == ['.', '.']) ≠ true) (hSlash : '/' ∉ name) (hNul : '\x00' ∉ name)
    (hShort : (String.ofList name).utf8ByteSize ≤ longestName) : IsName (String.ofList name) := by
  have hText : ∀ s : String, String.ofList name = s → name = s.toList := by
    rintro _ rfl
    exact String.toList_ofList.symm
  refine ⟨fun hNone => hStay ?_, fun hDot => hStay ?_, fun hDots => hUp ?_, by simpa using hSlash,
    by simpa using hNul, hShort⟩
  · rw [hText _ hNone]
    rfl
  · rw [hText _ hDot]
    rfl
  · rw [hText _ hDots]
    rfl

/-- Parts of a path lead from a place in a directory to a place in a directory. -/
theorem Placed.follow {target : Location} {names : List (List Char)} (h : Placed t here)
    (hNames : ∀ name ∈ names, '/' ∉ name ∧ '\x00' ∉ name) (hFollow : t.follow here names = .ok target) :
    Placed t target := by
  induction names generalizing here with
  | nil => exact Except.ok.inj hFollow ▸ h
  | cons name names ih =>
      have hHere := h.reaches (directory_of_follow (List.cons_ne_nil _ _) hFollow)
      obtain ⟨⟨hSlash, hNul⟩, hMore⟩ := List.forall_mem_cons.mp hNames
      rw [Tree.follow, hHere.directory] at hFollow
      dsimp only at hFollow
      split at hFollow
      · exact ih h hMore hFollow
      · rename_i hStay
        split at hFollow
        · exact ih hHere.dropLast.placed hMore hFollow
        · rename_i hUp
          split at hFollow
          · cases hFollow
          · rename_i hLong
            have hName := isName_ofList hStay hUp hSlash hNul (Nat.not_lt.mp hLong)
            exact ih (.below hHere hName) hMore hFollow

/-! ### Finding what a path leads to -/

/-- A path has a location exactly if it is neither empty nor too long, holds no null character and
its parts can be followed. -/
theorem locate_eq_ok_iff {base : Location} {path : String} : t.locate base path = .ok here ↔
    path ≠ "" ∧ '\x00' ∉ path.toList ∧ path.utf8ByteSize ≤ longestPath ∧
      t.follow (if Path.isAbsolute path then [] else base) (Path.parts path.toList) = .ok here := by
  unfold locate
  by_cases hEmpty : path = ""
  · simp [hEmpty]
  · by_cases hNul : '\x00' ∈ path.toList
    · simp [hEmpty, hNul]
    · by_cases hLong : longestPath < path.utf8ByteSize
      · simp [hEmpty, hNul, hLong, Nat.not_le.mpr hLong]
      · simp [hEmpty, hNul, hLong, Nat.not_lt.mp hLong]

theorem find_eq_ok_iff {base : Location} {path : String} {e : Entry} :
    t.find base path = .ok (here, e) ↔ t.locate base path = .ok here ∧ t.entry? here = some e := by
  unfold find
  cases t.locate base path with
  | error cause => simp [bind, Except.bind]
  | ok there =>
      cases hEntry : t.entry? there with
      | none =>
          simp only [bind, Except.bind, hEntry, Except.ok.injEq, reduceCtorEq, false_iff, not_and]
          rintro rfl
          simp [hEntry]
      | some found =>
          simp only [bind, Except.bind, hEntry, Except.ok.injEq, Prod.mk.injEq]
          refine and_congr_right ?_
          rintro rfl
          simp [hEntry]

/-- A path of an existing directory leads from a directory that is reached to another one. -/
theorem reaches_of_find {base : Location} {path : String} (hBase : Reaches t base)
    (h : t.find base path = .ok (here, .directory)) : Reaches t here := by
  obtain ⟨hLocate, hEntry⟩ := find_eq_ok_iff.mp h
  obtain ⟨-, hNul, -, hFollow⟩ := locate_eq_ok_iff.mp hLocate
  have hParts : ∀ part ∈ Path.parts path.toList, '/' ∉ part ∧ '\x00' ∉ part := fun part hPart =>
    ⟨fun hMem => (Path.mem_of_mem_parts hPart hMem).2 rfl,
      fun hMem => hNul (Path.mem_of_mem_parts hPart hMem).1⟩
  have hStart : Placed t (if Path.isAbsolute path then [] else base) := by
    split
    · exact .top
    · exact hBase.placed
  exact (hStart.follow hParts hFollow).reaches hEntry

/-- Behind a directory's own path a name leads where it leads from the directory, as long as the
whole path is not too long. -/
theorem Reaches.find_join (h : Reaches t here) {base there : Location} {name : String} {e : Entry}
    (hSome : name ≠ "") (hRelative : Path.isAbsolute name = false) :
    t.find base (Path.join here.path name) = .ok (there, e) ↔
      (Path.join here.path name).utf8ByteSize ≤ longestPath ∧ t.find here name = .ok (there, e) := by
  have hText := Path.toList_join h.names hRelative
  have hJoined : Path.join here.path name ≠ "" := by
    intro hNone
    rw [hNone] at hText
    simp at hText
  have hAbsolute : Path.isAbsolute (Path.join here.path name) = true := by
    rw [Path.isAbsolute, hText]
    cases here <;> rfl
  have hNul : '\x00' ∈ (Path.join here.path name).toList ↔ '\x00' ∈ name.toList := by
    rw [hText, List.mem_append, List.mem_cons]
    simp [Path.notMem_spelled h.names]
  have hShort : (Path.join here.path name).utf8ByteSize ≤ longestPath →
      name.utf8ByteSize ≤ longestPath := by
    have hAppend : Path.join here.path name = String.ofList (Path.spelled here ++ ['/']) ++ name := by
      rw [← String.toList_inj, hText]
      simp
    rw [hAppend, String.utf8ByteSize_append]
    exact Nat.le_trans (Nat.le_add_left ..)
  have hFollow : t.follow [] (Path.parts (Path.join here.path name).toList) =
      t.follow here (Path.parts name.toList) := by
    rw [hText, Path.parts_spelled h.names, Tree.follow]
    exact h.follow _
  rw [find_eq_ok_iff, find_eq_ok_iff, locate_eq_ok_iff, locate_eq_ok_iff, hAbsolute, hRelative,
    if_pos rfl, if_neg Bool.false_ne_true, hFollow, hNul]
  constructor
  · rintro ⟨⟨-, hClean, hFits, hLeads⟩, hStands⟩
    exact ⟨hFits, ⟨hSome, hClean, hShort hFits, hLeads⟩, hStands⟩
  · rintro ⟨hFits, ⟨-, hClean, -, hLeads⟩, hStands⟩
    exact ⟨⟨hJoined, hClean, hFits, hLeads⟩, hStands⟩

/-- What stands behind a path that goes on shows a directory at the path. -/
theorem find_of_find_join {base : Location} {directory path : String} {e : Entry}
    (hDirectory : directory ≠ "") (hRelative : Path.isAbsolute path = false)
    (h : t.find base (Path.join directory path) = .ok (here, e)) :
    ∃ there, t.find base directory = .ok (there, .directory) := by
  obtain ⟨front, hParts, hFront, hAbsolute, more, hMore⟩ := Path.join_eq hDirectory hRelative
  obtain ⟨hLocate, -⟩ := find_eq_ok_iff.mp h
  obtain ⟨-, hNul, hShort, hFollow⟩ := locate_eq_ok_iff.mp hLocate
  rw [hAbsolute, ← hParts, follow_append] at hFollow
  obtain ⟨there, hThere, hRest⟩ := bind_eq_ok hFollow
  have hEntry := directory_of_follow (Path.parts_ne_nil _) hRest
  refine ⟨there, find_eq_ok_iff.mpr ⟨locate_eq_ok_iff.mpr ⟨hDirectory, ?_, ?_, ?_⟩, hEntry⟩⟩
  · rw [hMore, String.toList_append, List.mem_append, not_or] at hNul
    exact hNul.1
  · rw [hMore, String.utf8ByteSize_append] at hShort
    omega
  · rcases hFront with hSame | hSlash
    · rw [hSame]
      exact hThere
    · -- The slash at the end stays in the directory.
      rw [hSlash, follow_append, hThere]
      change t.follow there [[]] = .ok there
      rw [Tree.follow, hEntry]
      rfl

end Tree

end LintRepair.Files
