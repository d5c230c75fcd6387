import LintRepair.Proofs.Files.Directories
import Mathlib.Data.List.Induction

/-! Paths as texts. A path is cut at its slashes, what is joined to a directory is cut where the
directory ends, and the parent of a path is shorter. The path of a location is written name by name,
so going to the parent takes the last name away. -/

namespace LintRepair.Files

/-- A name that an entry of a directory may have: one part of a path, neither a step upwards nor one
that stays in place, and not too long. -/
structure IsName (name : String) : Prop where
  ne_empty : name ≠ ""
  ne_dot : name ≠ "."
  ne_dots : name ≠ ".."
  slash : '/' ∉ name.toList
  nul : '\x00' ∉ name.toList
  short : name.utf8ByteSize ≤ Tree.longestName

namespace Path

/-! ### Cutting a path -/

/-- The parts of a path are what the slashes divide. -/
theorem parts_eq_splitOn (s : List Char) : parts s = s.splitOn '/' := by
  induction s with
  | nil => rfl
  | cons c rest ih =>
      rw [parts, List.splitOn_cons_eq_if_modifyHead, ih]
      by_cases hSlash : c = '/'
      · simp [hSlash]
      · rw [if_neg hSlash, if_neg (by simpa using hSlash)]
        cases hSplit : rest.splitOn '/' with
        | nil => exact absurd hSplit (List.splitOn_ne_nil '/' rest)
        | cons part more => rfl

theorem parts_ne_nil (s : List Char) : parts s ≠ [] := by
  rw [parts_eq_splitOn]
  exact List.splitOn_ne_nil '/' s

/-- A slash divides the parts in front of it from the ones behind. -/
theorem parts_append (front back : List Char) :
    parts (front ++ '/' :: back) = parts front ++ parts back := by
  simp only [parts_eq_splitOn, List.splitOn_append_cons_self]

theorem parts_of_notMem {name : List Char} (h : '/' ∉ name) : parts name = [name] := by
  rw [parts_eq_splitOn, List.splitOn_eq_singleton h]

/-- The parts hold the characters of the path, apart from the slashes. -/
theorem mem_of_mem_parts {s part : List Char} (h : part ∈ parts s) {c : Char} (hc : c ∈ part) :
    c ∈ s ∧ c ≠ '/' := by
  induction s generalizing part with
  | nil =>
      obtain rfl := List.mem_singleton.mp h
      exact absurd hc List.not_mem_nil
  | cons d rest ih =>
      rw [parts] at h
      split at h
      · rcases List.mem_cons.mp h with rfl | hLater
        · exact absurd hc List.not_mem_nil
        · obtain ⟨hMem, hNe⟩ := ih hLater hc
          exact ⟨List.mem_cons_of_mem d hMem, hNe⟩
      · rename_i hSlash
        split at h
        · rename_i first more hParts
          rw [hParts] at ih
          rcases List.mem_cons.mp h with rfl | hLater
          · rcases List.mem_cons.mp hc with rfl | hIn
            · exact ⟨List.mem_cons_self, hSlash⟩
            · obtain ⟨hMem, hNe⟩ := ih List.mem_cons_self hIn
              exact ⟨List.mem_cons_of_mem d hMem, hNe⟩
          · obtain ⟨hMem, hNe⟩ := ih (List.mem_cons_of_mem first hLater) hc
            exact ⟨List.mem_cons_of_mem d hMem, hNe⟩
        · rename_i hParts
          exact absurd hParts (parts_ne_nil rest)

/-! ### Joining -/

/-- What is joined to a directory has the directory in front, a slash more if it has none, and is cut
behind it. -/
theorem join_eq {directory path : String} (hDirectory : directory ≠ "")
    (hRelative : isAbsolute path = false) : ∃ front, front ++ parts path.toList =
      parts (join directory path).toList ∧ (parts directory.toList = front ∨
        parts directory.toList = front ++ [[]]) ∧
      isAbsolute (join directory path) = isAbsolute directory ∧
      ∃ more, join directory path = directory ++ more := by
  have hEmpty : directory.isEmpty = false := by
    simpa using hDirectory
  have hHead : ∀ more : String, isAbsolute (directory ++ more) = isAbsolute directory := by
    intro more
    have hSome : directory.toList ≠ [] := by simpa using hDirectory
    obtain ⟨c, rest, hList⟩ := List.exists_cons_of_ne_nil hSome
    simp [isAbsolute, hList]
  rw [join, hRelative, hEmpty, Bool.or_false, if_neg Bool.false_ne_true]
  by_cases hSlash : endsInSlash directory = true
  · obtain ⟨front, hFront⟩ : ∃ front, directory.toList = front ++ ['/'] :=
      List.getLast?_eq_some_iff.mp (beq_iff_eq.mp hSlash)
    rw [if_pos hSlash]
    refine ⟨parts front, ?_, .inr ?_, hHead path, path, rfl⟩
    · rw [String.toList_append, hFront, List.append_assoc, List.singleton_append, parts_append]
    · rw [hFront, parts_append]
      rfl
  · rw [if_neg hSlash]
    refine ⟨parts directory.toList, ?_, .inl rfl, ?_, "/" ++ path, String.append_assoc⟩
    · rw [String.toList_append, String.toList_append, List.append_assoc]
      exact (parts_append _ _).symm
    · rw [String.append_assoc]
      exact hHead _

/-! ### Going up -/

theorem length_dropEmptyTail (reversed : List Char) :
    (dropEmptyTail reversed).length ≤ reversed.length := by
  fun_induction dropEmptyTail reversed with
  | case1 | case2 | case5 => simp
  | case3 rest _ ih => exact Nat.le_succ_of_le ih
  | case4 rest ih => exact Nat.le_succ_of_le ih

/-- A parent is shorter than its path, so that every way upwards ends. -/
theorem length_parent {path parent : String} (h : parent? path = some parent) :
    parent.length < path.length := by
  have hTail := length_dropEmptyTail path.toList.reverse
  rw [List.length_reverse, String.length_toList] at hTail
  unfold parent? at h
  split at h
  · cases h
  · cases h
  · rename_i hNil hTop
    obtain rfl := Option.some.inj h
    -- What is left starts with a name, so dropping that name makes it shorter.
    obtain ⟨c, rest, hList⟩ := List.exists_cons_of_ne_nil hNil
    have hName : (c != '/') = true := by
      rcases dropEmptyTail_cases path.toList.reverse with hSlash | hHead
      · exact absurd hSlash hTop
      · rw [hList, List.head?_cons] at hHead
        simpa using fun hc => hHead (congrArg some hc)
    have hDrop : (c :: rest).dropWhile (· != '/') = rest.dropWhile (· != '/') :=
      List.dropWhile_cons_of_pos hName
    have hFront := length_dropEmptyTail (rest.dropWhile (· != '/'))
    have hRest := (List.dropWhile_sublist (· != '/') (l := rest)).length_le
    rw [hList, List.length_cons] at hTail
    rw [hList, hDrop, String.length_ofList, List.length_reverse]
    omega

theorem getLast?_dropEmptyTail {reversed : List Char} (h : reversed.getLast? = some '/') :
    (dropEmptyTail reversed).getLast? = some '/' := by
  fun_induction dropEmptyTail reversed with
  | case1 | case2 | case5 => exact h
  | case3 rest hSome ih =>
      refine ih ?_
      obtain ⟨c, rest, rfl⟩ := List.exists_cons_of_ne_nil hSome
      exact h
  | case4 rest ih => exact ih h

/-- Above an absolute path all paths are absolute. -/
theorem isAbsolute_parent {path parent : String} (h : parent? path = some parent)
    (hAbsolute : isAbsolute path = true) : isAbsolute parent = true := by
  have hTop : (dropEmptyTail path.toList.reverse).getLast? = some '/' := by
    refine getLast?_dropEmptyTail ?_
    rw [List.getLast?_reverse]
    exact beq_iff_eq.mp hAbsolute
  unfold parent? at h
  split at h
  · cases h
  · cases h
  · obtain rfl := Option.some.inj h
    generalize dropEmptyTail path.toList.reverse = reversed at hTop
    obtain ⟨front, rfl⟩ := List.getLast?_eq_some_iff.mp hTop
    have hLast : ((front ++ ['/']).dropWhile (· != '/')).getLast? = some '/' := by
      rw [List.dropWhile_append]
      split <;> simp_all
    rw [isAbsolute, String.toList_ofList, List.head?_reverse, getLast?_dropEmptyTail hLast]
    rfl

/-! ### The path of a location -/

/-- The path of a location below the top, each name with a slash before it. -/
def spelled (here : Location) : List Char := here.flatMap fun name => '/' :: name.toList

theorem spelled_concat (here : Location) (name : String) :
    spelled (here ++ [name]) = spelled here ++ '/' :: name.toList := by
  simp [spelled]

theorem toList_path {here : Location} (h : here ≠ []) : here.path.toList = spelled here := by
  have hSome : here.isEmpty = false := by simpa using h
  rw [Location.path, hSome, if_neg Bool.false_ne_true]
  simp [spelled, List.flatMap, Function.comp_def]

theorem isAbsolute_path (here : Location) : isAbsolute here.path = true := by
  cases here with
  | nil => rfl
  | cons name here =>
      rw [isAbsolute, toList_path (List.cons_ne_nil name here)]
      rfl

/-- The last name of a path, the last character first. -/
theorem exists_reverse_name {name : String} (h : IsName name) :
    ∃ c rest, name.toList.reverse = c :: rest ∧ c ≠ '/' ∧ '/' ∉ rest ∧ c :: rest ≠ ['.'] := by
  have hSome : name.toList.reverse ≠ [] := by simpa using h.ne_empty
  obtain ⟨c, rest, hList⟩ := List.exists_cons_of_ne_nil hSome
  have hSlash : '/' ∉ c :: rest := by
    rw [← hList, List.mem_reverse]
    exact h.slash
  rw [List.mem_cons, not_or] at hSlash
  refine ⟨c, rest, hList, Ne.symm hSlash.1, hSlash.2, fun hDot => h.ne_dot ?_⟩
  rw [hDot, List.reverse_eq_iff] at hList
  exact String.toList_inj.mp hList

theorem notMem_spelled {here : Location} (h : ∀ name ∈ here, IsName name) :
    '\x00' ∉ spelled here := by
  intro hMem
  obtain ⟨name, hName, hChar⟩ := List.mem_flatMap.mp hMem
  exact (h name hName).nul (by simpa using hChar)

/-- What is joined to the path of a location is one more name behind it. -/
theorem toList_join {here : Location} (h : ∀ name ∈ here, IsName name) {path : String}
    (hRelative : isAbsolute path = false) :
    (join here.path path).toList = spelled here ++ '/' :: path.toList := by
  rcases List.eq_nil_or_concat here with rfl | ⟨above, last, rfl⟩
  · rw [join, hRelative]
    simp [Location.path, endsInSlash, spelled]
  · rw [List.concat_eq_append] at h ⊢
    have hText := toList_path (List.concat_ne_nil last above)
    obtain ⟨c, rest, hList, hSlash, -⟩ := exists_reverse_name (h last (by simp))
    have hLast : last.toList.getLast? = some c := by
      rw [← List.head?_reverse, hList]
      rfl
    have hEnd : endsInSlash (Location.path (above ++ [last])) = false := by
      simp [endsInSlash, hText, spelled_concat, List.getLast?_append, List.getLast?_cons, hLast,
        hSlash]
    have hSome : (Location.path (above ++ [last])).isEmpty = false := by
      refine Bool.eq_false_iff.mpr fun hEmpty => ?_
      rw [String.isEmpty_iff.mp hEmpty, spelled_concat] at hText
      simp at hText
    rw [join, hRelative, hSome, hEnd]
    simp [hText]

/-- The parts of the path of a location are its names, behind the root. -/
theorem parts_spelled {here : Location} (h : ∀ name ∈ here, IsName name) (rest : List Char) :
    parts (spelled here ++ '/' :: rest) = [] :: (here.map String.toList ++ parts rest) := by
  induction here using List.reverseRecOn generalizing rest with
  | nil => exact parts_append [] rest
  | append_singleton above last ih =>
      have hAbove : ∀ name ∈ above, IsName name := fun name hMem => h name (by simp [hMem])
      have hLast : '/' ∉ last.toList := (h last (by simp)).slash
      have hText : spelled (above ++ [last]) ++ '/' :: rest =
          spelled above ++ '/' :: (last.toList ++ '/' :: rest) := by
        rw [spelled_concat]
        simp
      rw [hText, ih hAbove, parts_append, parts_of_notMem hLast]
      simp

/-- A path that ends in a name has no empty tail. -/
theorem dropEmptyTail_name {name : String} (h : IsName name) (rest : List Char) :
    dropEmptyTail (name.toList.reverse ++ '/' :: rest) = name.toList.reverse ++ '/' :: rest := by
  obtain ⟨c, more, hList, hSlash, hMore, hDot⟩ := exists_reverse_name h
  rw [hList, List.cons_append]
  refine dropEmptyTail.eq_5 _ (by simp) (by simp [hSlash]) (by simp [hSlash]) ?_
  intro tail hSame
  obtain ⟨rfl, hTail⟩ := List.cons.inj hSame
  cases more with
  | nil => exact hDot rfl
  | cons d more => exact hMore ((List.cons.inj hTail).1 ▸ List.mem_cons_self)

/-- The parent of a location's path is the path of the location above. -/
theorem parent?_path {here : Location} {name : String} (hAbove : ∀ n ∈ here, IsName n)
    (h : IsName name) : parent? (Location.path (here ++ [name])) = some here.path := by
  have hText : (Location.path (here ++ [name])).toList.reverse =
      name.toList.reverse ++ '/' :: (spelled here).reverse := by
    rw [toList_path (by simp), spelled_concat]
    simp
  have hName : (name.toList.reverse ++ '/' :: (spelled here).reverse).dropWhile (· != '/') =
      '/' :: (spelled here).reverse := by
    have hAll : ∀ c ∈ name.toList.reverse, (c != '/') = true := by
      intro c hc
      rw [List.mem_reverse] at hc
      simpa using fun hSlash : c = '/' => h.slash (hSlash ▸ hc)
    rw [List.dropWhile_append_of_pos hAll]
    rfl
  -- Above the top there is nothing but its slash; any other location ends in a name again.
  have hRest : String.ofList (dropEmptyTail ('/' :: (spelled here).reverse)).reverse = here.path := by
    rcases List.eq_nil_or_concat here with rfl | ⟨above, last, rfl⟩
    · rfl
    · rw [List.concat_eq_append] at hAbove ⊢
      have hLast := hAbove last (by simp)
      have hSpelled : (spelled (above ++ [last])).reverse =
          last.toList.reverse ++ '/' :: (spelled above).reverse := by
        rw [spelled_concat]
        simp
      rw [dropEmptyTail.eq_3 _ (by simp [hSpelled]), hSpelled, dropEmptyTail_name hLast, ← hSpelled,
        List.reverse_reverse, ← toList_path (by simp), String.ofList_toList]
  obtain ⟨c, more, hList, hSlash, -⟩ := exists_reverse_name h
  unfold parent?
  rw [hText, dropEmptyTail_name h]
  split
  · rename_i hNil
    simp [hList] at hNil
  · rename_i hTop
    rw [hList, List.cons_append] at hTop
    exact absurd (List.cons.inj hTop).1 hSlash
  · rw [hName, hRest]

end Path

end LintRepair.Files
