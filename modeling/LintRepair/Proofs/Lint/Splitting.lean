import LintRepair.Proofs.Glob.Alternation
import LintRepair.Proofs.Lint.Ownership

/-! A target whose pattern holds alternatives, and the targets it may be split into, one for each of
them. Both ways the same files have an owner, and where the owner is one of the copies it was the
target they are copies of. -/

namespace LintRepair

open Glob (grouped IsFlat IsWord)

/-- Copies of a target in a row, each with one of the words between the two pieces of its pattern. -/
def Target.split (t : Target) (front back : String) (words : List String) : List Target :=
  words.map fun word => { t with pattern := front ++ word ++ back }

namespace Selection

/-- Where a target came from, if so many copies stand in place of the one at a position. -/
def origin (place count i : Nat) : Nat :=
  if i < place then i else if i < place + count then place else i + 1 - count

theorem origin_of_lt {place count i : Nat} (h : i < place) : origin place count i = i := if_pos h

theorem origin_copy {place count i : Nat} (h : i < count) : origin place count (place + i) = place := by
  rw [origin, if_neg (Nat.not_lt.mpr (Nat.le_add_right ..)), if_pos (Nat.add_lt_add_left h place)]

theorem origin_later (place count i : Nat) :
    origin place count (place + (count + i)) = place + (1 + i) := by
  rw [origin, if_neg (by omega), if_neg (by omega)]
  omega

section

variable {front back : String} {words : List String}

/-- A group of words matches as one of the words does in its place. -/
theorem matches_grouped (hFront : IsFlat front.toList) (hBack : IsFlat back.toList)
    (hSome : words ≠ []) (hWords : ∀ word ∈ words, IsWord word.toList) (path : String) :
    Matches (grouped front back words) path ↔
      ∃ word ∈ words, Matches (front ++ word ++ back) path := by
  obtain ⟨before, after, hWord, hGroup⟩ := Glob.parse_around front back hFront hBack
  have hEach : ∀ word ∈ words, (Matches (front ++ word ++ back) path ↔
      Glob.isMatch (before ++ (word.toList.map Glob.letterToken ++ after)) path = true) := by
    intro word hMem
    simp [Matches, hWord word (hWords word hMem)]
  have hParsed : Matches (grouped front back words) path ↔ Glob.isMatch
      (before ++ .alternatives (words.map fun word => word.toList.map Glob.letterToken) :: after)
      path = true := by
    simp [Matches, hGroup words hSome hWords]
  have hLists : words.map String.toList ≠ [] := by simpa using hSome
  have hUnion := Glob.isMatch_words hLists
    (by simpa using fun word hMem => (hWords word hMem).1) before after path
  rw [List.map_map] at hUnion
  rw [hParsed]
  refine hUnion.trans ?_
  simp only [List.mem_map, exists_exists_and_eq_and]
  exact exists_congr fun word => and_congr_right fun hMem => (hEach word hMem).symm

variable {t : Target} (h : ∀ path, Matches t.pattern path ↔
  ∃ word ∈ words, Matches (front ++ word ++ back) path)
include h

/-- The copies own what the target owns if it stands alone. -/
theorem isSome_owner?_split (file : String) :
    (owner? (t.split front back words) file).isSome = t.covers file := by
  rw [Bool.eq_iff_iff, covers_iff, h (bare file)]
  constructor
  · intro hOwner
    obtain ⟨i, hi⟩ := Option.isSome_iff_exists.mp hOwner
    obtain ⟨copy, hCopy, hMatches⟩ := (owner?_eq_some_iff.mp hi).matched
    obtain ⟨word, hWord, rfl⟩ := List.mem_map.mp (List.mem_of_getElem? hCopy)
    exact ⟨word, hWord, hMatches⟩
  · rintro ⟨word, hWord, hMatches⟩
    have hCopy : ∃ copy ∈ t.split front back words, Matches copy.pattern (bare file) :=
      ⟨_, List.mem_map_of_mem hWord, hMatches⟩
    obtain ⟨i, hOwns⟩ := exists_owner hCopy
    rw [owner?_eq_some_iff.mpr hOwns]
    rfl

/-- A split moves the owner of a file to a copy, or by as many places as the copies take. -/
theorem owner?_split (earlier later : List Target) (file : String) :
    (owner? (earlier ++ (t.split front back words ++ later)) file).map
        (origin earlier.length words.length) = owner? (earlier ++ t :: later) file := by
  have hLength : (t.split front back words).length = words.length := List.length_map _
  have hCopies := isSome_owner?_split h file
  have hHead : owner? (t :: later) file =
      if t.covers file then some 0 else (owner? later file).map (· + 1) := List.findIdx?_cons
  rw [owner?_append, owner?_append, owner?_append earlier (t :: later), hHead, hLength]
  cases hEarlier : owner? earlier file with
  | some i => exact congrArg some (origin_of_lt (owner?_lt hEarlier))
  | none =>
      cases hOwner : owner? (t.split front back words) file with
      | some j =>
          rw [hOwner, Option.isSome_some] at hCopies
          have hj : j < words.length := hLength ▸ owner?_lt hOwner
          rw [← hCopies, if_pos rfl]
          simp [Nat.add_comm j, origin_copy hj]
      | none =>
          rw [hOwner, Option.isSome_none] at hCopies
          rw [← hCopies, if_neg Bool.false_ne_true]
          cases owner? later file with
          | none => rfl
          | some i =>
              have hMoved := origin_later earlier.length words.length i
              simpa [Nat.add_comm, Nat.add_left_comm, Nat.add_assoc] using hMoved

/-- A target owns a file exactly if one of those it is split into does. -/
theorem owns_split (earlier later : List Target) (file : String) (i : Nat) :
    Owns (earlier ++ t :: later) i file ↔
      ∃ j, Owns (earlier ++ (t.split front back words ++ later)) j file ∧
        origin earlier.length words.length j = i := by
  simp only [← owner?_eq_some_iff, ← owner?_split h, Option.map_eq_some_iff]

end

theorem targets_eq_nil_iff {targets : List Target} {files : List String} :
    Selection.targets targets files = [] ↔ ∀ i, i ∉ positions targets files := by
  rw [← List.map_eq_nil_iff (f := some), map_some_targets, List.map_eq_nil_iff,
    List.eq_nil_iff_forall_not_mem]

/-- A pattern with alternatives between two flat pieces is well formed, as are the patterns with one
of the words in their place, and it matches what any of these match. So a target with that pattern may
be split: it owns a file exactly if one of the copies does, every other target keeps its files, and
the same files select something. -/
theorem alternatives_split (front back : String) (words : List String)
    (hFront : IsFlat front.toList) (hBack : IsFlat back.toList) (hSome : words ≠ [])
    (hWords : ∀ word ∈ words, IsWord word.toList) :
    ((∃ tokens, Glob.parse (grouped front back words) = .ok tokens) ∧
      ∀ word ∈ words, ∃ tokens, Glob.parse (front ++ word ++ back) = .ok tokens) ∧
    (∀ path, Matches (grouped front back words) path ↔
      ∃ word ∈ words, Matches (front ++ word ++ back) path) ∧
    ∀ t earlier later, t.pattern = grouped front back words →
      (∀ file i, Owns (earlier ++ t :: later) i file ↔
        ∃ j, Owns (earlier ++ (t.split front back words ++ later)) j file ∧
          origin earlier.length words.length j = i) ∧
      (∀ files i, i ∈ positions (earlier ++ t :: later) files ↔
        ∃ j ∈ positions (earlier ++ (t.split front back words ++ later)) files,
          origin earlier.length words.length j = i) ∧
      ∀ files, Selection.targets (earlier ++ t :: later) files = [] ↔
        Selection.targets (earlier ++ (t.split front back words ++ later)) files = [] := by
  have hUnion := matches_grouped hFront hBack hSome hWords
  obtain ⟨before, after, hWord, hGroup⟩ := Glob.parse_around front back hFront hBack
  refine ⟨⟨⟨_, hGroup words hSome hWords⟩, fun word hMem => ⟨_, hWord word (hWords word hMem)⟩⟩,
    hUnion, fun t earlier later hPattern => ?_⟩
  have hTarget : ∀ path, Matches t.pattern path ↔
      ∃ word ∈ words, Matches (front ++ word ++ back) path := by
    rw [hPattern]
    exact hUnion
  have hOwns := owns_split hTarget earlier later
  have hPositions : ∀ files i, i ∈ positions (earlier ++ t :: later) files ↔
      ∃ j ∈ positions (earlier ++ (t.split front back words ++ later)) files,
        origin earlier.length words.length j = i := by
    intro files i
    simp only [mem_positions_iff, hOwns]
    constructor
    · rintro ⟨file, hFile, j, hj, hOrigin⟩
      exact ⟨j, ⟨file, hFile, hj⟩, hOrigin⟩
    · rintro ⟨j, ⟨file, hFile, hj⟩, hOrigin⟩
      exact ⟨file, hFile, j, hj, hOrigin⟩
  refine ⟨hOwns, hPositions, fun files => ?_⟩
  rw [targets_eq_nil_iff, targets_eq_nil_iff]
  constructor
  · intro hNone j hj
    exact hNone _ ((hPositions files _).mpr ⟨j, hj, rfl⟩)
  · intro hNone i hi
    obtain ⟨j, hj, -⟩ := (hPositions files i).mp hi
    exact hNone j hj

/-- At a pattern whose double stars touch the group on both sides: around either word they are single
stars as well. -/
theorem alternatives_split_touching :
    (IsFlat "src/**".toList ∧ IsFlat "**/*.rs".toList ∧ ["gen", "out"] ≠ [] ∧
      ∀ word ∈ ["gen", "out"], IsWord word.toList) ∧
    (∀ path, Matches "src/**\x7bgen,out\x7d**/*.rs" path ↔
      Matches "src/**gen**/*.rs" path ∨ Matches "src/**out**/*.rs" path) ∧
    ∀ check fix file i, Owns [⟨"src/**\x7bgen,out\x7d**/*.rs", .rust, check, fix⟩] i file ↔
      ∃ j, Owns [⟨"src/**gen**/*.rs", .rust, check, fix⟩, ⟨"src/**out**/*.rs", .rust, check, fix⟩] j
        file ∧ origin 0 2 j = i := by
  have hFront : IsFlat "src/**".toList := by decide
  have hBack : IsFlat "**/*.rs".toList := by decide
  have hSome : ["gen", "out"] ≠ [] := by decide
  have hWords : ∀ word ∈ ["gen", "out"], IsWord word.toList := by decide
  have hText : grouped "src/**" "**/*.rs" ["gen", "out"] = "src/**\x7bgen,out\x7d**/*.rs" := by decide
  obtain ⟨-, hUnion, hSplit⟩ :=
    alternatives_split "src/**" "**/*.rs" ["gen", "out"] hFront hBack hSome hWords
  rw [hText] at hUnion hSplit
  refine ⟨⟨hFront, hBack, hSome, hWords⟩, fun path => ?_, fun check fix => ?_⟩
  · refine (hUnion path).trans ?_
    simp only [List.mem_cons, List.not_mem_nil, or_false, exists_eq_or_imp, exists_eq_left]
    rfl
  · exact (hSplit ⟨"src/**\x7bgen,out\x7d**/*.rs", .rust, check, fix⟩ [] [] rfl).1

end Selection

end LintRepair
