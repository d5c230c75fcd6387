import LintRepair.Config.Discovery
import LintRepair.Proofs.Files.Reaching

/-! The search for a project's root. Going up from a path ends, and the first path with a mark is
taken; for a directory these are the paths of the directories it lies in, so the nearest one with a
mark is the root. A search that starts at its own result comes to nothing else. -/

namespace LintRepair

open Files (Tree Location Entry)

namespace Project

/-! ### Going up from a path -/

/-- The second path is the first one or is above it. -/
inductive Upward : String → String → Prop where
  | stay (path : String) : Upward path path
  | up {path parent top : String} (above : Files.Path.parent? path = some parent)
      (more : Upward parent top) : Upward path top

/-- Of all paths from a start upwards that have a property, this one is met first. -/
structure FirstUpward (p : String → Bool) (start found : String) : Prop where
  upward : Upward start found
  holds : p found = true
  first : ∀ path, Upward start path → p path = true → Upward found path

theorem ancestorsWithin_eq {a b : Nat} {path : String} (ha : path.length < a)
    (hb : path.length < b) : ancestorsWithin a path = ancestorsWithin b path := by
  induction a generalizing b path with
  | zero => omega
  | succ a ih =>
      cases b with
      | zero => omega
      | succ b =>
          rw [ancestorsWithin, ancestorsWithin]
          cases hParent : Files.Path.parent? path with
          | none => rfl
          | some parent =>
              have hShorter := Files.Path.length_parent hParent
              exact congrArg (path :: ·) (ih (by omega) (by omega))

/-- The bound on the number of steps is never reached. -/
theorem ancestors_eq (path : String) : ancestors path =
    path :: match Files.Path.parent? path with
      | some parent => ancestors parent
      | none => [] := by
  rw [ancestors, ancestorsWithin]
  cases hParent : Files.Path.parent? path with
  | none => rfl
  | some parent =>
      have hShorter := Files.Path.length_parent hParent
      exact congrArg (path :: ·) (ancestorsWithin_eq hShorter (Nat.lt_succ_self _))

/-- Searching the paths upwards finds the first one with a property, if there is any. -/
theorem find?_ancestors (p : String → Bool) (start : String) :
    (∃ found, (ancestors start).find? p = some found ∧ FirstUpward p start found) ∨
      (ancestors start).find? p = none ∧ ∀ path, Upward start path → p path = false := by
  induction hLength : start.length using Nat.strongRecOn generalizing start with
  | ind n ih =>
      rw [ancestors_eq, List.find?_cons]
      cases hStart : p start with
      | true => exact .inl ⟨start, rfl, .stay start, hStart, fun path hPath _ => hPath⟩
      | false =>
          cases hParent : Files.Path.parent? start with
          | none =>
              refine .inr ⟨rfl, fun path hPath => ?_⟩
              cases hPath with
              | stay => exact hStart
              | up above more => rw [hParent] at above; cases above
          | some parent =>
              have hShorter := Files.Path.length_parent hParent
              have hUp : ∀ path, Upward start path → p path = true → Upward parent path := by
                intro path hPath hHolds
                cases hPath with
                | stay => rw [hStart] at hHolds; cases hHolds
                | up above more => exact Option.some.inj (hParent.symm.trans above) ▸ more
              rcases ih parent.length (hLength ▸ hShorter) parent rfl with
                ⟨found, hFind, hFound⟩ | ⟨hFind, hNone⟩
              · exact .inl ⟨found, hFind, .up hParent hFound.upward, hFound.holds,
                  fun path hPath hHolds => hFound.first path (hUp path hPath hHolds) hHolds⟩
              · refine .inr ⟨hFind, fun path hPath => Bool.eq_false_iff.mpr fun hHolds => ?_⟩
                have hLater := hNone path (hUp path hPath hHolds)
                rw [hHolds] at hLater
                cases hLater

/-- The root is the first marked directory upwards, and the start if there is none. -/
theorem root_of_find? {tree : Tree} {base : Location} {start : String} {found? : Option String}
    (h : (ancestors start).find? (isRoot tree base) = found?) :
    root tree base start = found?.getD start := by
  rw [root, h]

/-- The root is marked and nothing below it is, or nothing is marked at all. -/
theorem firstUpward_root (tree : Tree) (base : Location) (start : String) :
    FirstUpward (isRoot tree base) start (root tree base start) ∨
      root tree base start = start ∧ ∀ path, Upward start path → isRoot tree base path = false := by
  rcases find?_ancestors (isRoot tree base) start with ⟨found, hFind, hFound⟩ | ⟨hFind, hNone⟩
  · rw [root_of_find? hFind]
    exact .inl hFound
  · exact .inr ⟨root_of_find? hFind, hNone⟩

/-- A search from its own result ends there. -/
theorem root_root (tree : Tree) (base : Location) (start : String) :
    root tree base (root tree base start) = root tree base start := by
  rcases firstUpward_root tree base start with hFound | ⟨hRoot, -⟩
  · have hFind : (ancestors (root tree base start)).find? (isRoot tree base) =
        some (root tree base start) := by
      rw [ancestors_eq]
      exact List.find?_cons_of_pos hFound.holds
    exact root_of_find? hFind
  · rw [hRoot, hRoot]

/-! ### What marks a directory -/

/-- A directory shows an entry: the name leads to it from there, and the directory's path with the
name behind it is not too long to be looked up. -/
def Shows (tree : Tree) (here : Location) (name : String) (e : Entry) : Prop :=
  (Files.Path.join here.path name).utf8ByteSize ≤ Tree.longestPath ∧
    ∃ place, tree.find here name = .ok (place, e)

/-- A directory holds a configuration file, or anything that is called `.git`. -/
def Marked (tree : Tree) (here : Location) : Prop :=
  (∃ name ∈ Config.candidates, ∃ content, Shows tree here name (.file content)) ∨
    ∃ e, Shows tree here ".git" e

/-- The marked directory that comes first on the way from a directory to the top. -/
structure Nearest (tree : Tree) (start here : Location) : Prop where
  above : here <+: start
  marked : Marked tree here
  first : ∀ other, other <+: start → Marked tree other → other <+: here

/-- The root of the project around a directory. -/
def RootOf (tree : Tree) (start here : Location) : Prop :=
  Nearest tree start here ∨ here = start ∧ ∀ other, other <+: start → ¬ Marked tree other

/-- The path of the preferred configuration file in a directory. -/
def Preferred (tree : Tree) (here : Location) (path : String) : Prop :=
  ∃ earlier name later, Config.candidates = earlier ++ name :: later ∧
    (∀ other ∈ earlier, ∀ content, ¬ Shows tree here other (.file content)) ∧
    (∃ content, Shows tree here name (.file content)) ∧ path = Files.Path.join here.path name

theorem isFile_iff {tree : Tree} {base : Location} {path : String} :
    tree.isFile base path = true ↔ ∃ here content, tree.find base path = .ok (here, .file content) := by
  unfold Tree.isFile
  split
  · rename_i here content hFind
    simp [hFind]
  · rename_i hOther
    simp only [Bool.false_eq_true, false_iff, not_exists]
    exact hOther

theorem doesExist_iff {tree : Tree} {base : Location} {path : String} :
    tree.doesExist base path = true ↔ ∃ here e, tree.find base path = .ok (here, e) := by
  unfold Tree.doesExist
  cases tree.find base path with
  | error cause => simp [Except.toOption]
  | ok found => exact iff_of_true rfl ⟨found.1, found.2, rfl⟩

theorem isRoot_iff {tree : Tree} {base : Location} {directory : String} :
    isRoot tree base directory = true ↔
      (∃ name ∈ Config.candidates, tree.isFile base (Files.Path.join directory name) = true) ∨
        tree.doesExist base (Files.Path.join directory ".git") = true := by
  simp [isRoot, Config.find?]

theorem candidates_relative :
    ∀ name ∈ Config.candidates, name ≠ "" ∧ Files.Path.isAbsolute name = false := by decide

section

variable {tree : Tree} {here : Location} (h : tree.Reaches here)
include h

theorem isFile_join_iff (base : Location) {name : String} (hName : name ∈ Config.candidates) :
    tree.isFile base (Files.Path.join here.path name) = true ↔
      ∃ content, Shows tree here name (.file content) := by
  obtain ⟨hSome, hRelative⟩ := candidates_relative name hName
  simp only [isFile_iff, h.find_join hSome hRelative, Shows]
  rw [exists_comm]
  simp

/-- The path of a directory is a root exactly if the directory is marked. -/
theorem isRoot_path_iff (base : Location) : isRoot tree base here.path = true ↔ Marked tree here := by
  have hGit : tree.doesExist base (Files.Path.join here.path ".git") = true ↔
      ∃ e, Shows tree here ".git" e := by
    have hSome : ".git" ≠ "" := by decide
    have hRelative : Files.Path.isAbsolute ".git" = false := by decide
    simp only [doesExist_iff, h.find_join hSome hRelative, Shows]
    rw [exists_comm]
    simp
  rw [isRoot_iff, hGit, Marked]
  exact or_congr_left (exists_congr fun name => and_congr_right fun hName => isFile_join_iff h base hName)

/-- From the path of a directory the search goes through the directories it lies in. -/
theorem find?_directories (base : Location) :
    (∃ there, (ancestors here.path).find? (isRoot tree base) = some there.path ∧
      Nearest tree here there) ∨
      (ancestors here.path).find? (isRoot tree base) = none ∧
        ∀ other, other <+: here → ¬ Marked tree other := by
  induction h with
  | top =>
      have hTop : ancestors (Location.path []) = [Location.path []] := by decide
      rw [hTop]
      by_cases hMarked : Marked tree []
      · have hRoot := (isRoot_path_iff .top base).mpr hMarked
        refine .inl ⟨[], List.find?_cons_of_pos hRoot, List.prefix_rfl, hMarked, fun other hAbove _ => hAbove⟩
      · have hRoot := mt (isRoot_path_iff .top base).mp hMarked
        refine .inr ⟨List.find?_cons_of_neg hRoot, fun other hAbove => ?_⟩
        rw [List.prefix_nil.mp hAbove]
        exact hMarked
  | @down here name above named stands ih =>
      have hHere := Tree.Reaches.down above named stands
      have hUp : ancestors (Location.path (here ++ [name])) =
          Location.path (here ++ [name]) :: ancestors here.path := by
        rw [ancestors_eq, Files.Path.parent?_path above.names named]
      rw [hUp]
      by_cases hMarked : Marked tree (here ++ [name])
      · have hRoot := (isRoot_path_iff hHere base).mpr hMarked
        exact .inl ⟨_, List.find?_cons_of_pos hRoot, List.prefix_rfl, hMarked,
          fun other hAbove _ => hAbove⟩
      · have hRoot := mt (isRoot_path_iff hHere base).mp hMarked
        rw [List.find?_cons_of_neg hRoot]
        -- A marked directory on the way is not the last one, so it is on the way before it.
        have hBefore : ∀ other, other <+: here ++ [name] → Marked tree other → other <+: here := by
          intro other hAbove hOther
          rcases List.prefix_concat_iff.mp hAbove with rfl | hEarlier
          · exact absurd hOther hMarked
          · exact hEarlier
        rcases ih with ⟨there, hFind, hNearest⟩ | ⟨hFind, hNone⟩
        · refine .inl ⟨there, hFind, hNearest.above.trans (List.prefix_append ..), hNearest.marked, ?_⟩
          exact fun other hAbove hOther => hNearest.first other (hBefore other hAbove hOther) hOther
        · exact .inr ⟨hFind, fun other hAbove hOther =>
            hNone other (hBefore other hAbove hOther) hOther⟩

/-- The root around a directory that exists is the path of a directory again. -/
theorem exists_rootOf (base : Location) :
    ∃ there, RootOf tree here there ∧ root tree base here.path = there.path := by
  rcases find?_directories h base with ⟨there, hFind, hNearest⟩ | ⟨hFind, hNone⟩
  · exact ⟨there, .inl hNearest, root_of_find? hFind⟩
  · exact ⟨here, .inr ⟨rfl, hNone⟩, root_of_find? hFind⟩

/-- The configuration of a directory is the first candidate that it shows. -/
theorem find?_config_iff (base : Location) {path : String} :
    Config.find? tree base here.path = some path ↔ Preferred tree here path := by
  have hFile : ∀ name ∈ Config.candidates,
      (tree.isFile base (Files.Path.join here.path name) = true ↔
        ∃ content, Shows tree here name (.file content)) := fun name => isFile_join_iff h base
  unfold Config.find? Preferred
  rw [List.find?_map, Option.map_eq_some_iff]
  constructor
  · rintro ⟨name, hFind, rfl⟩
    obtain ⟨hHolds, earlier, later, hSplit, hEarlier⟩ := List.find?_eq_some_iff_append.mp hFind
    refine ⟨earlier, name, later, hSplit, fun other hOther content hShows => ?_, ?_, rfl⟩
    · have hMem : other ∈ Config.candidates := hSplit ▸ List.mem_append_left _ hOther
      have hNot := hEarlier other hOther
      rw [Function.comp_apply, (hFile other hMem).mpr ⟨content, hShows⟩] at hNot
      cases hNot
    · exact (hFile name (List.mem_of_find?_eq_some hFind)).mp hHolds
  · rintro ⟨earlier, name, later, hSplit, hEarlier, hShows, rfl⟩
    have hMem : name ∈ Config.candidates := hSplit ▸ List.mem_append_right _ List.mem_cons_self
    refine ⟨name, List.find?_eq_some_iff_append.mpr ⟨(hFile name hMem).mpr hShows, earlier, later, hSplit,
      fun other hOther => ?_⟩, rfl⟩
    have hOtherMem : other ∈ Config.candidates := hSplit ▸ List.mem_append_left _ hOther
    rw [Bool.not_eq_true', Bool.eq_false_iff]
    intro hHolds
    obtain ⟨content, hOtherShows⟩ := (hFile other hOtherMem).mp hHolds
    exact hEarlier other hOther content hOtherShows

theorem find?_config_eq_none_iff (base : Location) : Config.find? tree base here.path = none ↔
    ∀ name ∈ Config.candidates, ∀ content, ¬ Shows tree here name (.file content) := by
  unfold Config.find?
  rw [List.find?_eq_none, List.forall_mem_map]
  refine forall₂_congr fun name hName => ?_
  rw [isFile_join_iff h base hName, not_exists]

end

/-- Going up from a path ends, with the first path that has a mark or else with the start, and a
search from there comes to the same. From the path of a directory this is the path of the nearest
directory on the way to the top that holds a configuration or `.git`, or of the directory itself.
Whatever path of an existing directory is given, and if none is given for the current one, the project
is settled at the root around that directory, and its configuration is the preferred one among those
that the root holds, if it holds any. -/
theorem root_search (tree : Tree) (base : Location) :
    (∀ start, (FirstUpward (isRoot tree base) start (root tree base start) ∨
        root tree base start = start ∧ ∀ path, Upward start path → isRoot tree base path = false) ∧
      root tree base (root tree base start) = root tree base start) ∧
    (∀ here, tree.Reaches here →
      ∃ there, RootOf tree here there ∧ root tree base here.path = there.path) ∧
    ∀ root? output? here s, tree.Reaches base →
      tree.find base (root?.getD ".") = .ok (here, .directory) →
      settings tree base root? none output? = s →
      ∃ there, RootOf tree here there ∧ s.root = there.path ∧
        (∀ path, s.config = some path ↔ Preferred tree there path) ∧
        (s.config = none ↔
          ∀ name ∈ Config.candidates, ∀ content, ¬ Shows tree there name (.file content)) := by
  refine ⟨fun start => ⟨firstUpward_root tree base start, root_root tree base start⟩,
    fun here h => exists_rootOf h base, ?_⟩
  rintro root? output? here s hBase hStart rfl
  have hHere := Tree.reaches_of_find hBase hStart
  obtain ⟨there, hRootOf, hRoot⟩ := exists_rootOf hHere base
  have hThere : tree.Reaches there := by
    rcases hRootOf with hNearest | ⟨rfl, -⟩
    · exact hHere.of_prefix hNearest.above
    · exact hHere
  have hSettled : settled tree base (root?.getD ".") = here.path := by
    rw [settled, hStart]
  have hSettings : settings tree base root? none output? =
      ⟨there.path, Config.find? tree base there.path, output?.getD "human"⟩ := by
    simp only [settings, hSettled, hRoot]
  rw [hSettings]
  exact ⟨there, hRootOf, rfl, fun path => find?_config_iff hThere base,
    find?_config_eq_none_iff hThere base⟩

/-! ### A project with a nested directory -/

/-- A directory with `.git` and two configuration files, and a directory inside it that has a
configuration in turn and one more directory inside. -/
def nestedTree : Tree where
  entries := [(["a"], .directory), (["a", ".git"], .directory), (["a", "b"], .directory),
    (["a", "lintloop.yml"], .file .empty), (["a", "lintloop.toml"], .file .empty),
    (["a", "b", "lintloop.yaml"], .directory), (["a", "b", "c"], .directory)]

theorem reaches_nestedTree : nestedTree.Reaches ["a", "b"] := by
  have hFind : nestedTree.find [] "/a/b" = .ok (["a", "b"], .directory) := by rfl
  exact Tree.reaches_of_find .top hFind

/-- At a start below the current directory that is given with detours: a directory that is called
like a configuration marks nothing, and of two configurations in the root one is preferred. -/
theorem root_search_nested :
    nestedTree.Reaches ["a", "b"] ∧
    nestedTree.find ["a", "b"] "../b/./c" = .ok (["a", "b", "c"], .directory) ∧
    settings nestedTree ["a", "b"] (some "../b/./c") none none =
      ⟨"/a", some "/a/lintloop.toml", "human"⟩ ∧
    ∃ there, RootOf nestedTree ["a", "b", "c"] there ∧ there.path = "/a" ∧
      Preferred nestedTree there "/a/lintloop.toml" := by
  have hFind : nestedTree.find ["a", "b"] "../b/./c" = .ok (["a", "b", "c"], .directory) := by rfl
  have hSettings : settings nestedTree ["a", "b"] (some "../b/./c") none none =
      ⟨"/a", some "/a/lintloop.toml", "human"⟩ := by decide +kernel
  obtain ⟨-, -, hSettled⟩ := root_search nestedTree ["a", "b"]
  obtain ⟨there, hRootOf, hRoot, hConfig, -⟩ :=
    hSettled (some "../b/./c") none _ _ reaches_nestedTree hFind hSettings
  exact ⟨reaches_nestedTree, hFind, hSettings, there, hRootOf, hRoot.symm, (hConfig _).mp rfl⟩

end Project

end LintRepair
