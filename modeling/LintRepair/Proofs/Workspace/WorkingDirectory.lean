import LintRepair.Proofs.Config.Roots
import LintRepair.Proofs.Lint.Canonicity
import LintRepair.Workspace.Basic

/-! The root of a project as the directory its commands are run in. A root with a mark is a path that
goes on to the mark, so it leads to a directory, unless it is empty: an empty path goes on to whatever
stands in the current directory and leads nowhere itself. Only a relative start that leads nowhere can
end there. -/

namespace LintRepair

open Files (Tree Location)

namespace Project

variable {tree : Tree} {base : Location}

theorem Upward.isAbsolute {path top : String} (h : Upward path top)
    (hPath : Files.Path.isAbsolute path = true) : Files.Path.isAbsolute top = true := by
  induction h with
  | stay => exact hPath
  | up above more ih => exact ih (Files.Path.isAbsolute_parent above hPath)

theorem upward_root (tree : Tree) (base : Location) (start : String) :
    Upward start (root tree base start) := by
  rcases firstUpward_root tree base start with hFound | ⟨hRoot, -⟩
  · exact hFound.upward
  · rw [hRoot]
    exact .stay start

/-- From a start that leads somewhere, or from an absolute one, no search ends at the empty path. -/
theorem root_settled_ne_empty {start : String}
    (h : Files.Path.isAbsolute start = true ∨ ∃ found, tree.find base start = .ok found) :
    root tree base (settled tree base start) ≠ "" := by
  have hStart : Files.Path.isAbsolute (settled tree base start) = true := by
    unfold settled
    split
    · exact Files.Path.isAbsolute_path _
    · rename_i hFailed
      rcases h with hAbsolute | ⟨found, hFound⟩
      · exact hAbsolute
      · rw [hFailed] at hFound
        cases hFound
  have hRoot := (upward_root tree base _).isAbsolute hStart
  intro hEmpty
  rw [hEmpty] at hRoot
  cases hRoot

/-- A marked root that is not the empty path leads to a directory. -/
theorem find_of_isRoot {directory : String} (hSome : directory ≠ "")
    (h : isRoot tree base directory = true) :
    ∃ here, tree.find base directory = .ok (here, .directory) := by
  rcases isRoot_iff.mp h with ⟨name, hName, hFile⟩ | hGit
  · obtain ⟨place, content, hFind⟩ := isFile_iff.mp hFile
    exact Tree.find_of_find_join hSome (candidates_relative name hName).2 hFind
  · obtain ⟨place, e, hFind⟩ := doesExist_iff.mp hGit
    have hRelative : Files.Path.isAbsolute ".git" = false := by decide
    exact Tree.find_of_find_join hSome hRelative hFind

end Project

/-- A shell that runs a command comes to an end of its own or is killed. -/
theorem Shell.Process.started_run (p : Process) (source : String) : (p.run source).ending.Started := by
  unfold Process.run
  rcases Run.whole (Raw.ofString source) p with ⟨result, after⟩
  dsimp only
  split <;> trivial

namespace Workspace

/-- A command that can be handed to a shell at all. -/
def Startable (command : String) : Prop :=
  '\x00' ∉ command.toList ∧ command.utf8ByteSize ≤ longestCommand

instance (command : String) : Decidable (Startable command) := inferInstanceAs (Decidable (_ ∧ _))

variable {w : Workspace} {directory : String}

theorem commandDirectory_eq_ok_iff {here : Location} : w.commandDirectory directory = .ok here ↔
    w.tree.find w.directory directory = .ok (here, .directory) := by
  unfold commandDirectory
  cases w.tree.find w.directory directory with
  | error cause => simp [bind, Except.bind]
  | ok found =>
      obtain ⟨there, e⟩ := found
      cases e <;> simp [bind, Except.bind]

/-- In a directory that is there every command that can be handed to a shell is started. -/
theorem started_of_directory {here : Location} (h : w.commandDirectory directory = .ok here)
    {command : String} (hCommand : Startable command) :
    ∃ out err ending, ending.Started ∧ (w.shell command directory).1 = .ofEnding out err ending := by
  obtain ⟨hNul, hShort⟩ := hCommand
  have hDirectory : '\x00' ∉ directory.toList :=
    (Tree.locate_eq_ok_iff.mp (Tree.find_eq_ok_iff.mp (commandDirectory_eq_ok_iff.mp h)).1).2.1
  have hClean : (command.toList.contains '\x00' || directory.toList.contains '\x00') = false := by
    simp [hNul, hDirectory]
  let e := (Shell.Process.start w.tree here w.programs).run command
  refine ⟨e.out, e.err, e.ending, Shell.Process.started_run _ _, ?_⟩
  rw [shell, hClean, if_neg Bool.false_ne_true, h]
  dsimp only
  rw [if_neg (Nat.not_lt.mpr hShort)]

/-- Where there is no such directory nothing is started. -/
theorem not_started_of_error {cause : Files.Failure} (h : w.commandDirectory directory = .error cause)
    (command : String) : ∃ cause, (w.shell command directory).1 =
      .ofEnding .empty .empty (.notStarted cause) := by
  unfold shell
  split
  · exact ⟨_, rfl⟩
  · rw [h]
    exact ⟨cause, rfl⟩

theorem commandDirectory_empty (w : Workspace) : w.commandDirectory "" = .error .notFound := rfl

/-- A root with a mark that the project is settled at is a directory for commands exactly if it is not
the empty path. Then every command is started there that can be handed to a shell. It is the empty
path only for a relative start that leads nowhere, and there nothing is started. -/
theorem marked_root_usable (w : Workspace) (root? config? output? : Option String)
    (s : Project.Settings)
    (hSettings : Project.settings w.tree w.directory root? config? output? = s)
    (hMarked : (∃ name ∈ Config.candidates,
        w.tree.isFile w.directory (Files.Path.join s.root name) = true) ∨
      w.tree.doesExist w.directory (Files.Path.join s.root ".git") = true) :
    ((∃ here, w.commandDirectory s.root = .ok here) ↔ s.root ≠ "") ∧
    (s.root ≠ "" → ∀ command, Startable command → ∃ out err ending, ending.Started ∧
      (w.shell command s.root).1 = .ofEnding out err ending) ∧
    (s.root = "" → Files.Path.isAbsolute (root?.getD ".") = false ∧
      (∀ found, w.tree.find w.directory (root?.getD ".") ≠ .ok found) ∧
      ∀ command, ∃ cause, (w.shell command s.root).1 =
        .ofEnding .empty .empty (.notStarted cause)) := by
  have hRoot : s.root = Project.root w.tree w.directory
      (Project.settled w.tree w.directory (root?.getD ".")) := by
    rw [← hSettings]
    rfl
  have hDirectory : s.root ≠ "" → ∃ here, w.commandDirectory s.root = .ok here := by
    intro hSome
    obtain ⟨here, hFind⟩ := Project.find_of_isRoot hSome (Project.isRoot_iff.mpr hMarked)
    exact ⟨here, commandDirectory_eq_ok_iff.mpr hFind⟩
  refine ⟨⟨?_, hDirectory⟩, fun hSome command hCommand => ?_, fun hEmpty => ⟨?_, ?_, ?_⟩⟩
  · rintro ⟨here, hHere⟩ hEmpty
    rw [hEmpty, commandDirectory_empty] at hHere
    cases hHere
  · obtain ⟨here, hHere⟩ := hDirectory hSome
    exact started_of_directory hHere hCommand
  · refine Bool.eq_false_iff.mpr fun hAbsolute => ?_
    exact Project.root_settled_ne_empty (.inl hAbsolute) (hRoot.symm.trans hEmpty)
  · intro found hFound
    exact Project.root_settled_ne_empty (.inr ⟨found, hFound⟩) (hRoot.symm.trans hEmpty)
  · rw [hEmpty]
    exact not_started_of_error w.commandDirectory_empty

/-- A project's directory, with its configuration. -/
def configured : Workspace where
  tree := Tree.empty.put ["lintloop.toml"] (.file .empty)
  directory := []
  programs := []

theorem marked_root_usable_configured :
    Project.settings configured.tree configured.directory none none none =
      ⟨"/", some "/lintloop.toml", "human"⟩ ∧
    (∃ name ∈ Config.candidates, configured.tree.isFile configured.directory
      (Files.Path.join "/" name) = true) ∧
    ∃ out err ending, ending.Started ∧
      (configured.shell "true" "/").1 = .ofEnding out err ending := by
  have hSettings : Project.settings configured.tree configured.directory none none none =
      ⟨"/", some "/lintloop.toml", "human"⟩ := by decide +kernel
  have hMarked : ∃ name ∈ Config.candidates, configured.tree.isFile configured.directory
      (Files.Path.join "/" name) = true := by decide +kernel
  have hStartable : Startable "true" := by decide +kernel
  obtain ⟨-, hStarted, -⟩ := marked_root_usable configured none none none _ hSettings (.inl hMarked)
  exact ⟨hSettings, hMarked, hStarted (by decide) "true" hStartable⟩

/-- A root with a mark is no directory for commands in general: from a relative start that leads
nowhere the search ends at the empty path, and finds the configuration of the current directory. -/
theorem mistyped_root_unusable : ¬ ∀ (w : Workspace) (root? config? output? : Option String)
    (s : Project.Settings), w.tree.Reaches w.directory →
    Project.settings w.tree w.directory root? config? output? = s →
    ((∃ name ∈ Config.candidates,
        w.tree.isFile w.directory (Files.Path.join s.root name) = true) ∨
      w.tree.doesExist w.directory (Files.Path.join s.root ".git") = true) →
    ∃ here, w.commandDirectory s.root = .ok here := by
  intro hUsable
  have hSettings : Project.settings configured.tree configured.directory (some "nope") none none =
      ⟨"", some "lintloop.toml", "human"⟩ := by decide +kernel
  have hMarked : ∃ name ∈ Config.candidates, configured.tree.isFile configured.directory
      (Files.Path.join "" name) = true := by decide +kernel
  obtain ⟨here, hHere⟩ := hUsable configured (some "nope") none none _ .top hSettings (.inl hMarked)
  rw [commandDirectory_empty] at hHere
  cases hHere

end Workspace

end LintRepair
