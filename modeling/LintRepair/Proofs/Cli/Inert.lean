import LintRepair.Proofs.Cli.Tools
import LintRepair.Proofs.Files.Writing
import LintRepair.Proofs.Repair.Interleaving
import LintRepair.Proofs.Steps

/-! Projects without a configuration that can be used. Every way for one to be missing or refused is
named, and in each of them the commands are inert: they change no file and set no tool to work. -/

namespace LintRepair

open Files (Tree Location)

variable {ρ : Type}

namespace Project

/-- The text of the file that the configuration is to be found in. -/
structure Settings.Finds (p : Settings) (tree : Tree) (base : Location) (path text : String) :
    Prop where
  named : p.config = some path
  read : tree.readText base path = .ok text

/-- Why there is no configuration to go by: there is no file, the file cannot be read
or is no configuration, no iteration is allowed, or a target cannot be worked on. -/
inductive Unconfigured (tree : Tree) (base : Location) (p : Settings) : Prop where
  | missing (unnamed : p.config = none)
  | unreadable {path : String} {cause : Files.Failure} (named : p.config = some path)
      (unread : tree.readText base path = .error cause)
  | malformed {path text : String} {fault : Config.LoadFault} (found : p.Finds tree base path text)
      (refused : Config.decode path text = .error fault)
  | noIterations {path text : String} {c : Config} (found : p.Finds tree base path text)
      (decoded : Config.decode path text = .ok c) (none : c.maxIterations = 0)
  | badPattern {path text : String} {c : Config} {t : Target} {cause : Glob.Error}
      (found : p.Finds tree base path text) (decoded : Config.decode path text = .ok c)
      (configured : t ∈ c.targets) (bad : Glob.parse t.pattern = .error cause)
  | blankCommand {path text : String} {c : Config} {t : Target} (found : p.Finds tree base path text)
      (decoded : Config.decode path text = .ok c) (configured : t ∈ c.targets)
      (blank : Text.isBlankText t.check = true ∨ Text.isBlankText t.fix = true)

/-- There is at most one file that the settings find. -/
theorem Settings.Finds.unique {p : Settings} {tree : Tree} {base : Location} {path text : String}
    (h : p.Finds tree base path text) {other others : String} (h' : p.Finds tree base other others) :
    path = other ∧ text = others := by
  obtain rfl := Option.some.inj (h.named.symm.trans h'.named)
  exact ⟨rfl, Except.ok.inj (h.read.symm.trans h'.read)⟩

/-- What is loaded was found, decoded and is valid. -/
theorem load_eq_some_iff {tree : Tree} {base : Location} {p : Settings} {c : Config} :
    p.load tree base = .ok (some c) ↔ ∃ path text, p.Finds tree base path text ∧
      Config.decode path text = .ok c ∧ c.maxIterations ≠ 0 ∧ ∀ t ∈ c.targets, t.Usable := by
  rw [← Config.fault?_eq_none_iff]
  constructor
  · intro h
    unfold Settings.load at h
    split at h
    · rename_i path hNamed
      obtain ⟨d, hLoad, h⟩ := map_eq_ok h
      obtain rfl := Option.some.inj h
      unfold Config.load at hLoad
      split at hLoad
      · rename_i text hRead
        obtain ⟨e, hDecode, hValid⟩ := bind_eq_ok hLoad
        obtain ⟨hFault, rfl⟩ := Config.validated_eq_ok_iff.mp hValid
        exact ⟨path, text, ⟨hNamed, hRead⟩, hDecode, hFault⟩
      · cases hLoad
    · cases h
  · rintro ⟨path, text, ⟨hNamed, hRead⟩, hDecode, hFault⟩
    simp [Settings.load, Config.load, Config.parse, Config.validated, hNamed, hRead, hDecode, hFault,
      bind, Except.bind, Except.map]

theorem Unconfigured.not_load {tree : Tree} {base : Location} {p : Settings}
    (h : Unconfigured tree base p) (c : Config) : p.load tree base ≠ .ok (some c) := by
  intro hLoad
  obtain ⟨path, text, hFinds, hDecode, hSome, hUsable⟩ := load_eq_some_iff.mp hLoad
  cases h with
  | missing unnamed => cases unnamed.symm.trans hFinds.named
  | unreadable named unread =>
      obtain rfl := Option.some.inj (named.symm.trans hFinds.named)
      cases unread.symm.trans hFinds.read
  | malformed found refused =>
      obtain ⟨rfl, rfl⟩ := found.unique hFinds
      cases refused.symm.trans hDecode
  | noIterations found decoded none =>
      obtain ⟨rfl, rfl⟩ := found.unique hFinds
      obtain rfl := Except.ok.inj (decoded.symm.trans hDecode)
      exact hSome none
  | badPattern found decoded configured bad =>
      obtain ⟨rfl, rfl⟩ := found.unique hFinds
      obtain rfl := Except.ok.inj (decoded.symm.trans hDecode)
      exact Target.not_usable_iff.mpr (.inl ⟨_, bad⟩) (hUsable _ configured)
  | blankCommand found decoded configured blank =>
      obtain ⟨rfl, rfl⟩ := found.unique hFinds
      obtain rfl := Except.ok.inj (decoded.symm.trans hDecode)
      exact Target.not_usable_iff.mpr (.inr blank) (hUsable _ configured)

/-- These are all the ways for a configuration not to load. -/
theorem unconfigured_iff {tree : Tree} {base : Location} {p : Settings} :
    Unconfigured tree base p ↔ ∀ c, p.load tree base ≠ .ok (some c) := by
  refine ⟨Unconfigured.not_load, fun h => ?_⟩
  cases hNamed : p.config with
  | none => exact .missing hNamed
  | some path =>
      cases hRead : tree.readText base path with
      | error cause => exact .unreadable hNamed hRead
      | ok text =>
          have hFinds : p.Finds tree base path text := ⟨hNamed, hRead⟩
          cases hDecode : Config.decode path text with
          | error fault => exact .malformed hFinds hDecode
          | ok c =>
              by_cases hNone : c.maxIterations = 0
              · exact .noIterations hFinds hDecode hNone
              · obtain ⟨t, ht, hUnusable⟩ : ∃ t ∈ c.targets, ¬ t.Usable := by
                  by_contra hAll
                  push Not at hAll
                  exact h c (load_eq_some_iff.mpr ⟨path, text, hFinds, hDecode, hNone, hAll⟩)
                rcases Target.not_usable_iff.mp hUnusable with ⟨cause, hBad⟩ | hBlank
                · exact .badPattern hFinds hDecode ht hBad
                · exact .blankCommand hFinds hDecode ht hBlank

end Project

namespace Cli

/-- The commands that need the configuration of a project, with their status when there
is none. -/
inductive Command.Needs (project : ProjectOptions) : Command → UInt8 → Prop where
  | run (transcript : Option String) (files : Option (List String)) :
      Needs project (.run project transcript files) 0
  | check (files : Option (List String)) : Needs project (.check project files) 2
  | select (files : List String) : Needs project (.select project files) 2

/-- A command ends with this status, and leaves the files, the output stream and what
the tools remember as they were. -/
structure Inert (s : Workspace × ρ) (status : UInt8) (final : UInt8 × (Workspace × ρ)) : Prop where
  status : final.1 = status
  files : final.2.1.tree = s.1.tree
  output : final.2.1.printed.out = s.1.printed.out
  memory : final.2.2 = s.2

theorem requireConfig_of_unloaded {p : Project.Settings} {w : Workspace}
    (h : ∀ c, p.load w.tree w.directory ≠ .ok (some c)) :
    ∃ message, requireConfig p w = .error message := by
  unfold requireConfig
  split
  · rename_i c hLoad
    exact absurd hLoad (h c)
  · exact ⟨_, rfl⟩
  · exact ⟨_, rfl⟩

namespace Tools

theorem inert_abort (color : Bool) (message : String) (s : Workspace × ρ) :
    Inert s 2 (aside (abort color message) s) :=
  ⟨rfl, rfl, List.append_nil _, rfl⟩

/-- Without a configuration each of the commands that need one ends in an abort. -/
theorem inert_of_unloaded (tools : Tools ρ) (turns : List Nat) (color : Bool) (input : ByteArray)
    {project : ProjectOptions} {s : Workspace × ρ}
    (h : ∀ c, (project.settings s.1).load s.1.tree s.1.directory ≠ .ok (some c)) {command : Command}
    {status : UInt8} (hNeeds : command.Needs project status) :
    Inert s status (tools.execute turns color input s command) := by
  obtain ⟨message, hMissing⟩ := requireConfig_of_unloaded h
  cases hNeeds with
  | run transcript files =>
      rw [execute, run_of_unloaded h]
      exact ⟨rfl, rfl, rfl, rfl⟩
  | check files =>
      have hAbort : tools.check color (project.settings s.1) files s =
          aside (abort color message) s := by
        simp only [check, hMissing]
      rw [execute, hAbort]
      exact inert_abort color message s
  | select files =>
      have hAbort : Cli.select color (project.settings s.1) files s.1 =
          abort color message s.1 := by
        simp only [Cli.select, withConfig, hMissing]
      have hAside : tools.execute turns color input s (.select project files) =
          aside (abort color message) s := by
        simp only [execute, aside, Command.execute, hAbort]
      rw [hAside]
      exact inert_abort color message s

/-- The same tools, with a log of the jobs that they are given. -/
def logging (tools : Tools ρ) : Tools (ρ × List Job) := fun root =>
  { check t s :=
      let (r, tree, memory) := (tools root).check t (s.1, s.2.1)
      (r, tree, memory, s.2.2 ++ [.check t])
    fix t s :=
      let (tree, memory) := (tools root).fix t (s.1, s.2.1)
      (tree, memory, s.2.2 ++ [.fix t]) }

/-- Without a configuration that can be used the program is inert. Whatever is wrong
with it, a run succeeds and the other commands fail; no tool is given a job, nothing
comes to the output stream, and no file is made or changed. What can be wrong is
just that there is no file, that it cannot be read or decoded, that it allows no
iteration, or that a target has a bad pattern or a blank command. The program itself
is the case of the shell, with one target after another. -/
theorem unconfigured_inert (tools : Tools ρ) (turns : List Nat) (color : Bool) (input : ByteArray)
    (project : ProjectOptions) (s : Workspace × ρ) :
    let p := project.settings s.1
    ((∀ c, p.load s.1.tree s.1.directory ≠ .ok (some c)) ↔
      Project.Unconfigured s.1.tree s.1.directory p) ∧
    (Project.Unconfigured s.1.tree s.1.directory p →
      ∀ command status, command.Needs project status →
        Inert s status (tools.execute turns color input s command) ∧
        ∀ log, (tools.logging.execute turns color input (s.1, s.2, log) command).2.2 = (s.2, log)) ∧
    ∀ (w : Workspace) (command : Command), command.execute color input w =
      (((shell w).execute [] color input (w, ()) command).1,
        ((shell w).execute [] color input (w, ()) command).2.1) := by
  intro p
  refine ⟨Project.unconfigured_iff.symm, fun h command status hNeeds => ⟨?_, fun log => ?_⟩,
    fun w command => execute_shell color input w command⟩
  · exact inert_of_unloaded tools turns color input h.not_load hNeeds
  · exact (inert_of_unloaded tools.logging turns color input (s := (s.1, s.2, log)) h.not_load
      hNeeds).memory

/-- No iterations and no targets. -/
def idle : Config := ⟨0, false, []⟩

theorem decode_idle : Config.decode "/c.json" (Json.compactText idle.toJson) = .ok idle :=
  Config.decode_compactText rfl idle

/-- A configuration that allows no iteration, with a run that names a transcript, a
check, and a match. -/
theorem unconfigured_inert_idle :
    Project.Unconfigured (holding idle).tree (holding idle).directory
        (ProjectOptions.held.settings (holding idle)) ∧
      Inert (holding idle, ()) 0 (stubborn.execute [] true .empty (holding idle, ())
        (.run .held (some "chat.json") (some ["a.go"]))) ∧
      Inert (holding idle, ()) 2 (stubborn.execute [] true .empty (holding idle, ())
        (.check .held (some ["a.go"]))) ∧
      Inert (holding idle, ()) 2 (stubborn.execute [] true .empty (holding idle, ())
        (.select .held ["a.go"])) := by
  have hFound : (ProjectOptions.held.settings (holding idle)).Finds (holding idle).tree [] "/c.json"
      (Json.compactText idle.toJson) := ⟨by decide +kernel, readText_holding idle⟩
  have hUnconfigured : Project.Unconfigured (holding idle).tree (holding idle).directory
      (ProjectOptions.held.settings (holding idle)) := .noIterations hFound decode_idle rfl
  generalize holding idle = w at hUnconfigured ⊢
  have hInert := (unconfigured_inert stubborn [] true .empty .held (w, ())).2.1 hUnconfigured
  exact ⟨hUnconfigured, (hInert _ _ (.run _ _)).1, (hInert _ _ (.check _)).1,
    (hInert _ _ (.select _)).1⟩

end Tools

end Cli

end LintRepair
