import LintRepair.Cli.Program
import LintRepair.Proofs.Config.Validation
import LintRepair.Proofs.Workspace.Refinement

/-! Commands with any tools. Checks and fixes are made by tools that work on the files and may
remember things of their own; what they print is captured, so they cannot reach the terminal. Where
the tools are those of the shell and the targets come one after another, a command does what the
program does. -/

namespace LintRepair

open Files (Tree)
open Workplace (Simulates)

variable {ρ : Type}

namespace Workspace

@[simp] theorem printed_print (w : Workspace) (p : Terminal.Printed) :
    (w.print p).printed = w.printed ++ p := rfl

@[simp] theorem tree_print (w : Workspace) (p : Terminal.Printed) : (w.print p).tree = w.tree := rfl

/-- A shell command changes nothing but files, and what is on the terminal is no matter
for it. -/
theorem shell_eq (command root : String) (w : Workspace) (p : Terminal.Printed) :
    w.shell command root = (({ w with printed := p }.shell command root).1,
      { w with tree := ({ w with printed := p }.shell command root).2.tree }) := by
  simp only [shell, commandDirectory]
  split
  · rfl
  · split
    · rfl
    · split <;> rfl

/-- What was printed before has no part in a check by the shell. -/
theorem runner_check_eq (root : String) (t : Target) (w : Workspace) (p : Terminal.Printed) :
    (runner root).check t w = (((runner root).check t { w with printed := p }).1,
      { w with tree := ((runner root).check t { w with printed := p }).2.tree }) := by
  simp only [runner, shell_eq t.check root w p]

/-- A fix by the shell changes files and nothing else. -/
theorem runner_fix_eq (root : String) (t : Target) (w : Workspace) (p : Terminal.Printed) :
    (runner root).fix t w =
      { w with tree := ((runner root).fix t { w with printed := p }).tree } := by
  simp only [runner, shell_eq t.fix root w p]

end Workspace

namespace Terminal

@[simp] theorem Printed.out_append (a b : Printed) : (a ++ b).out = a.out ++ b.out := rfl

@[simp] theorem Printed.err_append (a b : Printed) : (a ++ b).err = a.err ++ b.err := rfl

end Terminal

namespace Cli

/-- What checks and fixes are made with in a root directory. -/
def Tools (ρ : Type) : Type := String → Runner (Tree × ρ)

namespace Tools

/-- The tools at a workspace: they see its files and change them. -/
def runner (tools : Tools ρ) (root : String) : Runner (Workspace × ρ) where
  check t s :=
    let (r, tree, memory) := (tools root).check t (s.1.tree, s.2)
    (r, { s.1 with tree := tree }, memory)
  fix t s :=
    let (tree, memory) := (tools root).fix t (s.1.tree, s.2)
    ({ s.1 with tree := tree }, memory)

/-- The place where a run is made. -/
def place (tools : Tools ρ) (color : Bool) (p : Project.Settings) (transcript : Option String)
    (files : Option (List String)) : Workplace (Workspace × ρ) :=
  Workspace.workplaceWith (runOptions color p transcript files) (tools.runner p.root)

def aside (act : Workspace → UInt8 × Workspace) (s : Workspace × ρ) : UInt8 × (Workspace × ρ) :=
  ((act s.1).1, (act s.1).2, s.2)

/-- One run of the repair loop, in turns if the configuration allows them. -/
def run (tools : Tools ρ) (turns : List Nat) (color : Bool) (p : Project.Settings)
    (transcript : Option String) (files : Option (List String)) (s : Workspace × ρ) :
    UInt8 × (Workspace × ρ) :=
  match p.load s.1.tree s.1.directory with
  | .ok (some c) =>
    let (outcome, after) := (tools.place color p transcript files).runInTurns turns c s
    aside (reportOutcome color p outcome) after
  | _ => (0, s)

/-- What the checks of the targets find, one after the other. -/
def findings (tools : Tools ρ) (color : Bool) (p : Project.Settings) (files : Option (List String))
    (c : Config) (s : Workspace × ρ) : List CheckResult × (Workspace × ρ) :=
  checkAll (tools.runner p.root) (targetsOf p files c s.1)
    (announce color p (targetsOf p files c s.1) s.1, s.2)

/-- Check the targets of the changed files. -/
def check (tools : Tools ρ) (color : Bool) (p : Project.Settings) (files : Option (List String))
    (s : Workspace × ρ) : UInt8 × (Workspace × ρ) :=
  match requireConfig p s.1 with
  | .ok c =>
    let (rs, after) := tools.findings color p files c s
    aside (reportResults color p rs) after
  | .error message => aside (abort color message) s

/-- Carry out a command with some tools. -/
def execute (tools : Tools ρ) (turns : List Nat) (color : Bool) (input : ByteArray)
    (s : Workspace × ρ) : Command → UInt8 × (Workspace × ρ)
  | .run project transcript files =>
    tools.run turns color (project.settings s.1) transcript files s
  | .check project files => tools.check color (project.settings s.1) files s
  | command => aside (command.execute color input) s

section Loading

variable {tools : Tools ρ} {turns : List Nat} {color : Bool} {p : Project.Settings}
  {transcript : Option String} {files : Option (List String)} {s : Workspace × ρ} {c : Config}

/-- With a configuration a run is reported by its outcome, and what the tools saw is all that is
left. -/
theorem run_of_load (h : p.load s.1.tree s.1.directory = .ok (some c)) :
    tools.run turns color p transcript files s =
      aside (reportOutcome color p ((tools.place color p transcript files).runInTurns turns c s).1)
        ((tools.place color p transcript files).runInTurns turns c s).2 := by
  simp only [run, h]

/-- Without a configuration a run does nothing. -/
theorem run_of_unloaded (h : ∀ c, p.load s.1.tree s.1.directory ≠ .ok (some c)) :
    tools.run turns color p transcript files s = (0, s) := by
  unfold run
  split
  · rename_i c hLoad
    exact absurd hLoad (h c)
  · rfl

end Loading

/-! ### The shell -/

/-- The shell with the programs that are found at a workspace. -/
def shell (w : Workspace) : Tools Unit := fun root =>
  { check t s :=
      (((Workspace.runner root).check t { w with tree := s.1 }).1,
        ((Workspace.runner root).check t { w with tree := s.1 }).2.tree, ())
    fix t s := (((Workspace.runner root).fix t { w with tree := s.1 }).tree, ()) }

/-- A state that comes of a workspace by changes to files and by printing. -/
structure Follows (w : Workspace) (s : Workspace × Unit) (u : Workspace) : Prop where
  same : s.1 = u
  directory : u.directory = w.directory
  programs : u.programs = w.programs

/-- States that follow each other differ in what was printed alone. -/
theorem Follows.tree_eq {w : Workspace} {s : Workspace × Unit} {u : Workspace} (h : Follows w s u) :
    { w with tree := u.tree } = { u with printed := w.printed } := by
  rw [h.directory, h.programs]

theorem check_shell {w : Workspace} {s : Workspace × Unit} {u : Workspace} (h : Follows w s u)
    (root : String) (t : Target) :
    Agree (Follows w) (((shell w).runner root).check t s) ((Workspace.runner root).check t u) := by
  have hTree := h.tree_eq
  obtain ⟨rfl, hDirectory, hPrograms⟩ := h
  rw [Workspace.runner_check_eq root t s.1 w.printed]
  simp only [runner, shell, hTree]
  exact ⟨rfl, rfl, hDirectory, hPrograms⟩

theorem fix_shell {w : Workspace} {s : Workspace × Unit} {u : Workspace} (h : Follows w s u)
    (root : String) (t : Target) :
    Follows w (((shell w).runner root).fix t s) ((Workspace.runner root).fix t u) := by
  have hTree := h.tree_eq
  obtain ⟨rfl, hDirectory, hPrograms⟩ := h
  rw [Workspace.runner_fix_eq root t s.1 w.printed]
  simp only [runner, shell, hTree]
  exact ⟨rfl, hDirectory, hPrograms⟩

/-- Runs at a place with the shell as the tool are runs at the terminal. -/
theorem simulates_shell (w : Workspace) (color : Bool) (p : Project.Settings)
    (transcript : Option String) (files : Option (List String)) (targets : List Target) :
    ((shell w).place color p transcript files).Simulates
      (Workspace.workplace (runOptions color p transcript files)) targets (Follows w) where
  check t _ {s u} h := check_shell h p.root t
  fix t _ {s u} h := fix_shell h p.root t
  changedFiles {s u} h := by obtain ⟨rfl, -, -⟩ := h; rfl
  history {s u} h := by obtain ⟨rfl, -, -⟩ := h; rfl
  prompt text {s u} h := by
    obtain ⟨rfl, hDirectory, hPrograms⟩ := h
    refine ⟨rfl, ?_, ?_⟩
    all_goals
      simp only [Workspace.workplace, Workspace.prompt]
      split
      all_goals assumption
  notify level text {s u} h := by
    obtain ⟨rfl, hDirectory, hPrograms⟩ := h
    refine ⟨rfl, ?_, ?_⟩
    all_goals
      simp only [Workspace.workplace, Workspace.notify]
      split
      all_goals assumption

/-- The shell as a tool makes the checks that the shell makes in the workspace. -/
theorem checkAll_shell {w : Workspace} (root : String) (targets : List Target)
    {s : Workspace × Unit} {u : Workspace} (h : Follows w s u) :
    Agree (Follows w) (checkAll ((shell w).runner root) targets s)
      (checkAll (Workspace.runner root) targets u) := by
  induction targets generalizing s u with
  | nil => exact ⟨rfl, h⟩
  | cons t targets ih =>
      obtain ⟨hAnswer, hAfter⟩ := check_shell h root t
      obtain ⟨hMore, hEnd⟩ := ih hAfter
      exact ⟨by simp only [checkAll, hAnswer, hMore], hEnd⟩

/-- With the shell as its tools a run is the run of the program. -/
theorem run_shell (w : Workspace) (color : Bool) (p : Project.Settings)
    (transcript : Option String) (files : Option (List String)) :
    Cli.run color p transcript files w =
      (((shell w).run [] color p transcript files (w, ())).1,
        ((shell w).run [] color p transcript files (w, ())).2.1) := by
  by_cases hLoad : ∃ c, p.load w.tree w.directory = .ok (some c)
  · obtain ⟨c, hLoad⟩ := hLoad
    obtain ⟨hOutcome, hSame, -, -⟩ :=
      (simulates_shell w color p transcript files c.targets).runInTurns []
        (List.Subset.refl _) (s := (w, ())) (u := w) ⟨rfl, rfl, rfl⟩
    rw [run_of_load (s := (w, ())) hLoad]
    simp only [Workplace.runInTurns_nil] at hOutcome hSame ⊢
    simp only [Cli.run, hLoad, aside, hOutcome, hSame]
  · have hNone := not_exists.mp hLoad
    rw [run_of_unloaded (s := (w, ())) hNone]
    unfold Cli.run
    split
    · rename_i c hLoaded
      exact absurd hLoaded (hNone c)
    · rfl

/-- With the shell as its tools a check is the check of the program. -/
theorem check_of_shell (w : Workspace) (color : Bool) (p : Project.Settings)
    (files : Option (List String)) :
    Cli.check color p files w = (((shell w).check color p files (w, ())).1,
      ((shell w).check color p files (w, ())).2.1) := by
  simp only [Cli.check, withConfig, check]
  cases requireConfig p w with
  | error message => rfl
  | ok c =>
      have hStart : Follows w (announce color p (targetsOf p files c w) w, ())
          (announce color p (targetsOf p files c w) w) := by
        refine ⟨rfl, ?_, ?_⟩
        all_goals
          unfold announce
          split <;> rfl
      obtain ⟨hResults, hSame, -, -⟩ := checkAll_shell p.root (targetsOf p files c w) hStart
      simp only [findings, aside, hResults, hSame]

/-- The program carries a command out with the shell, and works on one target after
another. -/
theorem execute_shell (color : Bool) (input : ByteArray) (w : Workspace) (command : Command) :
    command.execute color input w = (((shell w).execute [] color input (w, ()) command).1,
      ((shell w).execute [] color input (w, ()) command).2.1) := by
  cases command with
  | run project transcript files => exact run_shell w color _ transcript files
  | check project files => exact check_of_shell w color _ files
  | version => rfl
  | select project files => rfl
  | parse ecosystem rootDir => rfl

/-! ### A workspace with a configuration -/

/-- Tools that find one error in every target, whatever is done about it. -/
def stubborn : Tools Unit := fun _ =>
  { check t s := ((Runner.stubborn.check t ()).1, s)
    fix _ s := s }

end Tools

/-- A workspace with nothing but a configuration file. -/
def holding (c : Config) : Workspace :=
  ⟨Tree.empty.put ["c.json"] (.file (Json.compactText c.toJson).toUTF8), [], [], {}⟩

def ProjectOptions.held : ProjectOptions := ⟨none, some "c.json", none⟩

theorem readText_holding (c : Config) :
    (holding c).tree.readText [] "/c.json" = .ok (Json.compactText c.toJson) := by
  have hFind : (holding c).tree.find [] "/c.json" =
      .ok (["c.json"], .file (Json.compactText c.toJson).toUTF8) := by rfl
  simp [Tree.readText, Tree.read, hFind, Tree.fromUTF8?_toByteArray, bind, Except.bind]

/-- Where a file holds a configuration, settings that name the file load it. -/
theorem load_holding {c d : Config} {p : Project.Settings} (hPath : p.config = some "/c.json")
    (hParse : Config.parse "/c.json" (Json.compactText c.toJson) = .ok d) :
    p.load (holding c).tree (holding c).directory = .ok (some d) := by
  have hRead : (holding c).tree.readText (holding c).directory "/c.json" =
      .ok (Json.compactText c.toJson) := readText_holding c
  simp only [Project.Settings.load, Config.load, hPath, hRead, hParse, Except.map]

/-- Two iterations, and one target for all files. -/
def modest : Config := ⟨2, false, [⟨"*", .go, "lint", "fix"⟩]⟩

theorem parse_modest : Config.parse "/c.json" (Json.compactText modest.toJson) = .ok modest :=
  Config.parse_eq_ok_iff.mpr
    ⟨Config.decode_compactText rfl modest, Config.valid_iff.mpr (by decide +kernel)⟩

end Cli

end LintRepair
