import LintRepair.Proofs.Cli.Tools
import LintRepair.Proofs.Lint.Records
import LintRepair.Proofs.Repair.Retention

/-! Records on their way from one program to another. Targets, diagnostics and messages are read as
what they were printed for, and so are the documents that the commands print. -/

namespace LintRepair.Cli

open Json (Layout Restores RoundTrips)

variable {α : Type}

/-- A command succeeds, and all it does is to print a document that is read as this. -/
inductive Delivers (read : Json.Reader α) (a : α) (w : Workspace) : UInt8 × Workspace → Prop where
  | printed {document : List Char} (decodes : Json.finish read document = .ok a) :
      Delivers read a w (0, w.print { out := document })

theorem delivers_document {levels : Nat} {read : Json.Reader α} {decode : Json → Option α}
    {write : α → Json} (h : Restores levels read decode write) (hLevels : levels ≤ Json.maxDepth)
    (a : α) (w : Workspace) : Delivers read a w (0, w.print (Terminal.document (write a))) :=
  .printed (h.finish hLevels .pretty a (List.forall_mem_singleton.mpr rfl))

/-- What is printed for a report is read as its diagnostics. -/
theorem delivers_parse (color : Bool) (tag root report : String) (w : Workspace) :
    Delivers (Json.list Diagnostic.reader) (Report.taggedDiagnostics tag report root) w
      (parse color tag root report.toUTF8 w) := by
  have hReport : String.fromUTF8? report.toUTF8 = some report :=
    Files.Tree.fromUTF8?_toByteArray report
  rw [parse, hReport]
  exact delivers_document Diagnostic.restores.list (by decide) _ w

/-- What is printed for some files is read as the targets that they select. -/
theorem delivers_select (color : Bool) {project : ProjectOptions} {w : Workspace} {c : Config}
    (hOutput : project.output = some "json")
    (hLoad : (project.settings w).load w.tree w.directory = .ok (some c)) (files : List String) :
    Delivers (Json.list Target.reader) (Selection.targets c.targets files) w
      (select color (project.settings w) files w) := by
  have hName : (project.settings w).output = "json" := congrArg (Option.getD · "human") hOutput
  have hFormat : Terminal.Format.ofName (project.settings w).output = .json := by
    rw [hName]
    rfl
  have hConfig : requireConfig (project.settings w) w = .ok c := by
    rw [requireConfig, hLoad]
  simp only [select, withConfig, hConfig, hFormat]
  exact delivers_document Target.restores.list (by decide) _ w

/-- Records make the round trip. Targets, diagnostics, parts and messages are read as what they were
printed for, in either layout and also in lists, so to read and print a text twice is to do it once.
What is printed for a report is read as its diagnostics, and what is printed for some files is read as
the targets that they select. -/
theorem records_round_trip :
    (RoundTrips Target.reader Target.toJson ∧
      RoundTrips (Json.list Target.reader) fun ts => .array (ts.map Target.toJson)) ∧
    (RoundTrips Diagnostic.reader Diagnostic.toJson ∧
      RoundTrips (Json.list Diagnostic.reader) Diagnostic.listJson) ∧
    (RoundTrips Part.reader Part.toJson ∧
      RoundTrips (Json.list Part.reader) fun ps => .array (ps.map Part.toJson)) ∧
    (RoundTrips Message.reader Message.toJson ∧
      RoundTrips Conversation.reader Conversation.toJson) ∧
    (∀ (color : Bool) (tag root report : String) (w : Workspace),
      Delivers (Json.list Diagnostic.reader) (Report.taggedDiagnostics tag report root) w
        (Command.execute color report.toUTF8 w (.parse tag root))) ∧
    ∀ (color : Bool) (input : ByteArray) (project : ProjectOptions) (w : Workspace) (c : Config)
      (files : List String), project.output = some "json" →
      (project.settings w).load w.tree w.directory = .ok (some c) →
        Delivers (Json.list Target.reader) (Selection.targets c.targets files) w
          (Command.execute color input w (.select project files)) := by
  refine ⟨⟨?_, ?_⟩, ⟨?_, ?_⟩, ⟨?_, ?_⟩, ⟨?_, ?_⟩, delivers_parse, ?_⟩
  · exact Target.restores.roundTrips (by decide)
  · exact Target.restores.list.roundTrips (by decide)
  · exact Diagnostic.restores.roundTrips (by decide)
  · exact Diagnostic.restores.list.roundTrips (by decide)
  · exact Part.restores.roundTrips (by decide)
  · exact Part.restores.list.roundTrips (by decide)
  · exact Message.restores.roundTrips (by decide)
  · exact Message.restores.list.roundTrips (by decide)
  · intro color input project w c files hOutput hLoad
    exact delivers_select color hOutput hLoad files

def ProjectOptions.piped : ProjectOptions := { held with output := some "json" }

theorem settings_piped :
    ProjectOptions.piped.settings (holding modest) = ⟨"/", some "/c.json", "json"⟩ := by
  decide +kernel

/-- A match of one file, in a project with one target. -/
theorem records_round_trip_modest :
    ProjectOptions.piped.output = some "json" ∧
    (ProjectOptions.piped.settings (holding modest)).load (holding modest).tree
        (holding modest).directory = .ok (some modest) ∧
      Delivers (Json.list Target.reader) (Selection.targets modest.targets ["a.go"]) (holding modest)
        (Command.execute true .empty (holding modest) (.select .piped ["a.go"])) := by
  have hLoad : (ProjectOptions.piped.settings (holding modest)).load (holding modest).tree
      (holding modest).directory = .ok (some modest) :=
    load_holding (by rw [settings_piped]) parse_modest
  generalize holding modest = w at hLoad ⊢
  obtain ⟨-, -, -, -, -, hSelect⟩ := records_round_trip
  exact ⟨rfl, hLoad, hSelect true .empty .piped w modest ["a.go"] rfl hLoad⟩

end LintRepair.Cli
