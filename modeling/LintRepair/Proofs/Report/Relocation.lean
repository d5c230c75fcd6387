import LintRepair.Proofs.Report.FileDecoding
import LintRepair.Report.Diagnostics

/-! What the root of a project does to a report. It decides how the files of a report with absolute
paths are named and nothing else, and a name is cut behind a whole segment or not at all. -/

namespace LintRepair.Report.FileReports

open Json (WritesText)

/-- A root without the separators at its end. -/
def trimmed (root : List Char) : List Char := root.rdropWhile (· ∈ ['/', '\\'])

/-- The name that a file has in the diagnostics if the project lies at the root. Below the root it is
what follows the root and one separator. A path that goes on in the middle of a segment, the root
itself, and every path when nothing of the root is left stay as they are. -/
structure ReportedAs (root path file : List Char) : Prop where
  below : trimmed root ≠ [] → ∀ separator ∈ ['/', '\\'], ∀ rest,
    path = trimmed root ++ separator :: rest → file = rest
  apart : (∀ separator ∈ ['/', '\\'], ∀ rest, path ≠ trimmed root ++ separator :: rest) → file = path
  rootless : trimmed root = [] → file = path

/-- Diagnostics that say the same of files which may have different names. -/
def SameBesidesFile (d e : Diagnostic) : Prop := e = { d with file := e.file }

theorem bareRoot_eq_trimmed (root : List Char) : bareRoot root = trimmed root := by
  have hSame : isSeparator = fun c => decide (c ∈ ['/', '\\']) := by
    funext c
    exact Bool.eq_iff_iff.mpr (isSeparator_iff.trans decide_eq_true_iff.symm)
  rw [bareRoot, trimmed, List.rdropWhile, hSame]

theorem isBelow_iff {root path rest : List Char} : IsBelow root path rest ↔
    trimmed root ≠ [] ∧ ∃ separator ∈ ['/', '\\'], path = trimmed root ++ separator :: rest := by
  rw [← bareRoot_eq_trimmed]
  constructor
  · rintro ⟨hLast, hEnds, separates⟩
    rw [bareRoot_append hLast hEnds]
    exact ⟨by simp, _, separates, List.append_cons _ _ _⟩
  · rintro ⟨hSome, separator, separates, rfl⟩
    obtain ⟨front, last, ends, rfl, hLast, hEnds⟩ := exists_of_bareRoot_ne_nil hSome
    rw [bareRoot_append hLast hEnds, ← List.append_cons]
    exact .below hLast hEnds separates

theorem reportedAs_relativeTo (root path : List Char) :
    ReportedAs root path (relativeTo path root) := by
  have hSame := isBelow_or_relativeTo_eq path root
  constructor
  · intro hSome separator separates rest hPath
    exact relativeTo_of_isBelow (isBelow_iff.mpr ⟨hSome, separator, separates, hPath⟩)
  · intro hApart
    refine hSame.resolve_left fun hBelow => ?_
    obtain ⟨-, separator, separates, hPath⟩ := isBelow_iff.mp hBelow
    exact hApart separator separates _ hPath
  · intro hNone
    exact hSame.resolve_left fun hBelow => (isBelow_iff.mp hBelow).1 hNone

/-- Separators at the end of a root make no difference. -/
theorem relativeTo_append_separators {ends : List Char} (hEnds : ∀ c ∈ ends, c ∈ ['/', '\\'])
    (path root : List Char) : relativeTo path (root ++ ends) = relativeTo path root := by
  have hBare : bareRoot (root ++ ends) = bareRoot root := by
    rw [bareRoot, List.reverse_append, List.dropWhile_append_of_pos fun c hc =>
      isSeparator_iff.mpr (hEnds c (List.mem_reverse.mp hc)), bareRoot]
  rw [relativeTo, relativeTo, hBare]

/-- A text holds the same entries whatever the root is. -/
theorem exists_entries (text : String) :
    ∃ files : List FileReport, ∀ root, diagnostics text root = files.flatMap fun f => f.diagnostics root := by
  unfold diagnostics
  cases Json.finish (Json.list (Json.record FileReport.shape)) text.toList with
  | ok files => exact ⟨files, fun root => rfl⟩
  | error fault => exact ⟨[], fun root => rfl⟩

/-- Reports at two roots are related one diagnostic after the other if those of every problem are. -/
theorem forall₂_diagnostics {R : Diagnostic → Diagnostic → Prop} {root other : String}
    (h : ∀ (path : String) (p : Problem),
      R (p.diagnostic (String.ofList (relativeTo path.toList root.toList)))
        (p.diagnostic (String.ofList (relativeTo path.toList other.toList))))
    (text : String) : List.Forall₂ R (diagnostics text root) (diagnostics text other) := by
  obtain ⟨files, hFiles⟩ := exists_entries text
  rw [hFiles, hFiles]
  refine List.rel_flatMap (List.forall₂_same.mpr fun f _ => rfl) ?_
  rintro f _ rfl
  exact List.forall₂_map_left_iff.mpr (List.forall₂_map_right_iff.mpr
    (List.forall₂_same.mpr fun p _ => h f.path p))

/-- The root decides about the names of files alone. In a report with absolute paths each file has the
name that its path has at the root, which is the path itself without a root, and separators at the end
of the root make no difference; all else, and a report of any other kind, is the same at every root. -/
theorem root_confined_to_file :
    (∀ (text root : String) (items : List Json) (files : List FileFindings),
      WritesText text.toList (.array items) → List.Forall₂ GivesFile items files →
        List.Forall₂ (fun placed d => ReportedAs root.toList placed.1.toList d.file.toList)
          (files.flatMap FileFindings.placed) (Ecosystem.js.diagnostics text root)) ∧
    (∀ text root : String,
      List.Forall₂ (fun plain d => ReportedAs root.toList plain.file.toList d.file.toList)
        (Ecosystem.js.diagnostics text "") (Ecosystem.js.diagnostics text root)) ∧
    (∀ text root ends : String, (∀ c ∈ ends.toList, c ∈ ['/', '\\']) →
      Ecosystem.js.diagnostics text (root ++ ends) = Ecosystem.js.diagnostics text root) ∧
    ∀ text root other : String,
      List.Forall₂ SameBesidesFile (Ecosystem.js.diagnostics text root)
        (Ecosystem.js.diagnostics text other) ∧
      Ecosystem.go.diagnostics text root = Ecosystem.go.diagnostics text other ∧
      Ecosystem.rust.diagnostics text root = Ecosystem.rust.diagnostics text other := by
  refine ⟨?_, ?_, ?_, fun text root other => ⟨?_, rfl, rfl⟩⟩
  · intro text root items files hWrites hGives
    rw [Ecosystem.diagnostics, diagnostics_eq hWrites hGives, List.forall₂_map_right_iff,
      List.forall₂_same]
    intro placed _
    rw [diagnosticOf, Problem.diagnostic, String.toList_ofList]
    exact reportedAs_relativeTo _ _
  · intro text root
    refine forall₂_diagnostics (fun path p => ?_) text
    simp only [Problem.diagnostic, String.toList_ofList]
    exact reportedAs_relativeTo _ _
  · intro text root ends hEnds
    refine List.forall₂_eq_eq_eq ▸ forall₂_diagnostics (fun path p => ?_) text
    rw [String.toList_append, relativeTo_append_separators hEnds]
  · exact forall₂_diagnostics (R := SameBesidesFile) (fun path p => rfl) text

/-- A file below the root, with more separators at the end of the root than it needs. -/
theorem root_confined_to_file_styled :
    WritesText (String.ofList (Json.array [styledEntry]).compact).toList (.array [styledEntry]) ∧
    List.Forall₂ GivesFile [styledEntry] [styledFile] ∧
    List.Forall₂ (fun placed d => ReportedAs "/w".toList placed.1.toList d.file.toList)
      styledFile.placed
      (Ecosystem.js.diagnostics (String.ofList (Json.array [styledEntry]).compact) ("/w" ++ "/\\")) ∧
    ReportedAs "/w".toList "/w/a.js".toList "a.js".toList := by
  have hWrites : WritesText (String.ofList (Json.array [styledEntry]).compact).toList
      (.array [styledEntry]) := by
    rw [String.toList_ofList]
    exact (Json.Exact.array (List.forall_mem_singleton.mpr exact_styledEntry)).writesText_compact
  have hGives := List.Forall₂.cons givesFile_styled .nil
  obtain ⟨hReported, -, hEnds, -⟩ := root_confined_to_file
  have hSlashes : ∀ c ∈ "/\\".toList, c ∈ ['/', '\\'] := by
    intro c hc
    simpa using hc
  refine ⟨hWrites, hGives, ?_, ?_⟩
  · rw [hEnds _ _ _ hSlashes]
    exact hReported _ _ _ [styledFile] hWrites hGives
  · exact reportedAs_relativeTo _ _

end LintRepair.Report.FileReports
