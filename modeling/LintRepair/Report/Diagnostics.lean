import LintRepair.Lint.Ecosystem
import LintRepair.Report.FileReports
import LintRepair.Report.IssueList
import LintRepair.Report.MessageStream

/-!
The diagnostics of a linter's report. Reading a report never fails: one that cannot be used has no
diagnostics.
-/

namespace LintRepair

/-- The diagnostics of a report in the format of an ecosystem. The project root matters only where
the format has absolute paths. -/
def Ecosystem.diagnostics (e : Ecosystem) (output root : String) : List Diagnostic :=
  match e with
  | .js => Report.FileReports.diagnostics output root
  | .go => Report.IssueList.diagnostics output
  | .rust => Report.MessageStream.diagnostics output

/-- The diagnostics of a report whose format is given by a tag; an unknown tag has none. -/
def Report.taggedDiagnostics (tag output root : String) : List Diagnostic :=
  match Ecosystem.ofTag? tag with
  | some e => e.diagnostics output root
  | none => []

end LintRepair
