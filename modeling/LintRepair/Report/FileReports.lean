import LintRepair.Json.Record
import LintRepair.Lint.Diagnostic
import LintRepair.Text.Blank

/-!
The report of ESLint: a JSON array with one entry for each file. Paths are absolute there and are
given relative to the project root here. A report with a single unreadable entry gives no
diagnostics at all.
-/

namespace LintRepair.Report.FileReports

/-- One problem in a file. The edit that would fix it is not looked into. -/
structure Problem where
  rule : Option String
  severity : Int
  message : String
  line : Option UInt32
  column : Option UInt32
  fixable : Bool

/-- The problems of one file. -/
structure FileReport where
  path : String
  problems : List Problem

/-- A problem of which some fields may still be missing. -/
structure Problem.Draft where
  rule : Option (Option String) := none
  severity : Option Int := none
  message : Option String := none
  line : Option (Option UInt32) := none
  column : Option (Option UInt32) := none
  edit : Option (Option Json) := none

/-- How deep an edit may be nested: it stands four levels inside the report. -/
def editDepth : Nat := Json.maxDepth - 4

/-- The record shape of a problem; only the severity and the message are required. -/
def Problem.shape : Json.Shape Problem.Draft Problem where
  name := "Message"
  fields := [
    .of "ruleId" false Problem.Draft.rule (fun d v => { d with rule := some v })
      (Json.optional Json.text),
    .of "severity" true Problem.Draft.severity (fun d v => { d with severity := some v })
      Json.signed64,
    .of "message" true Problem.Draft.message (fun d v => { d with message := some v }) Json.text,
    .of "line" false Problem.Draft.line (fun d v => { d with line := some v })
      (Json.optional Json.word32),
    .of "column" false Problem.Draft.column (fun d v => { d with column := some v })
      (Json.optional Json.word32),
    .of "fix" false Problem.Draft.edit (fun d v => { d with edit := some v })
      (Json.optional (Json.value .read editDepth))]
  blank := {}
  build d := do
    let some severity := d.severity | throw "severity"
    let some message := d.message | throw "message"
    return ⟨d.rule.join, severity, message, d.line.join, d.column.join, d.edit.join.isSome⟩

/-- A file entry of which some fields may still be missing. -/
structure FileReport.Draft where
  path : Option String := none
  problems : Option (List Problem) := none

/-- The record shape of a file entry. -/
def FileReport.shape : Json.Shape FileReport.Draft FileReport where
  name := "FileResult"
  fields := [
    .of "filePath" true FileReport.Draft.path (fun d v => { d with path := some v }) Json.text,
    .of "messages" true FileReport.Draft.problems (fun d v => { d with problems := some v })
      (Json.list (Json.record Problem.shape))]
  blank := {}
  build d := do
    let some path := d.path | throw "filePath"
    let some problems := d.problems | throw "messages"
    return ⟨path, problems⟩

/-- The two characters that separate path segments. -/
def isSeparator (c : Char) : Bool := c == '/' || c == '\\'

/-- A root without the separators at its end. -/
def bareRoot (root : List Char) : List Char := (root.reverse.dropWhile isSeparator).reverse

/-- A path relative to a root. The root and one separator are removed; a path that does not lie
below the root is left as it is. -/
def relativeTo (path root : List Char) : List Char :=
  match bareRoot root with
  | [] => path
  | bare =>
    match Text.dropLead? bare path with
    | some (c :: rest) => if isSeparator c then rest else path
    | _ => path

/-- The rule name of a problem without one. -/
def unnamedRule : String := "unknown"

/-- The diagnostic of a problem in a file. Two is the only severity of an error. -/
def Problem.diagnostic (file : String) (p : Problem) : Diagnostic where
  file := file
  line := max (p.line.getD 1) 1
  column := max (p.column.getD 1) 1
  rule := p.rule.getD unnamedRule
  severity := if p.severity = 2 then .error else .warning
  message := p.message
  fixable := p.fixable

def FileReport.diagnostics (root : String) (f : FileReport) : List Diagnostic :=
  let file := String.ofList (relativeTo f.path.toList root.toList)
  f.problems.map fun p => p.diagnostic file

def diagnostics (output root : String) : List Diagnostic :=
  match Json.finish (Json.list (Json.record FileReport.shape)) output.toList with
  | .ok files => files.flatMap fun f => f.diagnostics root
  | .error _ => []

end LintRepair.Report.FileReports
