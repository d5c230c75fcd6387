import LintRepair.Json.Record
import LintRepair.Lint.Diagnostic

/-!
The report of golangci-lint: one JSON object with a list of issues. The format tells neither how
serious an issue is nor whether it can be fixed, so every issue is an error that cannot. A report
with a single unreadable issue gives no diagnostics at all.
-/

namespace LintRepair.Report.IssueList

structure Place where
  file : String
  line : UInt32
  column : UInt32

structure Issue where
  linter : String
  text : String
  place : Place

/-- A place of which some fields may still be missing. -/
structure Place.Draft where
  file : Option String := none
  line : Option UInt32 := none
  column : Option UInt32 := none

/-- The record shape of a place; the column may be missing. -/
def Place.shape : Json.Shape Place.Draft Place where
  name := "Position"
  fields := [
    .of "Filename" true Place.Draft.file (fun d v => { d with file := some v }) Json.text,
    .of "Line" true Place.Draft.line (fun d v => { d with line := some v }) Json.word32,
    .of "Column" false Place.Draft.column (fun d v => { d with column := some v }) Json.word32]
  blank := {}
  build d := do
    let some file := d.file | throw "Filename"
    let some line := d.line | throw "Line"
    return ⟨file, line, d.column.getD 0⟩

/-- An issue of which some fields may still be missing. -/
structure Issue.Draft where
  linter : Option String := none
  text : Option String := none
  place : Option Place := none

def Issue.shape : Json.Shape Issue.Draft Issue where
  name := "Issue"
  fields := [
    .of "FromLinter" true Issue.Draft.linter (fun d v => { d with linter := some v }) Json.text,
    .of "Text" true Issue.Draft.text (fun d v => { d with text := some v }) Json.text,
    .of "Pos" true Issue.Draft.place (fun d v => { d with place := some v })
      (Json.record Place.shape)]
  blank := {}
  build d := do
    let some linter := d.linter | throw "FromLinter"
    let some text := d.text | throw "Text"
    let some place := d.place | throw "Pos"
    return ⟨linter, text, place⟩

/-- The record shape of a report; its issues may be missing or `null`. -/
def shape : Json.Shape (Option (Option (List Issue))) (List Issue) where
  name := "Report"
  fields := [
    .of "Issues" false id (fun _ v => some v)
      (Json.optional (Json.list (Json.record Issue.shape)))]
  blank := none
  build issues := .ok (issues.join.getD [])

def Issue.diagnostic (i : Issue) : Diagnostic where
  file := i.place.file
  line := max i.place.line 1
  column := max i.place.column 1
  rule := i.linter
  severity := .error
  message := i.text
  fixable := false

def diagnostics (output : String) : List Diagnostic :=
  match Json.finish (Json.record shape) output.toList with
  | .ok issues => issues.map Issue.diagnostic
  | .error _ => []

end LintRepair.Report.IssueList
