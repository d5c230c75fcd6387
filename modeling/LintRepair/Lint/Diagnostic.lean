import LintRepair.Json.Record

/-!
Diagnostics: what every linter's report is brought to, whatever its own format.
-/

namespace LintRepair

/-- How serious a diagnostic is. -/
inductive Severity where
  | error
  | warning
deriving DecidableEq, Repr

namespace Severity

def name : Severity → String
  | .error => "error"
  | .warning => "warning"

def names : List (String × Severity) := [("error", .error), ("warning", .warning)]

def reader : Json.Reader Severity := Json.variant names

def toJson (s : Severity) : Json := .string s.name

end Severity

/-- One finding of a linter. -/
structure Diagnostic where
  file : String
  line : UInt32
  column : UInt32
  rule : String
  severity : Severity
  message : String
  fixable : Bool
deriving DecidableEq, Repr

namespace Diagnostic

def toJson (d : Diagnostic) : Json :=
  .object [("file", .string d.file), ("line", .count d.line), ("column", .count d.column),
    ("rule", .string d.rule), ("severity", d.severity.toJson), ("message", .string d.message),
    ("fixable", .bool d.fixable)]

def listJson (ds : List Diagnostic) : Json := .array (ds.map toJson)

/-- A diagnostic of which some fields may still be missing. -/
structure Draft where
  file : Option String := none
  line : Option UInt32 := none
  column : Option UInt32 := none
  rule : Option String := none
  severity : Option Severity := none
  message : Option String := none
  fixable : Option Bool := none

/-- The finished diagnostic, or the name of the first missing field. -/
def Draft.build (d : Draft) : Except String Diagnostic := do
  let some file := d.file | throw "file"
  let some line := d.line | throw "line"
  let some column := d.column | throw "column"
  let some rule := d.rule | throw "rule"
  let some severity := d.severity | throw "severity"
  let some message := d.message | throw "message"
  let some fixable := d.fixable | throw "fixable"
  return ⟨file, line, column, rule, severity, message, fixable⟩

def shape : Json.Shape Draft Diagnostic where
  name := "LintError"
  fields := [
    .of "file" true Draft.file (fun d v => { d with file := some v }) Json.text,
    .of "line" true Draft.line (fun d v => { d with line := some v }) Json.word32,
    .of "column" true Draft.column (fun d v => { d with column := some v }) Json.word32,
    .of "rule" true Draft.rule (fun d v => { d with rule := some v }) Json.text,
    .of "severity" true Draft.severity (fun d v => { d with severity := some v }) Severity.reader,
    .of "message" true Draft.message (fun d v => { d with message := some v }) Json.text,
    .of "fixable" true Draft.fixable (fun d v => { d with fixable := some v }) Json.boolean]
  blank := {}
  build := Draft.build

def reader : Json.Reader Diagnostic := Json.record shape

end Diagnostic

end LintRepair
