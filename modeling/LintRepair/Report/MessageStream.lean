import LintRepair.Json.Reader
import LintRepair.Json.Row
import LintRepair.Lint.Diagnostic
import LintRepair.Text.Blank

/-!
The report of Clippy: a stream of JSON messages, one on a line, of which those with the reason
`compiler-message` carry a diagnostic. Each line stands alone; a line that cannot be read is passed
over and does not touch the others. A message is a diagnostic only if it has a primary place in a
file.
-/

namespace LintRepair.Report.MessageStream

/-- A place in a file. -/
structure Span where
  file : String
  line : UInt32
  column : UInt32
  primary : Bool

/-- A note attached to a message. -/
structure Note where
  level : String
  message : String

/-- A message about code. -/
structure CompilerMessage where
  message : String
  level : String
  code : Option String
  spans : List Span
  notes : List Note

def Span.ofJson? (v : Json) : Option Span := do
  match ← v.row? ["file_name", "line_start", "column_start", "is_primary"] with
  | [some file, some line, some column, primary] =>
    let primary ← Json.orElse? false Json.bool? primary
    return ⟨← file.string?, ← line.word32?, ← column.word32?, primary⟩
  | _ => none

/-- Read a note; a missing level or message is empty. -/
def Note.ofJson? (v : Json) : Option Note := do
  match ← v.row? ["level", "message"] with
  | [level, message] =>
    return ⟨← Json.orElse? "" Json.string? level, ← Json.orElse? "" Json.string? message⟩
  | _ => none

/-- Read the name of a lint; it may be given as `null`. -/
def code? : Json → Option (Option String)
  | .null => some none
  | v => do
    match ← v.row? ["code"] with
    | [some name] => return some (← name.string?)
    | _ => none

def CompilerMessage.ofJson? (v : Json) : Option CompilerMessage := do
  match ← v.row? ["message", "level", "code", "spans", "children"] with
  | [some message, some level, code, spans, notes] =>
    return ⟨← message.string?, ← level.string?, ← Json.orElse? none code? code,
      ← Json.orElse? [] (Json.list? Span.ofJson?) spans,
      ← Json.orElse? [] (Json.list? Note.ofJson?) notes⟩
  | _ => none

/-- The reason of a record and what remains of it. In an object the reason is the one member of
that name; in an array it is the first item. -/
def reason? : Json → Option (String × Json)
  | .object members => do
    let some reason ← Json.member? "reason" members | none
    return (← reason.string?, .object (members.filter fun (n, _) => n != "reason"))
  | .array (reason :: rest) => do return (← reason.string?, .array rest)
  | _ => none

def message? (line : List Char) : Option CompilerMessage := do
  let .ok v := Json.parse line | none
  let (reason, rest) ← reason? v
  if reason = "compiler-message" then
    match ← rest.row? ["message"] with
    | [some message] => CompilerMessage.ofJson? message
    | _ => none
  else none

/-- The rule name of a message without a lint name. -/
def unnamedRule : String := "clippy"

/-- The words by which a note offers a replacement. -/
def suggestion : List Char := "did you mean".toList

/-- Some note offers a replacement. -/
def CompilerMessage.hasSuggestion (m : CompilerMessage) : Bool :=
  m.notes.any fun n => n.level == "help" && Text.hasInfix suggestion n.message.toList

def CompilerMessage.rule (m : CompilerMessage) : String :=
  match m.code with
  | some name => if name = "" then unnamedRule else name
  | none => unnamedRule

/-- The diagnostic of a message, at its first primary place. -/
def CompilerMessage.diagnostic? (m : CompilerMessage) : Option Diagnostic := do
  let span ← m.spans.find? Span.primary
  return {
    file := span.file
    line := max span.line 1
    column := max span.column 1
    rule := m.rule
    severity := if m.level = "error" then .error else .warning
    message := m.message
    fixable := m.hasSuggestion }

/-- The diagnostic of a line, if it has one. -/
def lineDiagnostic? (line : List Char) : Option Diagnostic := do
  let m ← message? (Text.trim line)
  m.diagnostic?

def diagnostics (output : String) : List Diagnostic :=
  (Text.lines output.toList).filterMap lineDiagnostic?

end LintRepair.Report.MessageStream
