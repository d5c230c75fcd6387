import LintRepair.Repair.Outcome
import LintRepair.Repair.Run
import LintRepair.Terminal.Style

/-!
What a reader sees: results and outcomes as lines for people, or as one JSON document. A fix request
is printed as its payload, on one line, so that it can be handed on as it is.
-/

namespace LintRepair.Terminal

/-- Who the output is for. -/
inductive Format where
  | human
  | json
deriving DecidableEq, Repr

/-- The format with a name; every name but `json` is for people. -/
def Format.ofName (name : String) : Format := if name = "json" then .json else .human

/-- What was written to the two streams. -/
structure Printed where
  out : List Char := []
  err : List Char := []

def Printed.append (a b : Printed) : Printed := ⟨a.out ++ b.out, a.err ++ b.err⟩

instance : Append Printed := ⟨Printed.append⟩

/-- The word that opens a line of its kind. -/
inductive Label where
  | error
  | note
  | info
  | ok
deriving DecidableEq, Repr

/-- A label as a piece: bold and in the colour of its kind. -/
def Label.piece : Label → Piece
  | .error => ⟨[.bold, .red], "error:".toList⟩
  | .note => ⟨[.bold, .yellow], "note:".toList⟩
  | .info => ⟨[.bold, .blue], "info:".toList⟩
  | .ok => ⟨[.bold, .green], "ok:".toList⟩

/-- A line on the error stream: label and message. -/
def labelled (color : Bool) (label : Label) (message : String) : Printed :=
  { err := renderLine color [label.piece, plain (' ' :: message.toList)] }

def noticeLabel : NoticeLevel → Label
  | .info => .info
  | .success => .ok
  | .error => .error

def number (n : Nat) : List Char := Nat.toDigits 10 n

def severityColor : Severity → Style
  | .error => .red
  | .warning => .yellow

/-- The sign that opens an entry. -/
def severityIcon : Severity → List Char
  | .error => ['✖']
  | .warning => ['▲']

/-- The name of a severity in an entry. -/
def severityWord : Severity → List Char
  | .error => "⟦error⟧".toList
  | .warning => "⟦warn⟧".toList

def entry (d : Diagnostic) : List Piece :=
  let color := severityColor d.severity
  [⟨[color], severityIcon d.severity⟩, plain [' '],
    ⟨[.bold, color], severityWord d.severity⟩, plain [' '],
    ⟨[.bold], d.file.toList ++ ':' :: number d.line.toNat ++ ':' :: number d.column.toNat⟩,
    plain (" ❲".toList ++ d.rule.toList ++ "❳ ".toList ++ d.message.toList),
    ⟨[.dimmed], if d.fixable then " (fixable)".toList else []⟩]

def heading (r : CheckResult) : List Piece :=
  [⟨[.bold, .cyan], '[' :: r.ecosystem.tag.toList ++ "] ".toList ++ r.target.toList⟩]

def resultLines (r : CheckResult) : List (List Piece) :=
  heading r :: r.diagnostics.map fun d => plain [' ', ' '] :: entry d

def summaryLine (rs : List CheckResult) : List Piece :=
  let totals := CheckResult.totals rs
  [⟨[.bold], "— Summary — targets=".toList ++ number rs.length ++ " total=".toList ++
    number totals.total ++ " fixable=".toList ++ number totals.fixable ++
    " unfixable=".toList ++ number totals.unfixable⟩]

/-- Results and their totals as a JSON value. -/
def resultsJson (rs : List CheckResult) : Json :=
  let totals := CheckResult.totals rs
  .object [("results", CheckResult.listJson rs),
    ("summary", .object [("targets", .nat rs.length), ("total", .nat totals.total),
      ("fixable", .nat totals.fixable), ("unfixable", .nat totals.unfixable)])]

def document (v : Json) : Printed := { out := v.pretty ++ ['\n'] }

def results (format : Format) (color : Bool) (rs : List CheckResult) : Printed :=
  match format with
  | .json => document (resultsJson rs)
  | .human =>
    { out := (rs.flatMap resultLines ++ [summaryLine rs]).flatMap (renderLine color) }

def outcome (format : Format) (color : Bool) (o : Outcome) : Printed :=
  match format, o with
  | .json, o => document o.toJson
  | .human, .skipped reason => labelled color .note ("skipped: " ++ reason.explanation)
  | .human, .passed => {}
  | .human, .requested request => { out := request.payload.toList ++ ['\n'] }
  | .human, .exhausted _ rs => results .human color rs

def diagnostics (ds : List Diagnostic) : Printed := document (Diagnostic.listJson ds)

end LintRepair.Terminal
