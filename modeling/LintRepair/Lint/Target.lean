import LintRepair.Lint.Ecosystem

/-!
Lint targets: which files concern a linter, and the commands that check and fix them.
-/

namespace LintRepair

/-- A linter with the files it is responsible for. -/
structure Target where
  pattern : String
  ecosystem : Ecosystem
  check : String
  fix : String
deriving DecidableEq, Repr

namespace Target

def toJson (t : Target) : Json :=
  .object [("pattern", .string t.pattern), ("ecosystem", t.ecosystem.toJson),
    ("check", .string t.check), ("fix", .string t.fix)]

/-- A target of which some fields may still be missing. -/
structure Draft where
  pattern : Option String := none
  ecosystem : Option Ecosystem := none
  check : Option String := none
  fix : Option String := none

/-- The finished target, or the name of the first missing field. -/
def Draft.build (d : Draft) : Except String Target := do
  let some pattern := d.pattern | throw "pattern"
  let some ecosystem := d.ecosystem | throw "ecosystem"
  let some check := d.check | throw "check"
  let some fix := d.fix | throw "fix"
  return ⟨pattern, ecosystem, check, fix⟩

def shape : Json.Shape Draft Target where
  name := "LintTarget"
  fields := [
    .of "pattern" true Draft.pattern (fun d v => { d with pattern := some v }) Json.text,
    .of "ecosystem" true Draft.ecosystem (fun d v => { d with ecosystem := some v })
      Ecosystem.reader,
    .of "check" true Draft.check (fun d v => { d with check := some v }) Json.text,
    .of "fix" true Draft.fix (fun d v => { d with fix := some v }) Json.text]
  blank := {}
  build := Draft.build

def reader : Json.Reader Target := Json.record shape

end Target

end LintRepair
