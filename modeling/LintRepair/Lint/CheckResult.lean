import LintRepair.Json.Printer
import LintRepair.Lint.Diagnostic
import LintRepair.Lint.Target

/-!
Check results: the diagnostics one check gave, with their count. A check whose command never ran
tells nothing about what could be fixed, so all its diagnostics count as not fixable.
-/

namespace LintRepair

/-- How many diagnostics there are, and how many of them can and cannot be fixed. -/
structure Summary where
  total : Nat
  fixable : Nat
  unfixable : Nat
deriving DecidableEq, Repr

namespace Summary

def counted (ds : List Diagnostic) : Summary :=
  let fixable := (ds.filter Diagnostic.fixable).length
  ⟨ds.length, fixable, ds.length - fixable⟩

/-- The count of diagnostics whose flags are not to be trusted. -/
def unverified (ds : List Diagnostic) : Summary := ⟨ds.length, 0, ds.length⟩

def toJson (s : Summary) : Json :=
  .object [("total", .nat s.total), ("fixable", .nat s.fixable), ("unfixable", .nat s.unfixable)]

end Summary

/-- What a check of one target found. The summary always belongs to the diagnostics. -/
structure CheckResult where
  ecosystem : Ecosystem
  target : String
  diagnostics : List Diagnostic
  summary : Summary
  summary_agrees :
    summary = Summary.counted diagnostics ∨ summary = Summary.unverified diagnostics
deriving DecidableEq

namespace CheckResult

def counted (ecosystem : Ecosystem) (target : String) (ds : List Diagnostic) : CheckResult :=
  ⟨ecosystem, target, ds, .counted ds, .inl rfl⟩

/-- The result of a check that could not be run. -/
def unverified (ecosystem : Ecosystem) (target : String) (ds : List Diagnostic) : CheckResult :=
  ⟨ecosystem, target, ds, .unverified ds, .inr rfl⟩

def isClean (r : CheckResult) : Bool := r.diagnostics.isEmpty

def toJson (r : CheckResult) : Json :=
  .object [("ecosystem", r.ecosystem.toJson), ("target", .string r.target),
    ("errors", Diagnostic.listJson r.diagnostics), ("summary", r.summary.toJson)]

def listJson (rs : List CheckResult) : Json := .array (rs.map toJson)

def totals (rs : List CheckResult) : Summary :=
  rs.foldl (fun acc r => ⟨acc.total + r.summary.total, acc.fixable + r.summary.fixable,
    acc.unfixable + r.summary.unfixable⟩) ⟨0, 0, 0⟩

end CheckResult

end LintRepair
