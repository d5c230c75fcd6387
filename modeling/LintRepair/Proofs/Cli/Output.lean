import LintRepair.Proofs.Cli.Tools
import LintRepair.Proofs.Repair.Encoding
import LintRepair.Proofs.Repair.Recognition

/-! What a run prints. For programs it is one document and nothing besides, however the run ends and
whatever the tools do; for people the same run gives notice of what it does, and ends with the same
status. -/

namespace LintRepair.Cli.Tools

variable {ρ : Type}

/-- States that differ at most in what is on the terminal. -/
def SameWork (s u : Workspace × ρ) : Prop := ∃ printed, u = ({ s.1 with printed := printed }, s.2)

/-- What is printed for people of an outcome. -/
def listing (color : Bool) : Outcome → List Char
  | .requested request => request.payload.toList ++ ['\n']
  | .exhausted _ results => (Terminal.results .human color results).out
  | _ => []

theorem SameWork.report {s u : Workspace × ρ} (h : SameWork s u) (color : Bool)
    (p q : Project.Settings) (o o' : Outcome) :
    SameWork (aside (reportOutcome color p o) s).2 (aside (reportOutcome color q o') u).2 := by
  obtain ⟨printed, rfl⟩ := h
  exact ⟨_, rfl⟩

end LintRepair.Cli.Tools
