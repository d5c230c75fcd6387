import LintRepair.Glob.Matching
import LintRepair.Lint.Target

/-!
Which targets a set of changed files concerns. Each file belongs to the first target, in configured
order, whose pattern it matches; the selection lists every target that some file belongs to, once,
in configured order. A pattern that is not well formed matches nothing.
-/

namespace LintRepair

/-- A path without a leading `./`. -/
def Selection.bare (file : String) : String :=
  match file.toList with
  | '.' :: '/' :: rest => String.ofList rest
  | _ => file

/-- Whether the pattern of a target is well formed and matches a path. -/
def Target.covers (t : Target) (file : String) : Bool :=
  match Glob.parse t.pattern with
  | .ok tokens => Glob.isMatch tokens (Selection.bare file)
  | .error _ => false

/-- The position of the target a file belongs to. -/
def Selection.owner? (targets : List Target) (file : String) : Option Nat :=
  targets.findIdx? fun t => t.covers file

/-- The positions of the selected targets, in rising order. -/
def Selection.positions (targets : List Target) (files : List String) : List Nat :=
  let owners := files.filterMap (Selection.owner? targets)
  (List.range targets.length).filter fun i => owners.contains i

def Selection.targets (targets : List Target) (files : List String) : List Target :=
  (Selection.positions targets files).filterMap fun i => targets[i]?

end LintRepair
