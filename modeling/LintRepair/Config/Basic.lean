import LintRepair.Glob.Parser
import LintRepair.Lint.Target
import LintRepair.Text.Blank

/-!
Configurations and what makes one unusable. Validation looks at the iteration limit first, then at
each target in order: its pattern, its check command, its fix command.
-/

namespace LintRepair

/-- What a project asks for. -/
structure Config where
  maxIterations : UInt32
  parallel : Bool
  targets : List Target
deriving DecidableEq, Repr

/-- The two commands of a target. -/
inductive Command where
  | check
  | fix
deriving DecidableEq, Repr

def Command.name : Command → String
  | .check => "check"
  | .fix => "fix"

namespace Config

/-- The iteration limit of a configuration that gives none. -/
def defaultMaxIterations : UInt32 := 3

/-- What is wrong with a configuration that could be read. -/
inductive Fault where
  | maxIterations (given : UInt32)
  | emptyCommand (index : Nat) (pattern : String) (command : Command)
  | badPattern (index : Nat) (pattern : String) (cause : Glob.Error)
deriving DecidableEq, Repr

/-- What is wrong with the target at a position, if anything. -/
def targetFault? (index : Nat) (t : Target) : Option Fault :=
  match Glob.parse t.pattern with
  | .error cause => some (.badPattern index t.pattern cause)
  | .ok _ =>
    if Text.isBlankText t.check then some (.emptyCommand index t.pattern .check)
    else if Text.isBlankText t.fix then some (.emptyCommand index t.pattern .fix)
    else none

/-- The first faulty target, counted from a position. -/
def targetsFault? : Nat → List Target → Option Fault
  | _, [] => none
  | index, t :: targets =>
    match targetFault? index t with
    | some fault => some fault
    | none => targetsFault? (index + 1) targets

def fault? (c : Config) : Option Fault :=
  if c.maxIterations < 1 then some (.maxIterations c.maxIterations)
  else targetsFault? 0 c.targets

def Fault.message : Fault → String
  | .maxIterations given =>
    "maxIterations must be at least 1 (got " ++ String.ofList (Nat.toDigits 10 given.toNat) ++ ")"
  | .emptyCommand index pattern command =>
    "target #" ++ String.ofList (Nat.toDigits 10 index) ++ " (" ++ pattern ++ "): " ++
      command.name ++ " command is empty"
  | .badPattern index pattern cause =>
    "target #" ++ String.ofList (Nat.toDigits 10 index) ++ ": invalid glob pattern '" ++
      pattern ++ "': " ++ cause.message

/-- A configuration of which some fields may still be missing. -/
structure Draft where
  maxIterations : Option UInt32 := none
  parallel : Option Bool := none
  targets : Option (List Target) := none

/-- The finished configuration; only the targets are required. -/
def Draft.build (d : Draft) : Except String Config :=
  match d.targets with
  | some targets => .ok ⟨d.maxIterations.getD defaultMaxIterations, d.parallel.getD false, targets⟩
  | none => .error "targets"

def shape : Json.Shape Draft Config where
  name := "Config"
  fields := [
    .of "maxIterations" false Draft.maxIterations (fun d v => { d with maxIterations := some v })
      Json.word32,
    .of "parallel" false Draft.parallel (fun d v => { d with parallel := some v }) Json.boolean,
    .of "targets" true Draft.targets (fun d v => { d with targets := some v })
      (Json.list Target.reader)]
  blank := {}
  build := Draft.build

def reader : Json.Reader Config := Json.record shape

def toJson (c : Config) : Json :=
  .object [("maxIterations", .count c.maxIterations), ("parallel", .bool c.parallel),
    ("targets", .array (c.targets.map Target.toJson))]

end Config

end LintRepair
