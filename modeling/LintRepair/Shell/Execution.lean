import LintRepair.Files.Tree
import LintRepair.Lint.CheckResult
import LintRepair.Report.Diagnostics
import LintRepair.Text.Blank
import LintRepair.Text.Utf8

/-!
What running a command tells. A linter that finds something exits with a failure status, so a status
is no sign of trouble; only a command that could not be run at all makes a check unverified.
-/

namespace LintRepair

namespace Shell

/-- How a command ended. -/
inductive Ending where
  | exited (status : UInt8)
  | killed (signal : Nat)
  | notStarted (cause : Files.Failure)
deriving DecidableEq, Repr

/-- The names of the signals that end a process. -/
def signalNames : List (Nat × String) :=
  [(1, "HUP"), (2, "INT"), (3, "QUIT"), (4, "ILL"), (5, "TRAP"), (6, "ABRT"), (7, "BUS"),
    (8, "FPE"), (9, "KILL"), (10, "USR1"), (11, "SEGV"), (12, "USR2"), (13, "PIPE"), (14, "ALRM"),
    (15, "TERM"), (16, "STKFLT"), (24, "XCPU"), (25, "XFSZ"), (26, "VTALRM"), (27, "PROF"),
    (29, "IO"), (30, "PWR"), (31, "SYS")]

def signalText (signal : Nat) : String :=
  let name := match signalNames.lookup signal with
    | some name => " (SIG" ++ name ++ ")"
    | none => ""
  "signal: " ++ String.ofList (Nat.toDigits 10 signal) ++ name

/-- The status of a command that is there but cannot be run. -/
def notExecutable : UInt8 := 126

def commandNotFound : UInt8 := 127

/-- What is known after a command: it ran and gave a status, or it could not be run for a reason. -/
inductive Execution where
  | completed (status : Int32) (out err : String)
  | failed (reason out err : String)
deriving DecidableEq, Repr

namespace Execution

/-- What is known from the ending and from what was written. -/
def ofEnding (out err : ByteArray) : Ending → Execution
  | .exited status =>
    let out := Text.textLossy out
    let err := Text.textLossy err
    if status = notExecutable ∨ status = commandNotFound then
      .failed ("command could not be executed (exit exit status: " ++
        String.ofList (Nat.toDigits 10 status.toNat) ++ ")") out err
    else .completed (Int32.ofNat status.toNat) out err
  | .killed signal =>
    .failed ("terminated by signal (" ++ signalText signal ++ ")") (Text.textLossy out)
      (Text.textLossy err)
  | .notStarted cause => .failed ("failed to spawn shell: " ++ cause.message) "" ""

/-- What was written to the output stream. -/
def out : Execution → String
  | .completed _ out _ => out
  | .failed _ out _ => out

/-- What was written to the error stream. -/
def err : Execution → String
  | .completed _ _ err => err
  | .failed _ _ err => err

/-- The text to look for diagnostics in: the output, or if that is blank, the error stream. -/
def diagnosticsText (e : Execution) : String := if Text.isBlankText e.out then e.err else e.out

/-- Whether the command could not be run. -/
def isFailed : Execution → Bool
  | .completed _ _ _ => false
  | .failed _ _ _ => true

end Execution

end Shell

/-- The result of a check from what running its command told. -/
def Target.checkResult (t : Target) (root : String) (e : Shell.Execution) : CheckResult :=
  let found := t.ecosystem.diagnostics e.diagnosticsText root
  if e.isFailed then .unverified t.ecosystem t.pattern found
  else .counted t.ecosystem t.pattern found

end LintRepair
