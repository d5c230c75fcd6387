import LintRepair.Shell.Run

/-!
Running a script in a shell of its own, as a program that calls the shell sees it.
-/

namespace LintRepair.Shell

namespace Run

mutual

/-- Carry out a script. Scripts may call one another only so deep: a shell that runs out of room for
its calls is ended by a signal. -/
def perform : Nat → Perform
  | 0 => fun _ _ => throw (.signal 11)
  | depth + 1 => step (perform depth) (call depth)

/-- Call a program by the name in front of its arguments. -/
def call : Nat → List Raw → Act UInt8
  | 0, _ => throw (.signal 11)
  | _, [] => return 0
  | depth + 1, name :: arguments => callOther (perform depth) (call depth) name arguments

end

/-- How deep scripts may call one another. -/
def deepest : Nat := 3000

/-- Carry out a whole text, and then what is to be done at the end. -/
def whole (source : Raw) : Act Unit := do
  match ← Act.attempt (text (perform deepest) false source) with
  | .error (.signal n) => throw (.signal n)
  | .ok status =>
    Act.ending status
    atEnd (perform deepest)
  | .error _ => atEnd (perform deepest)

end Run

/-- What a shell leaves when it ends: how it ended, what was written, and the files. -/
structure Ended where
  ending : Ending
  out : ByteArray
  err : ByteArray
  tree : Files.Tree

namespace Process

def run (p : Process) (source : String) : Ended :=
  let (result, p) := (Run.whole (Raw.ofString source)) p
  { ending := match result with
      | .error (.signal n) => .killed n
      | _ => .exited p.status
    out := Raw.toBytes (p.collected 1)
    err := Raw.toBytes (p.collected 2)
    tree := p.tree }

end Process

end LintRepair.Shell
