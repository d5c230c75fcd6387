import LintRepair.Repair.Run
import LintRepair.Shell.Script
import LintRepair.Terminal.Output
import LintRepair.Workspace.Transcript

/-!
The place a project is worked on: its files, the programs on the search path, and the terminal.
Checks and fixes are shell commands in the project's root, the conversation is a transcript file,
and notices go to the terminal's error stream.
-/

namespace LintRepair

open Files (Tree Location)

/-- Files, the directory that relative paths start from, programs, and what was printed. -/
structure Workspace where
  tree : Tree
  directory : Location
  programs : List Shell.Program
  printed : Terminal.Printed := {}

namespace Workspace

def print (w : Workspace) (p : Terminal.Printed) : Workspace := { w with printed := w.printed ++ p }

def commandDirectory (w : Workspace) (directory : String) : Except Files.Failure Location := do
  match ← w.tree.find w.directory directory with
  | (here, .directory) => .ok here
  | (_, .file _) => .error .notDirectory

/-- The number of bytes that a command may have. -/
def longestCommand : Nat := 131071

def shell (command directory : String) (w : Workspace) : Shell.Execution × Workspace :=
  if command.toList.contains '\x00' || directory.toList.contains '\x00' then
    (.ofEnding .empty .empty (.notStarted .nulInCommand), w)
  else
    match w.commandDirectory directory with
    | .error cause => (.ofEnding .empty .empty (.notStarted cause), w)
    | .ok here =>
      if longestCommand < command.utf8ByteSize then
        (.ofEnding .empty .empty (.notStarted .argumentTooLong), w)
      else
        let e := (Shell.Process.start w.tree here w.programs).run command
        (.ofEnding e.out e.err e.ending, { w with tree := e.tree })

/-- The runner that uses the shell in a root directory. -/
def runner (root : String) : Runner Workspace where
  check t w :=
    let (e, w) := w.shell t.check root
    (t.checkResult root e, w)
  fix t w := (w.shell t.fix root).2

/-- The paths in a list of changed files, one to a line. -/
def changedPaths (output : ByteArray) : List String :=
  (Text.lines (Text.textLossy output).toList).filterMap fun line =>
    let path := Text.trim line
    if path.isEmpty then none else some (String.ofList path)

/-- The files that differ from the index; none if that cannot be found out. -/
def changedFiles (root : String) (w : Workspace) : List String :=
  match w.commandDirectory root with
  | .error _ => []
  | .ok _ =>
    match w.programs.find? fun p => p.name == "git" && p.arguments == ["diff", "--name-only"] with
    | some p => if p.status = 0 then changedPaths p.output else []
    | none => []

/-- How the terminal user wants a run to be made. -/
structure Options where
  root : String
  files : Option (List String) := none
  transcript : Option String := none
  quiet : Bool := false
  color : Bool := false

/-- The conversation before a run, nothing if it cannot be read. Without a transcript it is
empty. -/
def history (o : Options) (w : Workspace) : Option Conversation :=
  match o.transcript with
  | some path => (Transcript.read w.tree w.directory path).toOption
  | none => some []

/-- Deliver a request: append it to the transcript, if there is one. -/
def prompt (o : Options) (text : String) (w : Workspace) : Bool × Workspace :=
  match o.transcript with
  | some path =>
    let (fault, tree) := Transcript.append w.tree w.directory path (.userText text)
    (fault.isNone, { w with tree := tree })
  | none => (true, w)

/-- Print a notice, unless that is not wanted. -/
def notify (o : Options) (level : NoticeLevel) (text : String) (w : Workspace) : Workspace :=
  if o.quiet then w else w.print (Terminal.labelled o.color (Terminal.noticeLabel level) text)

/-- The workplace for runs from a terminal. -/
def workplace (o : Options) : Workplace Workspace where
  toRunner := runner o.root
  changedFiles w := o.files.getD (w.changedFiles o.root)
  history w := w.history o
  prompt text w := w.prompt o text
  notify := notify o

end Workspace

end LintRepair
