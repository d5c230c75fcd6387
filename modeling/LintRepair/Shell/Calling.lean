import LintRepair.Shell.Catalogue

/-!
Calling programs. A program gets the shell's files and exported variables and leaves changed files,
what it has written, and a status.
-/

namespace LintRepair.Shell

namespace Calling

/-- The variables that programs get. -/
def environment (p : Process) : List (Raw × Raw) :=
  p.bindings.filterMap fun (name, v) =>
    if v.exported then v.value.map fun value => (name, value) else none

/-- What a program that is called now has to work with. -/
def workFor (name : Raw) (p : Process) : Work :=
  let location (stream : Nat) : Option Files.Location :=
    match p.streamFile? stream with
    | some { target := .file here _, .. } => some here
    | _ => none
  let source := (location 0).bind p.tree.entry?
  { name := name
    tree := p.tree
    directory := p.directory
    input := (p.unread? 0).getD []
    inputIsFile := match source with
      | some (.file _) => true
      | _ => false
    inputFault := match source with
      | some .directory => some .isDirectory
      | _ => none
    output := location 1
    environment := environment p }

/-- The complaint of a program that cannot write. -/
def unwritable (name : Raw) : Raw :=
  let what := if name == "cat".toList then ": standard output" else ": write error"
  name ++ what.toList ++ ": Bad file descriptor\n".toList

/-- Let a program work: what it has worked out, or the status it ended with, and the status it has
reached. -/
def working {α : Type} (name : Raw) (action : Working α) : Act (Except UInt8 α × UInt8) := do
  let p ← get
  let before := workFor name p
  let (result, w) := action.run before
  modify fun p => { p with tree := w.tree }
  modify fun p => p.advance 0 (before.input.length - w.input.length)
  let isLost ← w.written.reverse.foldlM (fun isLost (channel, bytes) => do
    match (← get).write? channel.stream bytes with
    | some p =>
      set p
      return isLost
    | none => return isLost || channel == .out) false
  if isLost then
    Act.report (unwritable name)
    let status : UInt8 := if ["ls", "grep", "sort"].any (·.toList == name) then 2 else 1
    return (result, if w.status = 0 then status else w.status)
  else return (result, w.status)

/-- Call a program for files or text. -/
def callTool (tool : Tool) (name : Raw) (arguments : List Raw) : Act UInt8 := do
  let (result, status) ← working name (tool arguments)
  match result with
  | .ok () => return status
  | .error status => return status

/-- Call a program on the search path; called in another way it has nothing to say. -/
def callProgram (program : Program) (arguments : List Raw) : Act UInt8 := do
  if arguments == program.arguments.map Raw.ofString then
    modify fun p => (p.write? 1 (Raw.ofBytes program.output)).getD p
    return program.status
  else return 0

/-- Why a command cannot be called as a program: the reason, and the status that tells it. -/
def refusal? (p : Process) (name : Raw) : Option (String × UInt8) :=
  let denied := some ("Permission denied", notExecutable)
  let meaning :=
    if name.contains '/' then .file name
    else Meaning.inDirectories p name (Raw.parts ':' ((p.value? "PATH".toList).getD []))
  match meaning with
  | .file path =>
    if (Tool.ofPath? path).isSome then none
    else
      match p.tree.find p.directory (Raw.text path) with
      | .ok (here, .file _) => if p.tree.runnable.contains here then none else denied
      | .ok (_, .directory) => denied
      | .error cause => some (cause.text, commandNotFound)
  | .denied => denied
  | .nothing => some (Files.Failure.notFound.text, commandNotFound)
  | _ => none

/-- Call a command in the name of another program. If it cannot be called, that program says so in
its own words. -/
def through (call : List Raw → Act UInt8) (name : Raw) (words : String) (marks : Bool)
    (arguments : List Raw) : Act UInt8 := do
  match refusal? (← get) (arguments.headD []) with
  | none => call arguments
  | some (reason, status) =>
    let target := arguments.headD []
    let shown := if marks then Working.quoted target else target
    Act.report (name ++ ": ".toList ++ words.toList ++ shown ++ ": ".toList ++ reason.toList
      ++ ['\n'])
    return status

end Calling

end LintRepair.Shell
