import LintRepair.Shell.Builtin.System
import LintRepair.Shell.Builtin.Variables
import LintRepair.Shell.ScriptReader
import LintRepair.Shell.Tool.Difference
import LintRepair.Shell.Tool.Editing.Run
import LintRepair.Shell.Tool.Numbers
import LintRepair.Shell.Tool.Order
import LintRepair.Shell.Tool.Plain
import LintRepair.Shell.Tool.Search
import LintRepair.Shell.Tool.Text

/-!
What a command name stands for: a keyword, a function, a command of the shell's own, or a program.
-/

namespace LintRepair.Shell

namespace Builtin

def succeed : Builtin := fun _ => return 0

def refuse : Builtin := fun _ => return 1

def testCommand : Builtin := fun arguments => do
  return if ← Condition.truth (arguments.length + 1) arguments then 0 else 1

def bracketCommand : Builtin := fun arguments => do
  if arguments.getLast? == some [']'] then testCommand arguments.dropLast
  else Act.fail "missing ]".toList

/-- The shell's own commands that need no script to be carried out. -/
def table : List (String × Builtin) :=
  [(":", succeed), ("true", succeed), ("false", refuse), ("echo", echoCommand),
    ("printf", printfCommand), ("test", testCommand), ("[", bracketCommand), ("cd", cdCommand),
    ("chdir", cdCommand), ("pwd", pwdCommand), ("exit", exitCommand), ("return", returnCommand),
    ("break", leaveLoops .leave), ("continue", leaveLoops .again), ("set", setCommand),
    ("shift", shiftCommand), ("export", exportCommand), ("readonly", readonlyCommand),
    ("unset", unsetCommand), ("local", localCommand), ("read", readCommand),
    ("getopts", getoptsCommand), ("alias", aliasCommand), ("unalias", unaliasCommand),
    ("umask", umaskCommand), ("trap", trapCommand), ("kill", killCommand), ("wait", waitCommand),
    ("times", timesCommand), ("ulimit", ulimitCommand), ("jobs", succeed), ("fg", noJob),
    ("bg", noJob)]

/-- The shell's own commands that carry out scripts or other commands. -/
def scripted : List String := ["eval", ".", "exec", "command", "type", "hash"]

/-- Whether a name is one of the shell's own commands. -/
def isKnown (name : Raw) : Bool :=
  (table.any fun (known, _) => known.toList == name) || scripted.any (·.toList == name)

/-- Whether the errors of a command end the shell. -/
def isSpecial (name : Raw) : Bool := specialNames.any (·.toList == name)

/-- Commands whose arguments may assign values, so that these are not split. -/
def assigns (name : Raw) : Bool :=
  ["export", "readonly", "local", "alias"].any (·.toList == name)

end Builtin

namespace Tool

/-- Programs for files and text. -/
def table : List (String × Tool) :=
  [("cat", cat), ("tac", tac), ("rev", rev), ("nl", nl), ("tee", tee), ("head", head),
    ("tail", tail), ("wc", wc), ("uniq", uniq), ("cut", cut), ("paste", paste), ("fold", fold),
    ("tr", tr), ("sort", sort), ("comm", comm), ("grep", grep), ("egrep", egrep),
    ("fgrep", fgrep), ("sed", sed), ("basename", basename), ("dirname", dirname),
    ("realpath", realpath), ("seq", seq), ("expr", expr), ("ls", ls), ("touch", touch),
    ("mkdir", mkdir), ("rmdir", rmdir), ("rm", rm), ("cp", cp), ("mv", mv), ("chmod", chmod),
    ("cmp", cmp), ("diff", diff), ("true", succeed), ("false", refuse), ("echo", echo),
    ("printf", printf), ("pwd", pwd), ("printenv", printenv), ("sleep", sleep), ("sync", sync)]

/-- Programs that call other programs, or the shell itself. -/
def scripted : List String :=
  ["sh", "dash", "bash", "env", "xargs", "timeout", "nohup", "nice", "find", "which", "test", "["]

def named? (name : Raw) : Option Tool :=
  (table.find? fun (known, _) => known.toList == name).map (·.2)

def isProgram (name : Raw) : Bool :=
  (named? name).isSome || scripted.any (·.toList == name)

def places : List String := ["/bin/", "/usr/bin/"]

/-- The name of the program that a path leads to, if it is one of the system's. -/
def ofPath? (path : Raw) : Option Raw :=
  (places.find? fun place => place.toList.isPrefixOf path).bind fun place =>
    let name := path.drop place.length
    if isProgram name then some name else none

end Tool

/-- What a name stands for. -/
inductive Meaning where
  | function (body : Script)
  | builtin
  | given (program : Program)
  | tool
  | file (path : Raw)
  | denied
  | nothing

namespace Meaning

/-- What a name stands for in one of the directories that programs are looked for in. -/
def inDirectory (p : Process) (name directory : Raw) : Meaning :=
  if Tool.places.any fun place => place.toList == directory ++ ['/'] then
    match p.programs.find? fun program => program.name.toList == name with
    | some program => .given program
    | none => if Tool.isProgram name then .tool else .nothing
  else
    let path := if directory.isEmpty then name else directory ++ '/' :: name
    match p.tree.find p.directory (Raw.text path) with
    | .ok (here, .file _) => if p.tree.runnable.contains here then .file path else .denied
    | _ => .nothing

/-- What a name stands for in the first of several directories that has it. -/
def inDirectories (p : Process) (name : Raw) : List Raw → Meaning
  | [] => .nothing
  | directory :: rest =>
    match inDirectory p name directory with
    | .nothing => inDirectories p name rest
    | .denied =>
      match inDirectories p name rest with
      | .nothing => .denied
      | found => found
    | found => found

/-- What a name stands for when a command is called by it. -/
def ofName (p : Process) (withFunctions : Bool) (name : Raw) : Meaning :=
  if name.contains '/' then .file name
  else
    match if withFunctions then p.functions.lookup name else none with
    | some body => .function body
    | none =>
      if Builtin.isKnown name then .builtin
      else
        match p.value? "PATH".toList with
        | some path => if name.isEmpty then .nothing else inDirectories p name (Raw.parts ':' path)
        | none => .nothing

/-- What is said about a name, or how it could be called; nothing if it means nothing. -/
def description? (p : Process) (verbose : Bool) (name : Raw) : Option Raw :=
  let say (short : Raw) (long : String) : Option Raw :=
    some (if verbose then name ++ long.toList else short)
  if (Keyword.ofText? name).isSome then say name " is a shell keyword"
  else
    match p.aliases.lookup name with
    | some text =>
      some (if verbose then name ++ " is an alias for ".toList ++ text
        else "alias ".toList ++ name ++ '=' :: Builtin.quote text)
    | none =>
      match ofName p true name with
      | .function _ => say name " is a shell function"
      | .builtin =>
        say name (if Builtin.isSpecial name then " is a special shell builtin"
          else " is a shell builtin")
      | .given _ | .tool =>
        let path := "/usr/bin/".toList ++ name
        some (if verbose then name ++ " is ".toList ++ path else path)
      | .file name =>
        match p.tree.find p.directory (Raw.text name) with
        | .ok (here, .file _) =>
          if p.tree.runnable.contains here then
            some (if verbose then name ++ " is ".toList ++ name else name)
          else none
        | _ =>
          match Tool.ofPath? name with
          | some _ => some (if verbose then name ++ " is ".toList ++ name else name)
          | none => none
      | .denied | .nothing => none

end Meaning

end LintRepair.Shell
