import LintRepair.Shell.CharacterClass
import LintRepair.Shell.Condition

/-!
Programs for files and text. A program works on the files it is given and on its input, writes to
its two streams, and ends with a status. It has no effect on the shell that calls it.
-/

namespace LintRepair.Shell

open Files (Tree Location Failure Entry)

/-- The state of a program: the files it sees, what is left of its input, and what it has written,
the latest piece first. `usage` is said in front of the place where more is said about its use. -/
structure Work where
  name : Raw
  usage : Raw := []
  tree : Tree
  directory : Location
  input : Raw
  inputIsFile : Bool := false
  inputFault : Option Failure := none
  output : Option Location := none
  written : List (Channel × Raw) := []
  status : UInt8 := 0
  environment : List (Raw × Raw) := []

/-- Whether the output goes to the file that a path leads to. -/
def Work.isOwnOutput (w : Work) (path : Raw) : Bool :=
  match w.tree.find w.directory (Raw.text path) with
  | .ok (here, .file _) => w.output == some here
  | _ => false

/-- Why a program ends early: its status. -/
abbrev Working := ExceptT UInt8 (StateM Work)

/-- A program: what it does with its arguments. -/
abbrev Tool := List Raw → Working Unit

namespace Working

/-- Write to the output stream. -/
def print (s : Raw) : Working Unit :=
  if s.isEmpty then pure () else modify fun w => { w with written := (.out, s) :: w.written }

/-- Write a line to the output stream. -/
def printLine (s : Raw) : Working Unit := print (s ++ ['\n'])

/-- Write a line to the error stream, behind the name of the program. -/
def complain (s : Raw) : Working Unit := modify fun w =>
  { w with written := (.err, w.name ++ ": ".toList ++ s ++ ['\n']) :: w.written }

/-- Set the status, unless it is worse already. -/
def atLeast (status : UInt8) : Working Unit := modify fun w =>
  { w with status := if w.status < status then status else w.status }

/-- Report a failure and go on. -/
def warn (status : UInt8) (s : Raw) : Working Unit := do
  complain s
  atLeast status

/-- Report a failure and end. -/
def fail {α : Type} (status : UInt8) (s : Raw) : Working α := do
  complain s
  throw status

/-- The place where more is said about how a program is used. -/
def hint : Working Unit := modify fun w =>
  let text := w.usage ++ "Try '".toList ++ w.name ++ " --help' for more information.\n".toList
  { w with written := (.err, text) :: w.written }

/-- Report that a program is not used as it should be, and end. -/
def misused {α : Type} (status : UInt8) (s : Raw) : Working α := do
  complain s
  hint
  throw status

/-- A name in quotes, as messages show it. -/
def quoted (s : Raw) : Raw :=
  if s.contains '\'' && !s.any fun c => "\"$\x60\\!".toList.contains c then '"' :: s ++ ['"']
  else '\'' :: s.flatMap (fun c => if c == '\'' then "'\\''".toList else [c]) ++ ['\'']

def takeInput : Working (Except Failure Raw) := do
  let w ← get
  match w.inputFault with
  | some cause => return .error cause
  | none =>
    set { w with input := [] }
    return .ok w.input

/-- The content of a file; a dash stands for the input. -/
def content (path : Raw) : Working (Except Failure Raw) := do
  if path == ['-'] || path == "/dev/stdin".toList then takeInput
  else if path == "/dev/null".toList then return .ok []
  else
    let w ← get
    return (w.tree.read w.directory (Raw.text path)).map Raw.ofBytes

def because (cause : Failure) : Raw := ": ".toList ++ cause.text.toList

/-- Do something with the content of each file, of the input if there is none. What cannot be read
is reported. -/
def eachContent (paths : List Raw) (unreadable : Raw → Failure → Working Unit)
    (use : Raw → Raw → Working Unit) : Working Unit :=
  (if paths.isEmpty then [['-']] else paths).forM fun path => do
    match ← content path with
    | .ok text => use path text
    | .error cause => unreadable path cause

/-- Report a file that cannot be read by its name alone. -/
def unreadable (status : UInt8) (path : Raw) (cause : Failure) : Working Unit :=
  warn status (path ++ because cause)

def find (path : Raw) : Working (Except Failure (Location × Entry)) := do
  let w ← get
  return w.tree.find w.directory (Raw.text path)

def change (f : Tree → Tree) : Working Unit := modify fun w => { w with tree := f w.tree }

def write (path content : Raw) : Working (Except Failure Unit) := do
  if path == "/dev/null".toList then return .ok ()
  let w ← get
  match w.tree.write w.directory (Raw.text path) (Raw.toBytes content) with
  | .ok tree =>
    set { w with tree := tree }
    return .ok ()
  | .error cause => return .error cause

end Working

/-! ### Options -/

/-- An option of a program: its letter, its long name, and whether it takes a value. Programs with a
long name but no letter get a letter of their own choice. -/
structure OptionRule where
  letter : Char
  name : String := ""
  takesValue : Bool := false
  mayTakeValue : Bool := false

/-- Options that were given, in order, and the other arguments. -/
structure Given where
  options : List (Char × Raw) := []
  operands : List Raw := []

namespace Given

def has (g : Given) (letter : Char) : Bool := g.options.any (·.1 == letter)

def value? (g : Given) (letter : Char) : Option Raw :=
  ((g.options.filter (·.1 == letter)).getLast?).map (·.2)

def values (g : Given) (letter : Char) : List Raw :=
  (g.options.filter (·.1 == letter)).map (·.2)

/-- Which of two or more options was given last. -/
def last? (g : Given) (letters : List Char) : Option Char :=
  ((g.options.filter fun (c, _) => letters.contains c).getLast?).map (·.1)

end Given

namespace Working

/-- The letters in one argument, with the arguments left. -/
def letters (rules : List OptionRule) (misuse : UInt8) : Nat → Raw → List Raw →
    Working (List (Char × Raw) × List Raw)
  | 0, _, rest => pure ([], rest)
  | _, [], rest => pure ([], rest)
  | bound + 1, c :: s, rest => do
    match rules.find? fun r => r.letter == c && c.toNat < 128 with
    | none => misused misuse ("invalid option -- '".toList ++ c :: ['\''])
    | some rule =>
      if rule.mayTakeValue then return ([(c, s)], rest)
      else if rule.takesValue then
        match s, rest with
        | [], [] => misused misuse ("option requires an argument -- '".toList ++ c :: ['\''])
        | [], value :: rest => return ([(c, value)], rest)
        | value, rest => return ([(c, value)], rest)
      else
        let (more, rest) ← letters rules misuse bound s rest
        return ((c, []) :: more, rest)

/-- A long option, which may be shortened as long as it stays clear. -/
def longOption (rules : List OptionRule) (misuse : UInt8) (s : Raw) (rest : List Raw) :
    Working ((Char × Raw) × List Raw) := do
  let name := s.takeWhile (· != '=')
  let value := s.drop name.length
  let exact := rules.filter fun r => r.name.toList == name
  let near := rules.filter fun r => name.isPrefixOf r.name.toList && r.name != ""
  let near := near.mergeSort fun a b => Raw.isUpTo a.name.toList b.name.toList
  match if exact.isEmpty then near else exact with
  | [] => misused misuse ("unrecognized option '--".toList ++ s ++ ['\''])
  | rule :: others =>
    if !others.all (·.letter == rule.letter) then
      let all := (rule :: others).flatMap fun r => " '--".toList ++ r.name.toList ++ ['\'']
      misused misuse ("option '--".toList ++ s ++ "' is ambiguous; possibilities:".toList ++ all)
    else
      match value with
      | _ :: value =>
        if rule.takesValue || rule.mayTakeValue then return ((rule.letter, value), rest)
        else refuse rule "' doesn't allow an argument"
      | [] =>
        if !rule.takesValue then return ((rule.letter, []), rest)
        else
          match rest with
          | value :: rest => return ((rule.letter, value), rest)
          | [] => refuse rule "' requires an argument"
where
  refuse {α : Type} (rule : OptionRule) (what : String) : Working α :=
    misused misuse ("option '--".toList ++ rule.name.toList ++ what.toList)

/-- Tell options from other arguments; options may stand behind those, unless the first of them is
to end the options. The bound is the number of arguments. -/
def given (rules : List OptionRule) (misuse : UInt8 := 1) (inFront : Bool := false) :
    Nat → List Raw → Working Given
  | 0, _ => pure {}
  | _, [] => pure {}
  | bound + 1, a :: rest => do
    match a with
    | ['-', '-'] => return { operands := rest }
    | '-' :: '-' :: s =>
      let (option, rest) ← longOption rules misuse s rest
      let g ← given rules misuse inFront bound rest
      return { g with options := option :: g.options }
    | '-' :: c :: s =>
      let (found, rest) ← letters rules misuse (s.length + 2) (c :: s) rest
      let g ← given rules misuse inFront bound rest
      return { g with options := found ++ g.options }
    | _ =>
      if inFront then return { operands := a :: rest }
      let g ← given rules misuse inFront bound rest
      return { g with operands := a :: g.operands }

/-- Options without values, by letter and long name. -/
def plainRules (names : List (Char × String)) : List OptionRule :=
  names.map fun (c, name) => { letter := c, name := name }

/-- Options with values, by letter and long name. -/
def valuedRules (names : List (Char × String)) : List OptionRule :=
  names.map fun (c, name) => { letter := c, name := name, takesValue := true }

end Working

end LintRepair.Shell
