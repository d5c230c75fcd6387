import LintRepair.Shell.Execution
import LintRepair.Shell.Number
import LintRepair.Shell.Syntax

/-!
A running shell: the files it sees, its variables, functions and options, and its streams. Streams
are numbered and lead to open files; two streams may share one open file, and with it the place in
it that has been reached.
-/

namespace LintRepair.Shell

open Files (Tree Location Failure)

/-- A program on the search path that answers one way of being called. -/
structure Program where
  name : String
  arguments : List String
  output : ByteArray
  status : UInt8

/-- The streams that every command writes to. -/
inductive Channel where
  | out
  | err
deriving DecidableEq, Repr

def Channel.stream : Channel → Nat
  | .out => 1
  | .err => 2

/-- What an open file is. A collector keeps what is written to it, the latest piece first. -/
inductive Target where
  | source (content : Raw)
  | collector (written : List Raw)
  | nowhere
  | file (here : Location) (append : Bool)

/-- An open file, what may be done with it, and the place that has been reached in it. -/
structure OpenFile where
  target : Target
  position : Nat := 0
  readable : Bool := true
  writable : Bool := true

/-- A variable: its value, if it has one, whether other programs get it, and whether it is fixed. -/
structure Variable where
  value : Option Raw
  exported : Bool := false
  fixed : Bool := false
deriving DecidableEq, Repr

/-- What the call of a function has hidden: variables, and perhaps the options. -/
structure Scope where
  hidden : List (Raw × Option Variable) := []
  options : Option (List Char) := none

/-- The state of a shell. `command` is the command of the shell's own that is being carried out, and
`printed` what it has printed so far; `scopes` keeps what the functions being called have hidden.
`received` are signals that were sent to the outermost shell, `depth` tells how many shells are
inside one another. -/
structure Process where
  tree : Tree
  directory : Location
  programs : List Program
  name : Raw := ['s', 'h']
  arguments : List Raw := []
  bindings : List (Raw × Variable) := []
  functions : List (Raw × Script) := []
  aliases : List (Raw × Raw) := []
  options : List Char := []
  status : UInt8 := 0
  substituted : UInt8 := 0
  line : Nat := 1
  lineRead : Nat := 1
  files : List (Nat × OpenFile) := []
  streams : List (Nat × Nat) := []
  opened : Nat := 0
  documents : List (Nat × Word) := []
  traps : List (Nat × Raw) := []
  command : Option Raw := none
  printed : List Raw := []
  loops : Nat := 0
  scopes : List Scope := []
  jobs : List (Nat × UInt8) := []
  received : List Nat := []
  depth : Nat := 0
  mask : Nat := 18
  optionIndex : Nat := 1
  optionPlace : Nat := 0
  tracing : Bool := false

/-- Why a shell goes no further in what it is doing. A fault ends the shell unless a command of its
own that is not special caused it; the other causes are asked for. -/
inductive Stop where
  | fault
  | exit
  | signal (number : Nat)
  | leave (loops : Nat)
  | again (loops : Nat)
  | return
deriving DecidableEq, Repr

/-- An action of a shell. What it did before it stopped stays done. -/
abbrev Act := ExceptT Stop (StateM Process)

namespace Process

def ownNumber : Nat := 2

/-- The blanks that separate fields at first. -/
def initialSeparators : Raw := [' ', '\t', '\n']

/-- The directories that commands are looked for in at first. -/
def usualPath : Raw := "/usr/local/sbin:/usr/local/bin:/usr/sbin:/usr/bin:/sbin:/bin".toList

/-- The variables of a shell before its first command. -/
def initialBindings (directory : Location) : List (Raw × Variable) :=
  [("IFS".toList, { value := some initialSeparators }),
    ("HOME".toList, { value := some "/root".toList, exported := true }),
    ("OPTIND".toList, { value := some ['1'] }),
    ("PATH".toList, { value := some usualPath, exported := true }),
    ("PPID".toList, { value := some ['1'] }),
    ("PS1".toList, { value := some "# ".toList }),
    ("PS2".toList, { value := some "> ".toList }),
    ("PS4".toList, { value := some "+ ".toList }),
    ("PWD".toList, { value := some (Raw.ofString directory.path), exported := true })]

/-- A shell before its first command, with nothing to read. -/
def start (tree : Tree) (directory : Location) (programs : List Program) : Process :=
  { tree := tree
    directory := directory
    programs := programs
    bindings := initialBindings directory
    files :=
      [(0, { target := .source [], writable := false }),
        (1, { target := .collector [], readable := false }),
        (2, { target := .collector [], readable := false })]
    streams := [(0, 0), (1, 1), (2, 2)]
    opened := 3 }

/-! ### Variables -/

def binding? (p : Process) (name : Raw) : Option Variable := p.bindings.lookup name

def value? (p : Process) (name : Raw) : Option Raw := (p.binding? name).bind (·.value)

def bind (p : Process) (name : Raw) (v : Option Variable) : Process :=
  let others := p.bindings.filter (·.1 != name)
  { p with bindings := match v with
      | some v => (name, v) :: others
      | none => others }

def hasOption (p : Process) (letter : Char) : Bool := p.options.contains letter

def setOption (p : Process) (letter : Char) (isOn : Bool) : Process :=
  let others := p.options.filter (· != letter)
  { p with options := if isOn then letter :: others else others }

/-! ### Open files -/

def file? (p : Process) (number : Nat) : Option OpenFile := p.files.lookup number

def streamFile? (p : Process) (stream : Nat) : Option OpenFile :=
  (p.streams.lookup stream).bind p.file?

def setFile (p : Process) (number : Nat) (f : OpenFile) : Process :=
  { p with files := p.files.map fun (n, g) => if n == number then (n, f) else (n, g) }

/-- Lead a stream to an open file, or close it. -/
def lead (p : Process) (stream : Nat) (number : Option Nat) : Process :=
  let others := p.streams.filter (·.1 != stream)
  { p with streams := match number with
      | some number => (stream, number) :: others
      | none => others }

/-- Open a file, and return its number. -/
def openFile (p : Process) (f : OpenFile) : Nat × Process :=
  (p.opened, { p with files := (p.opened, f) :: p.files, opened := p.opened + 1 })

def collected (p : Process) (number : Nat) : Raw :=
  match p.file? number with
  | some { target := .collector written, .. } => written.reverse.flatten
  | _ => []

/-- The bytes of a file with some of them replaced or added from a place on. -/
def overwritten (content bytes : Raw) (position : Nat) : Raw :=
  content.take position ++ List.replicate (position - content.length) '\x00' ++ bytes ++
    content.drop (position + bytes.length)

/-- Write to an open file, if it may be written to. A file that is gone swallows what is written. -/
def writeFile? (p : Process) (number : Nat) (bytes : Raw) : Option Process :=
  match p.file? number with
  | none => none
  | some f =>
    if !f.writable then none
    else
      match f.target with
      | .collector written =>
        some (p.setFile number { f with target := .collector (bytes :: written) })
      | .file here append =>
        match p.tree.entry? here with
        | some (.file content) =>
          let position := if append then content.size else f.position
          let whole := if position = content.size then content ++ Raw.toBytes bytes
            else Raw.toBytes (overwritten (Raw.ofBytes content) bytes position)
          let p := { p with tree := p.tree.put here (.file whole) }
          some (p.setFile number { f with position := position + bytes.length })
        | _ => some p
      | _ => some p

/-- Write to a stream; not if it is closed. -/
def write? (p : Process) (stream : Nat) (bytes : Raw) : Option Process :=
  (p.streams.lookup stream).bind fun number => p.writeFile? number bytes

/-- What is left to read from an open file. -/
def rest (p : Process) (f : OpenFile) : Raw :=
  match f.target with
  | .source content => content.drop f.position
  | .file here _ =>
    match p.tree.entry? here with
    | some (.file content) => (Raw.ofBytes content).drop f.position
    | _ => []
  | _ => []

/-- What is left to read from a stream; nothing if it is not open for reading. -/
def unread? (p : Process) (stream : Nat) : Option Raw :=
  match p.streamFile? stream with
  | some f => if f.readable then some (p.rest f) else none
  | none => none

def advance (p : Process) (stream count : Nat) : Process :=
  match p.streams.lookup stream with
  | some number =>
    match p.file? number with
    | some f => p.setFile number { f with position := f.position + count }
    | none => p
  | none => p

end Process

/-! ### Actions -/

namespace Act

def ending (status : UInt8) : Act Unit := modify fun p => { p with status := status }

def report (text : Raw) : Act Unit := modify fun p => (p.write? 2 text).getD p

/-- What stands in front of a complaint: the shell, the line, and the command if it is the shell's
own. -/
def complaintHead (p : Process) : Raw :=
  let command := match p.command with
    | some name => name ++ ": ".toList
    | none => []
  p.name ++ ": ".toList ++ Raw.ofNat p.line ++ ": ".toList ++ command

/-- Write a complaint to the error stream. -/
def complain (text : Raw) : Act Unit := do
  report (complaintHead (← get) ++ text ++ ['\n'])

/-- Stop with a complaint and a status. -/
def fail {α : Type} (text : Raw) (status : UInt8 := 2) : Act α := do
  complain text
  ending status
  throw .fault

/-- Print. What a command of the shell's own prints is written when the command ends. -/
def print (text : Raw) : Act Unit := modify fun p => { p with printed := text :: p.printed }

/-- Write what was printed; whether that could be done. -/
def flush : Act Bool := do
  let p ← get
  let text := p.printed.reverse.flatten
  let p := { p with printed := [] }
  if text.isEmpty then
    set p
    return true
  else
    match p.write? 1 text with
    | some q =>
      set q
      return true
    | none =>
      set p
      return false

/-- Set a variable, as far as it is not fixed. -/
def setVariable (name value : Raw) : Act Unit := do
  let p ← get
  let old := p.binding? name
  if old.any (·.fixed) then fail (name ++ ": is read only".toList)
  let exported := old.any (·.exported) || p.hasOption 'a'
  set (p.bind name (some { value := some value, exported := exported }))
  if name == "OPTIND".toList then
    let index := ((Number.count? value).getD 1).max 1
    modify fun p => { p with optionIndex := index, optionPlace := 0 }

/-- Remove a variable, as far as it is not fixed. -/
def removeVariable (name : Raw) : Act Unit := do
  let p ← get
  if (p.binding? name).any (·.fixed) then fail (name ++ ": is read only".toList)
  set (p.bind name none)

/-- Hide a variable until the innermost scope ends. -/
def hide (name : Raw) : Act Unit := modify fun p =>
  match p.scopes with
  | scope :: outer =>
    if scope.hidden.any (·.1 == name) then p
    else
      let scope := { scope with hidden := (name, p.binding? name) :: scope.hidden }
      { p with scopes := scope :: outer }
  | [] => p

/-- Hide the options until the innermost scope ends. -/
def hideOptions : Act Unit := modify fun p =>
  match p.scopes with
  | scope :: outer => { p with scopes := { scope with options := some p.options } :: outer }
  | [] => p

def openScope : Act Unit := modify fun p => { p with scopes := {} :: p.scopes }

/-- End a scope: what it has hidden comes back. -/
def closeScope : Act Unit := modify fun p =>
  match p.scopes with
  | scope :: outer =>
    let p := scope.hidden.foldl (fun p (name, v) => p.bind name v) p
    { p with scopes := outer, options := scope.options.getD p.options }
  | [] => p

/-- Do something at the end, also if the action stops. -/
def ensure {α : Type} (action : Act α) (last : Act Unit) : Act α := fun p =>
  match action p with
  | (.ok a, p) =>
    match last p with
    | (.ok _, p) => (.ok a, p)
    | (.error stop, p) => (.error stop, p)
  | (.error stop, p) =>
    match last p with
    | (.ok _, p) => (.error stop, p)
    | (.error _, p) => (.error stop, p)

/-- The result of an action, also if it stops. -/
def attempt {α : Type} (action : Act α) : Act (Except Stop α) := fun p =>
  match action p with
  | (result, p) => (.ok result, p)

end Act

end LintRepair.Shell
