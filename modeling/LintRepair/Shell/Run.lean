import LintRepair.Shell.Redirections
import LintRepair.Shell.Runner.Find
import LintRepair.Shell.Runner.Items

/-!
Carrying out scripts. Each function here takes what carries out a smaller script as a parameter; at
the end they are tied together, with a bound on how deep scripts may call one another.
-/

namespace LintRepair.Shell

/-- Carries out a script, with the information whether something looks at its status. -/
abbrev Perform := Script → Bool → Act Unit

namespace Run

/-! ### Shells inside shells -/

/-- What outlives a shell that another shell has started. -/
def survive (before after : Process) : Process :=
  { before with
    tree := after.tree
    files := after.files
    opened := after.opened
    documents := after.documents
    status := after.status
    received := after.received }

/-- Carry out the lines of a text one after the other; the status is that of the last one that holds
a command. The bound is the number of lines. -/
def lines (perform : Perform) (tested : Bool) : Nat → Reading → UInt8 → Act UInt8
  | 0, _, status => pure status
  | bound + 1, r, status => do
    let p ← get
    match { r with
        aliases := p.aliases
        documents := p.documents
        announced := p.documents.length }.nextLine with
    | .error fault =>
      modify fun p => { p with line := fault.line }
      Act.fail fault.text.toList
    | .ok (none, _) => return status
    | .ok (some script, r) =>
      modify fun p => { p with documents := r.documents, lineRead := r.line }
      match script with
      | .empty => lines perform tested bound r status
      | script =>
        perform script tested
        lines perform tested bound r (← get).status

def text (perform : Perform) (tested : Bool) (source : Raw) : Act UInt8 :=
  lines perform tested (source.length + 2) (.start source [] []) 0

/-- Carry out what is to be done at a signal or at the end, and keep the status. -/
def trapped (perform : Perform) (action : Raw) : Act Unit := do
  let status := (← get).status
  let _ ← text perform false action
  Act.ending status

/-- Carry out what is to be done at the end. -/
def atEnd (perform : Perform) : Act Unit := do
  match (← get).traps.lookup 0 with
  | none => pure ()
  | some action =>
    modify fun p => { p with traps := p.traps.filter (·.1 != 0) }
    trapped perform action

/-- Heed the signals that were sent to this shell, unless it is inside another. -/
def heed (perform : Perform) : Act Unit := do
  let p ← get
  if p.depth = 0 then
    set { p with received := [] }
    p.received.forM fun n => do
      match (← get).traps.lookup n with
      | some [] => pure ()
      | some action => trapped perform action
      | none => if n = 0 || Builtin.unnoticed.contains n then pure () else throw (.signal n)

/-- Do something in a shell of its own. Only files, what was written and the status outlive it. -/
def inside (perform : Perform) (action : Act Unit) : Act Unit := do
  let before ← get
  set { before with
    depth := before.depth + 1
    traps := before.traps.filter fun (_, action) => action.isEmpty }
  let _ ← Act.attempt action
  let _ ← Act.attempt (atEnd perform)
  modify fun after => survive before after

/-- What a script writes, carried out in a shell of its own. -/
def outputOf (perform : Perform) : OutputOf := fun script => do
  let before ← get
  let (number, p) := before.openFile { target := .collector [] }
  set (p.lead 1 (some number))
  match script with
  | .empty => Act.ending 0
  | script => inside perform (perform script false)
  let after ← get
  set { after with
    streams := before.streams
    status := before.status
    substituted := after.status }
  heed perform
  return after.collected number

/-! ### Compound commands -/

/-- Stop after a failure, if that is asked for and the status is not looked at. -/
def checkFailure (tested : Bool) : Act Unit := do
  let p ← get
  if p.hasOption 'e' && !tested && p.status != 0 then throw .exit

/-- What a turn of a loop, or the look at its condition, means for the loop. -/
inductive Turn where
  | isDone
  | goesOn
  | stops

def turn (action : Act Unit) : Act Turn := do
  match ← Act.attempt action with
  | .ok () => return .isDone
  | .error (.leave n) => if n ≤ 1 then return .stops else throw (.leave (n - 1))
  | .error (.again n) => if n ≤ 1 then return .goesOn else throw (.again (n - 1))
  | .error stop => throw stop

/-- The most turns that a loop takes. No loop that ends in reasonable time takes more. -/
def mostTurns : Nat := 1000000

def looping (action : Act Unit) : Act Unit := do
  modify fun p => { p with loops := p.loops + 1 }
  Act.ensure action (modify fun p => { p with loops := p.loops - 1 })

/-- Carry out a script for each of several values of a variable. -/
def each (perform : Perform) (tested : Bool) (name : Raw) (body : Script) : List Raw → Act Unit
  | [] => pure ()
  | value :: values => do
    Act.setVariable name value
    match ← turn (perform body tested) with
    | .stops => pure ()
    | _ => each perform tested name body values

/-- Carry out a script as long as the status of another one is as it should be. The status is that
of the script the last time it was carried out. The bound is the number of turns. -/
def repeated (perform : Perform) (tested goal : Bool) (test body : Script) : Nat → UInt8 → Act Unit
  | 0, status => Act.ending status
  | bound + 1, status => do
    match ← turn (perform test true) with
    | .stops => Act.ending status
    | .goesOn => repeated perform tested goal test body bound status
    | .isDone =>
      if ((← get).status == 0) != goal then Act.ending status
      else
        match ← turn (perform body tested) with
        | .stops => pure ()
        | _ => repeated perform tested goal test body bound (← get).status

/-- The first case that a text belongs to. -/
def chosen (run : OutputOf) (value : Raw) : List (List Word × Script) → Act (Option Script)
  | [] => return none
  | (words, script) :: cases => do
    if ← isOneOf words then return some script
    chosen run value cases
where
  /-- Whether the text matches one of several patterns. -/
  isOneOf : List Word → Act Bool
    | [] => return false
    | word :: words => do
      if (← Expansion.pattern run word).matchesAll value then return true
      isOneOf words

/-- Commands joined by pipes, each in a shell of its own that starts with the open files and the
status of the shell `before` them all. `input` is the open file that the first of them reads, if it
is not the one of that shell. -/
def piped (perform : Perform) (tested : Bool) (before : Process) :
    List Script → Option Nat → Act Unit
  | [], _ => pure ()
  | script :: rest, input => do
    modify fun p => { p with streams := before.streams, status := before.status }
    match input with
    | some number => modify fun p => p.lead 0 (some number)
    | none => pure ()
    if rest.isEmpty then
      inside perform (perform script tested)
      modify fun p => { p with streams := before.streams }
    else
      let (number, p) := (← get).openFile { target := .collector [] }
      set (p.lead 1 (some number))
      inside perform (perform script tested)
      let p ← get
      let (next, p) := p.openFile { target := .source (p.collected number), writable := false }
      set p
      piped perform tested before rest (some next)

/-- Do something with redirections. If one of them fails, what `failed` says is done instead. -/
def redirected (run : OutputOf) (rs : List Redirection) (failed : Act Unit) (action : Act Unit) :
    Act Unit := do
  let before := (← get).streams
  match ← Act.attempt (Route.followAll run rs) with
  | .error .fault => failed
  | .error stop => throw stop
  | .ok () => Act.ensure action (Route.undo rs before)

/-! ### Calls -/

def callFunction (perform : Perform) (tested : Bool) (body : Script) (arguments : List Raw) :
    Act Unit := do
  let before ← get
  set { before with arguments := arguments, loops := 0, optionIndex := 1, optionPlace := 0 }
  Act.openScope
  let result ← Act.attempt (perform body tested)
  Act.closeScope
  modify fun p => { p with
    arguments := before.arguments
    loops := before.loops
    optionIndex := before.optionIndex
    optionPlace := before.optionPlace }
  match result with
  | .ok () => pure ()
  | .error .return => pure ()
  | .error stop => throw stop

/-- Carry out a command of the shell's own: it has a name for complaints, and what it prints is
written at its end. -/
def callBuiltin (name : Raw) (action : Act UInt8) : Act Unit := do
  let before := (← get).command
  modify fun p => { p with command := some name }
  let result ← Act.attempt action
  match result with
  | .ok status => Act.ending status
  | .error _ => pure ()
  if !(← Act.flush) then
    Act.complain (name ++ ": I/O error".toList)
    if result.isOk then Act.ending 1
  modify fun p => { p with command := before }
  match result with
  | .ok _ => pure ()
  | .error stop => throw stop

/-- What the shell says about a program that a signal has ended. -/
def signalNotice (n : Nat) : Raw :=
  let name := [(1, "Hangup"), (2, ""), (3, "Quit"), (4, "Illegal instruction"),
    (5, "Trace/breakpoint trap"), (6, "Aborted"), (7, "Bus error"), (8, "Floating point exception"),
    (9, "Killed"), (10, "User defined signal 1"), (11, "Segmentation fault"),
    (12, "User defined signal 2"), (13, ""), (14, "Alarm clock"), (15, "Terminated")].lookup n
  ((name.getD "").toList) ++ ['\n']

/-- Run a text in a shell that is a program of its own. -/
def newShell (perform : Perform) (name : Raw) (arguments : List Raw) (options : List Char)
    (source : Raw) : Act UInt8 := do
  let before ← get
  let fresh := Process.start before.tree before.directory before.programs
  let inherited := before.bindings.filterMap fun (name, v) =>
    if v.exported then some (name, { v with fixed := false }) else none
  let kept := fresh.bindings.filter fun (name, _) => !inherited.any (·.1 == name)
  set { fresh with
    name := name
    arguments := arguments
    bindings := inherited ++ kept
    options := options
    files := before.files
    streams := before.streams
    opened := before.opened
    documents := before.documents
    mask := before.mask }
  let result ← Act.attempt (text perform false source)
  let ended ← match result with
    | .error (.signal n) => pure (Except.error (.signal n))
    | _ => Act.attempt (atEnd perform)
  modify fun after => survive before { after with received := before.received }
  match ended with
  | .error (.signal n) =>
    Act.report (signalNotice n)
    return UInt8.ofNat (128 + n)
  | _ => return (← get).status

/-- The options of a shell that is called as a program: letters, whether the text is the first
argument, and the arguments left. -/
def shellOptions : Nat → List Raw → List Char × Bool × List Raw
  | 0, rest => ([], false, rest)
  | bound + 1, rest =>
    match rest with
    | ['-', '-'] :: rest => ([], false, rest)
    | ('-' :: c :: s) :: rest =>
      let named := (c :: s).contains 'o'
      let option := if named then
          (rest.head?.bind fun name =>
            (Builtin.optionNames.find? fun (known, _) => known.toList == name).bind (·.2)).toList
        else []
      let (letters, isText, rest) := shellOptions bound (if named then rest.drop 1 else rest)
      let given := (c :: s).filter fun c => c != 'c' && c != 'o' && c != 'l'
      (given ++ option ++ letters, isText || (c :: s).contains 'c', rest)
    | _ => ([], false, rest)

def callShell (perform : Perform) (name : Raw) (arguments : List Raw) : Act UInt8 := do
  let (letters, isText, rest) := shellOptions (arguments.length + 1) arguments
  let options := letters.filter (· != 's')
  if isText then
    match rest with
    | [] =>
      Act.report (name ++ ": 0: -c requires an argument\n".toList)
      return 2
    | source :: [] => newShell perform name [] options source
    | source :: zero :: rest => newShell perform zero rest options source
  else
    match rest with
    | path :: more =>
      if letters.contains 's' then fromInput options rest
      else
        let p ← get
        match p.tree.read p.directory (Raw.text path) with
        | .ok content => newShell perform path more options (Raw.ofBytes content)
        | .error cause =>
          Act.report (name ++ ": 0: cannot open ".toList ++ path ++ ": ".toList ++
            Route.failureText false cause ++ ['\n'])
          return 2
    | [] => fromInput options []
where
  /-- Run the text on the input stream. -/
  fromInput (options : List Char) (rest : List Raw) : Act UInt8 := do
    let p ← get
    let source := (p.unread? 0).getD []
    set (p.advance 0 source.length)
    newShell perform name rest options source

/-- The wording for a command that is not there. -/
def notFound (name : Raw) : Act UInt8 := do
  let reason := if name.isEmpty then ": Permission denied" else ": not found"
  Act.complain (name ++ reason.toList)
  return commandNotFound

/-- The wording for a command that may not be run. -/
def denied (name : Raw) : Act UInt8 := do
  Act.complain (name ++ ": Permission denied".toList)
  return notExecutable

/-- Call the program that a file holds. Its first line may name the program that is to carry it out,
with one argument; otherwise it is a script of the shell. -/
def callFile (perform : Perform) (call : Runner.Call) (path : Raw) (arguments : List Raw) :
    Act UInt8 := do
  let p ← get
  match p.tree.find p.directory (Raw.text path) with
  | .ok (here, .file content) =>
    if !p.tree.runnable.contains here then denied path
    else
      let source := Raw.ofBytes content
      match source.takeWhile (· != '\n') with
      | '#' :: '!' :: line =>
        let line := line.dropWhile isBlank
        let interpreter := line.takeWhile fun c => !isBlank c
        let rest := (line.drop interpreter.length).dropWhile isBlank
        let option := (rest.reverse.dropWhile isBlank).reverse
        if (Calling.refusal? p interpreter).isSome then notFound path
        else
          call (interpreter :: ((if option.isEmpty then [] else [option]) ++ path :: arguments))
      | _ => newShell perform path arguments [] source
  | .ok (_, .directory) => denied path
  | .error _ => notFound path

/-- Programs that call commands given to them, and tests that are programs. -/
def runners (call : Runner.Call) : List (String × (List Raw → Act UInt8)) :=
  [("env", Runner.env call), ("nice", Runner.nice call), ("nohup", Runner.nohup call),
    ("timeout", Runner.timeout call), ("xargs", Runner.xargs call), ("find", Runner.find call),
    ("which", Runner.which), ("test", Builtin.testCommand), ("[", Builtin.bracketCommand)]

/-- Call a program by name or path. -/
def callOther (perform : Perform) (call : Runner.Call) (name : Raw) (arguments : List Raw) :
    Act UInt8 := do
  let byName (known : Raw) : Act UInt8 :=
    match Tool.named? known, (runners call).find? fun (runner, _) => runner.toList == known with
    | some tool, _ => Calling.callTool tool name arguments
    | none, some (_, runner) => runner arguments
    | none, none =>
      if ["sh", "dash", "bash"].any (·.toList == known) then callShell perform name arguments
      else notFound name
  let p ← get
  let path := (p.value? "PATH".toList).getD []
  let meaning := if name.contains '/' then .file name
    else Meaning.inDirectories p name (Raw.parts ':' path)
  match meaning with
  | .file path =>
    match Tool.ofPath? path with
    | some known => byName known
    | none => callFile perform call path arguments
  | .given program => Calling.callProgram program arguments
  | .denied => denied name
  | .tool => byName name
  | _ => notFound name

def describe (verbose : Bool) (names : List Raw) : Act UInt8 :=
  names.foldlM (fun status name => do
    match Meaning.description? (← get) verbose name with
    | some text =>
      Builtin.printLine text
      return status
    | none =>
      if verbose then Builtin.printLine (name ++ ": not found".toList)
      return commandNotFound) 0

/-- Read a file as part of the script. -/
def source (perform : Perform) (tested : Bool) (arguments : List Raw) : Act UInt8 := do
  let (_, rest) ← Builtin.splitOptions "" arguments
  match rest with
  | [] => return 0
  | path :: _ =>
    if !path.contains '/' then Act.fail (path ++ ": not found".toList)
    let p ← get
    match p.tree.read p.directory (Raw.text path) with
    | .error cause =>
      Act.fail ("cannot open ".toList ++ path ++ ": ".toList ++ Route.failureText false cause)
    | .ok content =>
      modify fun p => { p with command := some path }
      match ← Act.attempt (text perform tested (Raw.ofBytes content)) with
      | .ok status => return status
      | .error .return => return (← get).status
      | .error stop => throw stop

/-- The options of the command that calls another one: the letter that asks for a description, and
the arguments left. -/
def callOptions (arguments : List Raw) : Act (Option Char × List Raw) := do
  let (letters, rest) ← Builtin.splitOptions "pvV" arguments
  return ((letters.filter (· != 'p')).getLast?, rest)

/-- Call a command of the shell's own, or any other. -/
def callCommand (perform : Perform) (call : List Raw → Act UInt8) (tested : Bool) (name : Raw)
    (arguments : List Raw) : Act Unit := do
  if Builtin.isKnown name then
    callBuiltin name (do
      match Builtin.table.find? fun (known, _) => known.toList == name with
      | some (_, builtin) => builtin arguments
      | none =>
        if name == "eval".toList then text perform tested ([' '].intercalate arguments)
        else if name == ['.'] then source perform tested arguments
        else if name == "exec".toList then exec
        else if name == "type".toList then describe true arguments
        else if name == "hash".toList then hash
        else
          let (letter, rest) ← callOptions arguments
          describe (letter == some 'V') (rest.take 1))
  else Act.ending (← callOther perform call name arguments)
where
  /-- Call a program in place of the shell. -/
  exec : Act UInt8 := do
    match arguments with
    | [] => return 0
    | name :: arguments =>
      let status ← callOther perform call name arguments
      Act.ending status
      throw .exit
  /-- Look for programs. -/
  hash : Act UInt8 :=
    arguments.foldlM (fun status name => do
      match Meaning.ofName (← get) true name with
      | .nothing =>
        Act.complain (name ++ ": not found".toList)
        return 1
      | _ => return status) 0

/-! ### Simple commands -/

/-- The fields of the first words that have any, and the words behind them. -/
def firstFields (run : OutputOf) : List Word → Act (List Raw × List Word)
  | [] => return ([], [])
  | word :: words => do
    match ← Expansion.fields run word with
    | [] => firstFields run words
    | fields => return (fields, words)

/-- The fields of further arguments. Where a command assigns values, these are not split. -/
def moreFields (run : OutputOf) (assigns : Bool) (words : List Word) : Act (List Raw) := do
  let found ← words.mapM fun word =>
    match if assigns then word.assignment? else none with
    | some (name, value) => do
      return [name ++ '=' :: (← Expansion.text run .assigned value)]
    | none => Expansion.fields run word
  return found.flatten

/-- A command behind words that have it called in a special way: whether functions count, the name,
the arguments so far, and the words that are left. -/
def called (run : OutputOf) : Nat → Bool → List Raw → List Word →
    Act (Bool × List Raw × List Word)
  | 0, functions, fields, words => return (functions, fields, words)
  | bound + 1, functions, fields, words => do
    match fields with
    | name :: rest =>
      if name != "command".toList then return (functions, fields, words)
      let (rest, words) ← match rest with
        | [] => firstFields run words
        | rest => pure (rest, words)
      match rest with
      | [] => return (functions, fields, words)
      | ('-' :: c :: s) :: more =>
        if (c :: s) == ['p'] || (c :: s) == ['-'] then
          let (more, words) ← match more with
            | [] => firstFields run words
            | more => pure (more, words)
          if more.isEmpty then return (functions, name :: rest, words)
          called run bound false more words
        else return (functions, name :: rest, words)
      | rest => called run bound false rest words
    | [] => return (functions, [], words)

/-- Show a command before it is carried out. -/
def trace (file : Option Nat) (assigned : List (Raw × Raw)) (fields : List Raw) :
    Act Unit := do
  let p ← get
  if p.hasOption 'x' && !p.tracing then
    let front := (p.value? "PS4".toList).getD []
    let words := assigned.map (fun (name, value) => name ++ '=' :: value) ++ fields
    let line := front ++ [' '].intercalate words ++ ['\n']
    match file with
    | some number => modify fun p => (p.writeFile? number line).getD p
    | none => pure ()

/-- Carry out a command that is no compound command. -/
def simple (perform : Perform) (call : List Raw → Act UInt8) (tested : Bool) (line : Nat)
    (assignments : List (Raw × Word)) (words : List Word) (rs : List Redirection) : Act Unit := do
  let run := outputOf perform
  modify fun p => { p with line := line, substituted := 0 }
  let (fields, words) ← firstFields run words
  let (functions, fields, words) ← called run (words.length + 1) true fields words
  let direct := functions
  let name := fields.headD []
  let more ← moreFields run (Builtin.assigns name) words
  let fields := fields ++ more
  let meaning := Meaning.ofName (← get) functions name
  let isBuiltin := match meaning with
    | .builtin => true
    | _ => false
  let special := direct && isBuiltin && Builtin.isSpecial name
  let passing := !fields.isEmpty && !special && !assignments.isEmpty
  let before := (← get).streams
  let errors := before.lookup 2
  let failed : Act Unit := do
    Act.ending 2
    if special then throw .fault
  match ← Act.attempt (Route.followAll run rs) with
  | .error .fault => failed
  | .error stop => throw stop
  | .ok () =>
    let keeps := isBuiltin && name == "exec".toList
    Act.ensure (do
      if passing then Act.openScope
      Act.ensure (do
        let assigned ← assignments.mapM fun (name, word) => do
          let value ← Expansion.text run .assigned word
          if passing then Act.hide name
          Act.setVariable name value
          if passing then
            modify fun p => p.bind name (some { value := some value, exported := true })
          return (name, value)
        trace errors assigned fields
        match fields with
        | [] => modify fun p => { p with status := p.substituted }
        | name :: arguments =>
          match meaning with
          | .function body => callFunction perform tested body arguments
          | .builtin =>
            match ← Act.attempt (callCommand perform call tested name arguments) with
            | .ok () => pure ()
            | .error .fault => if special then throw .fault
            | .error stop => throw stop
          | _ => callCommand perform call tested name arguments)
        (if passing then Act.closeScope else pure ()))
      (if keeps then pure () else Route.undo rs before)

/-! ### Scripts -/

/-- Carry out a script with the help of what carries out smaller ones. -/
def step (perform : Perform) (call : List Raw → Act UInt8) (script : Script) (tested : Bool) :
    Act Unit := do
  if (← get).hasOption 'n' then return
  match script, tested with
  | .empty, _ => pure ()
  | .command line assignments words rs, tested => do
    simple perform call tested line assignments words rs
    heed perform
    checkFailure tested
  | .both first second, tested => do
    perform first tested
    perform second tested
  | .andThen first second, tested => do
    perform first true
    if (← get).status = 0 then perform second tested
  | .orElse first second, tested => do
    perform first true
    if (← get).status != 0 then perform second tested
  | .negated script, _ => do
    perform script true
    modify fun p => { p with status := if p.status = 0 then 1 else 0 }
  | .piped scripts, tested => do
    piped perform tested (← get) scripts none
    heed perform
    checkFailure tested
  | .background script, _ => do
    let before := (← get).streams
    let (number, p) := (← get).openFile { target := .nowhere }
    set (p.lead 0 (some number))
    inside perform (perform script false)
    modify fun p =>
      { p with
        streams := before
        jobs := (Process.ownNumber + 1 + p.jobs.length, p.status) :: p.jobs
        status := 0 }
    heed perform
  | .conditional test yes no, tested => do
    perform test true
    if (← get).status = 0 then perform yes tested
    else
      match no with
      | .empty => Act.ending 0
      | no => perform no tested
  | .loop goal test body, tested =>
    looping (repeated perform tested goal test body mostTurns 0)
  | .each line name words body, tested => do
    modify fun p => { p with line := line }
    let values ← words.mapM (Expansion.fields (outputOf perform))
    if values.flatten.isEmpty then Act.ending 0
    looping (each perform tested name body values.flatten)
  | .choice line word cases, tested => do
    modify fun p => { p with line := line }
    let run := outputOf perform
    let value ← Expansion.text run .text word
    match ← chosen run value cases with
    | none => Act.ending 0
    | some .empty => Act.ending 0
    | some script => perform script tested
  | .define _ name body, _ => do
    modify fun p => { p with functions := (name, body) :: p.functions.filter (·.1 != name) }
    Act.ending 0
  | .redirected line script rs, tested => do
    modify fun p => { p with line := line }
    redirected (outputOf perform) rs (Act.ending 2) (perform script tested)
  | .subshell line script rs, tested => do
    modify fun p => { p with line := line }
    inside perform (redirected (outputOf perform) rs (Act.ending 2) (perform script tested))
    heed perform
    checkFailure tested

end Run

end LintRepair.Shell
