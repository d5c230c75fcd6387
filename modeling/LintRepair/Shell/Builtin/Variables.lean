import LintRepair.Shell.Builtin.Options

/-!
Commands for variables, positional parameters and options of the shell.
-/

namespace LintRepair.Shell.Builtin

/-- The variables in the order of their names. -/
def sortedVariables (p : Process) : List (Raw × Variable) :=
  p.bindings.mergeSort fun a b => !(b.1 < a.1)

/-- Print variables as commands that set them. -/
def printVariables (word : Raw) (vs : List (Raw × Variable)) : Act Unit :=
  vs.forM fun (name, v) =>
    let front := if word.isEmpty then [] else word ++ [' ']
    match v.value with
    | some s => printLine (front ++ name ++ '=' :: quote s)
    | none => if word.isEmpty then pure () else printLine (front ++ name)

/-- A name and perhaps a value behind an equals sign. -/
def nameAndValue (argument : Raw) : Act (Raw × Option Raw) := do
  let written := argument.takeWhile (· != '=')
  if !isName written then Act.fail (written ++ ": bad variable name".toList)
  match argument.drop written.length with
  | _ :: value => return (written, some value)
  | [] => return (written, none)

/-- Mark variables, and set those that a value is given for. -/
def markVariables (word : String) (isMarked : Variable → Bool) (mark : Variable → Variable) :
    Builtin := fun arguments => do
  let (_, rest) ← splitOptions "p" arguments
  if rest.isEmpty || rest.length < arguments.length && arguments.head? == some ['-', 'p'] then
    printVariables word.toList ((sortedVariables (← get)).filter fun (_, v) => isMarked v)
    return 0
  rest.forM fun argument => do
    let (name, value) ← nameAndValue argument
    match value with
    | some value => Act.setVariable name value
    | none => pure ()
    modify fun p =>
      p.bind name (some (mark ((p.binding? name).getD { value := none })))
  return 0

def exportCommand : Builtin :=
  markVariables "export" (·.exported) fun v => { v with exported := true }

def readonlyCommand : Builtin :=
  markVariables "readonly" (·.fixed) fun v => { v with fixed := true }

def unsetCommand : Builtin := fun arguments => do
  let (letters, rest) ← splitOptions "vf" arguments
  rest.forM fun argument => do
    if letters.getLast? == some 'f' then
      modify fun p => { p with functions := p.functions.filter (·.1 != argument) }
    else
      if !isName argument then Act.fail (argument ++ ": bad variable name".toList)
      Act.removeVariable argument
  return 0

/-- Hide variables of the caller, and set those that a value is given for. -/
def localCommand : Builtin := fun arguments => do
  if (← get).scopes.isEmpty then Act.fail "not in a function".toList
  arguments.forM fun argument => do
    if argument == ['-'] then Act.hideOptions
    else
      let (name, value) ← nameAndValue argument
      Act.hide name
      match value with
      | some value => Act.setVariable name value
      | none => pure ()
  return 0

/-- The options of the shell by name; those without a letter change nothing. -/
def optionNames : List (String × Option Char) :=
  [("errexit", some 'e'), ("noglob", some 'f'), ("ignoreeof", some 'I'), ("interactive", some 'i'),
    ("monitor", some 'm'), ("noexec", some 'n'), ("stdin", some 's'), ("xtrace", some 'x'),
    ("verbose", some 'v'), ("vi", some 'V'), ("emacs", some 'E'), ("noclobber", some 'C'),
    ("allexport", some 'a'), ("notify", some 'b'), ("nounset", some 'u'), ("privileged", some 'p'),
    ("nolog", none), ("debug", none)]

def printOptions (isOn : Bool) : Act Unit := do
  let p ← get
  if isOn then printLine "Current option settings".toList
  optionNames.forM fun (name, letter) =>
    let set := letter.any p.hasOption
    if isOn then
      let padded := name.toList ++ List.replicate (16 - name.length) ' '
      printLine (padded ++ (if set then "on" else "off").toList)
    else
      printLine ("set ".toList ++ (if set then ['-', 'o', ' '] else ['+', 'o', ' ']) ++ name.toList)

def setNamedOption (name : Raw) (isOn : Bool) : Act Unit := do
  match optionNames.find? fun (known, _) => known.toList == name with
  | some (_, some letter) => modify fun p => p.setOption letter isOn
  | some (_, none) => pure ()
  | none => Act.fail ("Illegal option -o ".toList ++ name)

def setLetterOption (letter : Char) (isOn : Bool) : Act Unit := do
  if optionNames.any fun (_, known) => known == some letter then
    modify fun p => p.setOption letter isOn
  else Act.fail ("Illegal option -".toList ++ [letter])

/-- The options in one argument, with the arguments that are left. -/
def setLetters (isOn : Bool) : Raw → List Raw → Act (List Raw)
  | [], rest => pure rest
  | 'o' :: s, rest => do
    match rest with
    | [] => printOptions isOn
    | name :: _ => setNamedOption name isOn
    setLetters isOn s (rest.drop 1)
  | c :: s, rest => do
    setLetterOption c isOn
    setLetters isOn s rest

/-- Set options, and then the positional parameters if there are any or two dashes ask for it. The
bound is the number of arguments. -/
def setArguments : Nat → List Raw → Act Unit
  | 0, _ => pure ()
  | _, [] => pure ()
  | bound + 1, argument :: rest => do
    match argument with
    | ['-'] =>
      modify fun p => (p.setOption 'x' false).setOption 'v' false
      if !rest.isEmpty then modify fun p => { p with arguments := rest }
    | ['-', '-'] => modify fun p => { p with arguments := rest }
    | '-' :: s => do
      let rest ← setLetters true s rest
      setArguments bound rest
    | '+' :: s => do
      let rest ← setLetters false s rest
      setArguments bound rest
    | _ => modify fun p => { p with arguments := argument :: rest }

/-- Set options and positional parameters; without arguments, print the variables. -/
def setCommand : Builtin := fun arguments => do
  if arguments.isEmpty then printVariables [] (sortedVariables (← get))
  else setArguments (arguments.length + 1) arguments
  return 0

/-- Drop positional parameters. -/
def shiftCommand : Builtin := fun arguments => do
  let n ← match arguments with
    | [] => pure 1
    | a :: _ => count a
  let p ← get
  if p.arguments.length < n then Act.fail "can't shift that many".toList
  set { p with arguments := p.arguments.drop n }
  return 0

/-! ### Reading -/

/-- A line that is read, each character with the information whether it was escaped: whether its end
was there, and how many characters were taken. -/
def readLine (raw : Bool) : Nat → Raw → Raw → List (Char × Bool) × Bool × Nat
  | 0, _, _ => ([], false, 0)
  | bound + 1, taken, s =>
    match s with
    | [] => ([], false, taken.length)
    | '\n' :: _ => ([], true, taken.length + 1)
    | '\\' :: rest =>
      if raw then
        let (line, ended, n) := readLine raw bound ('\\' :: taken) rest
        (('\\', false) :: line, ended, n)
      else
        match rest with
        | [] => ([], false, taken.length + 1)
        | '\n' :: rest => readLine raw bound ('\n' :: '\\' :: taken) rest
        | c :: rest =>
          let (line, ended, n) := readLine raw bound (c :: '\\' :: taken) rest
          ((c, true) :: line, ended, n)
    | c :: rest =>
      let (line, ended, n) := readLine raw bound (c :: taken) rest
      if c == '\x00' then (line, ended, n) else ((c, false) :: line, ended, n)

/-- Values for a number of variables from a line: one field each, and for the last all that is left,
unless that is a single field. -/
def lineFields (separators : Raw) : Nat → List (Char × Bool) → List Raw
  | 0, _ => []
  | count + 1, line =>
    let isBlankHere (x : Char × Bool) : Bool :=
      !x.2 && separators.contains x.1 && (x.1 == ' ' || x.1 == '\t' || x.1 == '\n')
    let separates (x : Char × Bool) : Bool := !x.2 && separators.contains x.1
    let line := line.dropWhile isBlankHere
    let first := line.takeWhile fun x => !separates x
    let tail := (line.drop first.length).dropWhile isBlankHere
    let rest := match tail with
      | x :: more => if separates x then more.dropWhile isBlankHere else tail
      | [] => []
    if count = 0 then
      let whole := if rest.isEmpty then first else (line.reverse.dropWhile isBlankHere).reverse
      [whole.map (·.1)]
    else first.map (·.1) :: lineFields separators count rest

def readCommand : Builtin := fun arguments => do
  let (letters, names) ← options ['r'] ['p'] (arguments.length + 1) arguments
  if names.isEmpty then Act.fail "arg count".toList
  let p ← get
  let unread := (p.unread? 0).getD []
  let raw := letters.any (·.1 == 'r')
  let (line, ended, n) := readLine raw (unread.length + 1) [] unread
  set (p.advance 0 n)
  let separators := (p.value? "IFS".toList).getD Process.initialSeparators
  (names.zip (lineFields separators names.length line)).forM fun (name, value) => do
    if !isName name then Act.fail (name ++ ": bad variable name".toList)
    Act.setVariable name value
  return if ended then 0 else 1

/-! ### Options of scripts -/

/-- Look at the next option among arguments; a status of one tells that there are no more. -/
def nextOption (known name : Raw) (arguments : List Raw) : Act UInt8 := do
  let p ← get
  let index := p.optionIndex
  let current := if index ≤ 1 || p.optionPlace = 0 then []
    else ((arguments[index - 2]?).getD []).drop p.optionPlace
  let setResult (c : Char) : Act Unit := Act.setVariable name [c]
  let finish (c : Char) (index place : Nat) (status : UInt8) : Act UInt8 := do
    Act.setVariable "OPTIND".toList (Raw.ofNat index)
    setResult c
    modify fun p => { p with optionIndex := index, optionPlace := place }
    return status
  let next : Option (Raw × Nat) :=
    if !current.isEmpty then some (current, index)
    else
      match arguments[index - 1]? with
      | some ('-' :: c :: s) => some (c :: s, index + 1)
      | _ => none
  match next with
  | none => finish '?' index 0 1
  | some (['-'], after) =>
    if current.isEmpty then finish '?' after 0 1 else unknown finish '-' [] after
  | some (c :: s, after) =>
    match (List.range known.length).find? fun i => c != ':' && known[i]? == some c with
    | none => unknown finish c s after
    | some i =>
      let word := (arguments[after - 2]?).getD []
      let place := if s.isEmpty then 0 else word.length - s.length
      if known[i + 1]? == some ':' then
        if !s.isEmpty then
          Act.setVariable "OPTARG".toList s
          finish c after 0 0
        else
          match arguments[after - 1]? with
          | some value =>
            Act.setVariable "OPTARG".toList value
            finish c (after + 1) 0 0
          | none =>
            if known.head? == some ':' then
              Act.setVariable "OPTARG".toList [c]
              finish ':' after 0 0
            else
              Act.report ("No arg for -".toList ++ c :: " option\n".toList)
              Act.removeVariable "OPTARG".toList
              finish '?' after 0 0
      else
        Act.setVariable "OPTARG".toList []
        finish c after place 0
  | some ([], after) => finish '?' after 0 1
where
  /-- An option that is not known. -/
  unknown (finish : Char → Nat → Nat → UInt8 → Act UInt8) (c : Char) (s : Raw) (after : Nat) :
      Act UInt8 := do
    let word := (arguments[after - 2]?).getD []
    let place := if s.isEmpty then 0 else word.length - s.length
    if known.head? == some ':' then Act.setVariable "OPTARG".toList [c]
    else
      Act.report ("Illegal option -".toList ++ c :: ['\n'])
      Act.removeVariable "OPTARG".toList
    finish '?' after place 0

/-- Go through the options of a script. -/
def getoptsCommand : Builtin := fun arguments => do
  let p ← get
  match arguments with
  | known :: name :: rest => nextOption known name (if rest.isEmpty then p.arguments else rest)
  | _ => Act.fail "Usage: getopts optstring var [arg...]".toList

/-! ### Aliases -/

/-- Define or print aliases. -/
def aliasCommand : Builtin := fun arguments => do
  if arguments.isEmpty then
    ((← get).aliases.mergeSort fun a b => !(b.1 < a.1)).forM fun (name, text) =>
      printLine (name ++ '=' :: quote text)
    return 0
  arguments.foldlM (fun status argument => do
    let name := argument.takeWhile (· != '=')
    match argument.drop name.length with
    | _ :: text =>
      if name.isEmpty then missing argument
      else
        modify fun p => { p with aliases := (name, text) :: p.aliases.filter (·.1 != name) }
        return status
    | [] =>
      match (← get).aliases.lookup name with
      | some text =>
        printLine (name ++ '=' :: quote text)
        return status
      | none => missing name) 0
where
  missing (name : Raw) : Act UInt8 := do
    Act.report ("alias: ".toList ++ name ++ " not found\n".toList)
    return 1

def unaliasCommand : Builtin := fun arguments => do
  let (letters, rest) ← splitOptions "a" arguments
  if letters.contains 'a' then
    modify fun p => { p with aliases := [] }
    return 0
  rest.foldlM (fun status name => do
    let p ← get
    if p.aliases.any (·.1 == name) then
      set { p with aliases := p.aliases.filter (·.1 != name) }
      return status
    else
      Act.report ("unalias: ".toList ++ name ++ " not found\n".toList)
      return 1) 0

end LintRepair.Shell.Builtin
