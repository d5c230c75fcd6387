import LintRepair.Shell.Calling

/-!
Programs that call a command given to them: in other surroundings, within some time, or with
arguments taken from the input.
-/

namespace LintRepair.Shell.Runner

open Working

/-- What calls a program by the name in front of its arguments. -/
abbrev Call := List Raw → Act UInt8

/-- Read the options of a program, and go on with them unless they are misused. -/
def withOptions (name : Raw) (rules : List OptionRule) (misuse : UInt8) (arguments : List Raw)
    (next : Given → Act UInt8) : Act UInt8 := do
  let (result, _) ← Calling.working name
    (given rules misuse true (arguments.length + 1) arguments)
  match result with
  | .ok g => next g
  | .error status => return status

/-- End with a complaint about how a program is used. -/
def refuse (name : Raw) (status : UInt8) (text : String) : Act UInt8 := do
  let _ ← Calling.working name (misused status text.toList : Working Unit)
  return status

/-! ### Surroundings -/

/-- Call a command with some variables set or removed. -/
def env (call : Call) (arguments : List Raw) : Act UInt8 :=
  let name := "env".toList
  withOptions name (plainRules [('i', "ignore-environment"), ('0', "null"), ('v', "debug")] ++
    valuedRules [('u', "unset"), ('C', "chdir"), ('S', "split-string")]) 125 arguments fun g => do
    let assigned := g.operands.takeWhile fun a => a.contains '='
    let before := (← get).bindings
    if g.has 'i' then
      modify fun p => { p with
        bindings := p.bindings.map fun (name, v) => (name, { v with exported := false }) }
    (g.values 'u').forM fun name => modify fun p => p.bind name none
    assigned.forM fun a => do
      let name := a.takeWhile (· != '=')
      modify fun p => p.bind name
        (some { value := some (a.drop (name.length + 1)), exported := true })
    let status ← match g.operands.drop assigned.length with
      | [] => do
        (Calling.environment (← get)).reverse.forM fun (name, value) =>
          modify fun p => (p.write? 1 (name ++ '=' :: value ++ ['\n'])).getD p
        return 0
      | command => Calling.through call name "" true command
    modify fun p => { p with bindings := before }
    return status

/-- Call a command that need not be polite to others. -/
def nice (call : Call) (arguments : List Raw) : Act UInt8 :=
  withOptions "nice".toList (valuedRules [('n', "adjustment")]) 125 arguments fun g => do
    if g.operands.isEmpty then
      modify fun p => (p.write? 1 ['0', '\n']).getD p
      return 0
    else Calling.through call "nice".toList "" true g.operands

/-- Call a command that is not to be disturbed. -/
def nohup (call : Call) (arguments : List Raw) : Act UInt8 :=
  withOptions "nohup".toList [] 125 arguments fun g => do
    if g.operands.isEmpty then refuse "nohup".toList 125 "missing operand"
    else Calling.through call "nohup".toList "failed to run command " true g.operands

/-- The status of a command that was not done in time. -/
def tooLate : UInt8 := 124

/-- Whether a command does nothing but wait longer than a time. -/
def waitsLonger (limit : Raw) (command : List Raw) : Bool :=
  match command with
  | [name, time] =>
    match Tool.Scaled.ofText? limit, Tool.Scaled.ofText? time with
    | some most, some wanted =>
      let places := most.places.max wanted.places
      name == "sleep".toList && 0 < most.units && most.unitsAt places < wanted.unitsAt places
    | _, _ => false
  | _ => false

/-- Call a command that has to end within some time. -/
def timeout (call : Call) (arguments : List Raw) : Act UInt8 :=
  let name := "timeout".toList
  withOptions name (plainRules [('\xe0', "preserve-status"), ('\xe1', "foreground"),
    ('v', "verbose")] ++ valuedRules [('s', "signal"), ('k', "kill-after")]) 125 arguments
    fun g => do
      match g.operands with
      | [] | [_] =>
        let _ ← Calling.working name hint
        return 125
      | time :: command =>
        if !Tool.isInterval time then
          let _ ← Calling.working name
            (misused 125 ("invalid time interval ".toList ++ quoted time) : Working Unit)
          return 125
        else if waitsLonger time command then return tooLate
        else Calling.through call name "failed to run command " true command

/-- Say where programs are. -/
def which (arguments : List Raw) : Act UInt8 := do
  let names := arguments.filter fun a => a != "-a".toList && a != "-s".toList
  if names.isEmpty then return 1
  names.foldlM (fun status name => do
    let p ← get
    let path := if name.contains '/' then name else "/usr/bin/".toList ++ name
    if (Calling.refusal? p name).isNone then
      modify fun p => (p.write? 1 (path ++ ['\n'])).getD p
      return status
    else return 1) 0

/-! ### Arguments from the input -/

/-- Why the input cannot be split into items. -/
inductive ItemFault where
  | openQuote (mark : Char)

/-- The items of a text: words, where quotes and backslashes hide blanks. Each comes with the number
of line ends before it. The bound is the length. -/
def items : Nat → Nat → Option Raw → Option Char → Raw → Except ItemFault (List (Nat × Raw))
  | 0, _, _, _, _ => .ok []
  | bound + 1, line, word, mark, s =>
    let finish (rest : Except ItemFault (List (Nat × Raw))) :
        Except ItemFault (List (Nat × Raw)) :=
      match word with
      | some w => rest.map ((line, w) :: ·)
      | none => rest
    let put (c : Char) : Option Raw := some (word.getD [] ++ [c])
    match mark, s with
    | some m, [] => .error (.openQuote m)
    | none, [] => finish (.ok [])
    | some m, c :: s =>
      if c == m then items bound line (some (word.getD [])) none s
      else if c == '\n' then .error (.openQuote m)
      else items bound line (put c) mark s
    | none, c :: s =>
      if c == '\'' || c == '"' then items bound line (some (word.getD [])) (some c) s
      else if c == '\\' then
        match s with
        | d :: s => items bound line (put d) none s
        | [] => items bound line word none []
      else if c == '\n' then finish (items bound (line + 1) none none s)
      else if isBlank c then finish (items bound line none none s)
      else items bound line (put c) none s

/-- The lines of a text as items, without quotes and without blanks in front. -/
def lineItems (s : Raw) : Except ItemFault (List Raw) := do
  let lines ← (Raw.lines s).mapM fun line =>
    let bare := line.dropWhile isBlank
    -- Blanks inside a line belong to it, so they are hidden before the quotes are looked at.
    let hidden := bare.map fun c => if isBlank c then '\x00' else c
    (items (hidden.length + 1) 0 none none hidden).map fun found =>
      (found.flatMap (·.2)).map fun c => if c == '\x00' then ' ' else c
  return lines.filter (!·.isEmpty)

/-- Texts between separators; the last one may have none behind it. -/
def separatedItems (separator : Char) (s : Raw) : List Raw :=
  let parts := Raw.parts separator s
  if parts.getLast? == some [] then parts.dropLast else parts

/-- Lists of at most so many. The bound is the length. -/
def chunks {α : Type} (size : Nat) : Nat → List α → List (List α)
  | 0, _ => []
  | _, [] => []
  | bound + 1, xs => xs.take size :: chunks size bound (xs.drop size)

/-- Items that stand on the same of several lines at a time. -/
def byLines (size : Nat) (found : List (Nat × Raw)) : List (List Raw) :=
  let numbers := (found.map (·.1)).eraseDups
  (chunks size (numbers.length + 1) numbers).map fun lines =>
    (found.filter fun (n, _) => lines.contains n).map (·.2)

/-- Put a text in the place of each occurrence of another one. The bound is the length. -/
def withItem (mark item : Raw) : Nat → Raw → Raw
  | 0, s => s
  | _, [] => []
  | bound + 1, c :: s =>
    if mark.isPrefixOf (c :: s) && !mark.isEmpty then
      item ++ withItem mark item bound ((c :: s).drop mark.length)
    else c :: withItem mark item bound s

/-- What ends a call of commands with items from the input early. -/
inductive ItemEnd where
  | goesOn (worst : UInt8)
  | ended (status : UInt8)

def callAll (call : Call) (shows : Bool) (commands : List (List Raw)) : Act UInt8 := do
  let name := "xargs".toList
  let last ← commands.foldlM (fun (state : ItemEnd) command => do
    match state with
    | .ended status => return .ended status
    | .goesOn worst =>
      if shows then Act.report ([' '].intercalate command ++ ['\n'])
      let before := (← get).streams
      let (number, p) := (← get).openFile { target := .nowhere }
      set (p.lead 0 (some number))
      let isThere := (Calling.refusal? (← get) (command.headD [])).isNone
      let status ← Calling.through call name "" false command
      modify fun p => { p with streams := before }
      if !isThere then return .ended status
      else if status = 255 then
        Act.report (name ++ ": ".toList ++ command.headD [] ++
          ": exited with status 255; aborting\n".toList)
        return .ended 124
      else if status = 0 then return .goesOn worst
      else return .goesOn 123) (.goesOn 0)
  match last with
  | .goesOn worst => return worst
  | .ended status => return status

def separatorOf (s : Raw) : Char :=
  match s with
  | ['\\', 'n'] => '\n'
  | ['\\', 't'] => '\t'
  | ['\\', '0'] => '\x00'
  | c :: _ => c
  | [] => '\n'

/-- Call a command with arguments from the input. -/
def xargs (call : Call) (arguments : List Raw) : Act UInt8 :=
  let name := "xargs".toList
  withOptions name (plainRules [('0', "null"), ('r', "no-run-if-empty"), ('t', "verbose"),
    ('x', "exit"), ('p', "interactive"), ('o', "open-tty")] ++
    valuedRules [('n', "max-args"), ('I', "replace"), ('d', "delimiter"), ('L', "max-lines"),
      ('P', "max-procs"), ('a', "arg-file"), ('s', "max-chars"), ('E', "")] ++
    [{ letter := 'i', mayTakeValue := true }, { letter := 'l', mayTakeValue := true },
      { letter := 'e', mayTakeValue := true }]) 1 arguments fun g => do
    let badNumber := ['n', 'L', 'P', 's'].find? fun c =>
      ((g.value? c).map Number.count?) == some none
    match badNumber with
    | some c =>
      let value := (g.value? c).getD []
      refuse name 1 (String.ofList ("invalid number \"".toList ++ value ++ "\" for -".toList ++
        c :: " option".toList))
    | none =>
      let (result, _) ← Calling.working name (match g.value? 'a' with
        | some path => do
          match ← content path with
          | .ok text => return text
          | .error cause =>
            fail 1 ("Cannot open input file ".toList ++ quoted path ++ because cause)
        | none => do
          match ← takeInput with
          | .ok text => return text
          | .error _ => return [])
      match result with
      | .error status => return status
      | .ok text =>
        let command := if g.operands.isEmpty then ["echo".toList] else g.operands
        let mark : Option Raw := match g.last? ['I', 'i'] with
          | some 'I' => g.value? 'I'
          | some _ =>
            let value := (g.value? 'i').getD []
            some (if value.isEmpty then "\x7b\x7d".toList else value)
          | none => none
        let separator := match g.last? ['0', 'd'] with
          | some '0' => some '\x00'
          | some _ => (g.value? 'd').map separatorOf
          | none => none
        let found : Except ItemFault (List (Nat × Raw)) := match separator with
          | some c => .ok ((separatedItems c text).zipIdx.map fun (s, i) => (i, s))
          | none =>
            if mark.isSome then (lineItems text).map fun ls => ls.zipIdx.map fun (s, i) => (i, s)
            else items (text.length + 2) 0 none none text
        match found with
        | .error (.openQuote m) =>
          let kind := if m == '"' then "double" else "single"
          Act.report (name ++ ": unmatched ".toList ++ kind.toList
            ++ " quote; by default quotes are special to xargs ".toList
            ++ "unless you use the -0 option\n".toList)
          return 1
        | .ok found =>
          let found := match g.value? 'E' with
            | some stop => found.takeWhile fun (_, s) => s != stop
            | none => found
          let all := found.map (·.2)
          let commands : List (List Raw) := match mark with
            | some mark =>
              all.map fun item => command.map fun a => withItem mark item (a.length + 1) a
            | none =>
              match g.last? ['n', 'L', 'l'] with
              | some 'n' =>
                let size := ((g.value? 'n').bind Number.count?).getD 1
                (chunks size (all.length + 1) all).map fun items => command ++ items
              | some c =>
                let size := ((g.value? c).bind Number.count?).getD 1
                (byLines size found).map fun items => command ++ items
              | none => if all.isEmpty then [] else [command ++ all]
          let commands := if commands.isEmpty && mark.isNone && !g.has 'r' then [command]
            else commands
          callAll call (g.has 't') commands

end LintRepair.Shell.Runner
