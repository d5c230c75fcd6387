import LintRepair.Shell.Builtin.Options
import LintRepair.Shell.Formatted

/-!
Commands for directories, signals and other things that the system keeps for a shell, and the
commands that print.
-/

namespace LintRepair.Shell.Builtin

/-! ### Printing -/

def echoCommand : Builtin := fun arguments => do
  match arguments with
  | ['-', 'n'] :: rest => Act.print (echoed false rest)
  | [] => Act.print ['\n']
  | all => Act.print (echoed true all)
  return 0

def printfCommand : Builtin := fun arguments => do
  let (_, rest) ← splitOptions "" arguments
  match rest with
  | [] => Act.fail "usage: printf format [arg ...]".toList
  | format :: rest =>
    let result := formatted format rest
    result.text.reverse.forM Act.print
    result.complaints.reverse.forM Act.complain
    match result.refusal with
    | some reason => Act.fail reason
    | none => return if result.complaints.isEmpty then 0 else 1

/-! ### Directories -/

/-- Go to a directory, and remember the one that is left. -/
def enter (here : Files.Location) : Act Unit := do
  let old := ((← get).value? "PWD".toList).getD []
  modify fun p =>
    let p := { p with directory := here }
    let p := p.bind "OLDPWD".toList (some { value := some old, exported := true })
    p.bind "PWD".toList (some { value := some (Raw.ofString here.path), exported := true })

/-- The directories that names may be meant in: those on a list, and the one the shell is in. -/
def searchedDirectories (p : Process) (path : Raw) : List Raw :=
  let isNear := match path with
    | '/' :: _ => true
    | ['.'] => true
    | '.' :: '/' :: _ => true
    | ['.', '.'] => true
    | '.' :: '.' :: '/' :: _ => true
    | _ => false
  if isNear then [[]]
  else
    match p.value? "CDPATH".toList with
    | some list => Raw.parts ':' list ++ [[]]
    | none => [[]]

/-- Go to the first directory of the given name. -/
def cdCommand : Builtin := fun arguments => do
  let (_, rest) ← splitOptions "LP" arguments
  let p ← get
  let (path, shows) : Raw × Bool := match rest with
    | [] => ((p.value? "HOME".toList).getD [], false)
    | ['-'] :: _ => ((p.value? "OLDPWD".toList).getD [], true)
    | path :: _ => (path, false)
  let target := if path.isEmpty then ['.'] else path
  let found := (searchedDirectories p target).findSome? fun directory =>
    let whole := if directory.isEmpty then target else directory ++ '/' :: target
    match p.tree.find p.directory (Raw.text whole) with
    | .ok (here, .directory) => some (here, !directory.isEmpty)
    | _ => none
  match found with
  | none => Act.fail ("can't cd to ".toList ++ path)
  | some (here, elsewhere) =>
    enter here
    if shows || elsewhere then printLine (Raw.ofString here.path)
    return 0

def pwdCommand : Builtin := fun arguments => do
  let _ ← splitOptions "LP" arguments
  printLine (Raw.ofString (← get).directory.path)
  return 0

/-! ### Permissions of new files -/

/-- Rights of a class of users by letter. -/
def rightOf (c : Char) : Option Nat := [('r', 4), ('w', 2), ('x', 1)].lookup c

def rightLetters (n : Nat) : Raw :=
  [('r', 4), ('w', 2), ('x', 1)].filterMap fun (c, bit) =>
    if n / bit % 2 = 1 then some c else none

/-- The places of the classes of users among the digits of rights. -/
def classPlaces : List (Char × Nat) := [('u', 64), ('g', 8), ('o', 1)]

/-- Rights after one change, such as `u=rw`. -/
def changeRights (rights : Nat) (change : Raw) : Option Nat :=
  let who := change.takeWhile fun c => "ugoa".toList.contains c
  match change.drop who.length with
  | sign :: letters => do
    if !"+-=".toList.contains sign then none
    let bits ← letters.foldlM (fun (bits : Nat) c => (rightOf c).map (bits ||| ·)) 0
    let places := classPlaces.filter fun (c, _) => who.isEmpty || who.contains 'a' || who.contains c
    some (places.foldl (fun rights (_, place) =>
      let old := rights / place % 8
      let new := if sign == '+' then old ||| bits
        else if sign == '-' then old - (old &&& bits)
        else bits
      rights - old * place + new * place) rights)
  | [] => none

def allRights : Nat := 511

/-- Print or set the rights that new files do not get. -/
def umaskCommand : Builtin := fun arguments => do
  let (letters, rest) ← splitOptions "S" arguments
  let mask := (← get).mask
  match rest with
  | [] =>
    if letters.isEmpty then
      let ds := Nat.toDigits 8 mask
      printLine (List.replicate (4 - ds.length) '0' ++ ds)
    else
      let shown := classPlaces.map fun (c, place) =>
        c :: '=' :: rightLetters ((allRights - mask) / place % 8)
      printLine ([','].intercalate shown)
    return 0
  | mode :: _ =>
    if mode.head?.any Char.isDigit then
      if mode.all isOctal && Number.value 8 mode ≤ 4095 then
        modify fun p => { p with mask := Number.value 8 mode % 512 }
        return 0
      else Act.fail (Number.fault mode)
    else
      match (Raw.parts ',' mode).foldlM changeRights (allRights - mask) with
      | some rights =>
        modify fun p => { p with mask := allRights - rights }
        return 0
      | none => Act.fail ("Illegal mode: ".toList ++ mode)

/-! ### Signals -/

/-- The names of all signals, in order; those without a name are called by their number. -/
def signalTable : List (Nat × String) :=
  [(0, "EXIT"), (1, "HUP"), (2, "INT"), (3, "QUIT"), (4, "ILL"), (5, "TRAP"), (6, "ABRT"),
    (7, "BUS"), (8, "FPE"), (9, "KILL"), (10, "USR1"), (11, "SEGV"), (12, "USR2"), (13, "PIPE"),
    (14, "ALRM"), (15, "TERM"), (16, "16"), (17, "CHLD"), (18, "CONT"), (19, "STOP"), (20, "TSTP"),
    (21, "TTIN"), (22, "TTOU"), (23, "URG"), (24, "XCPU"), (25, "XFSZ"), (26, "VTALRM"), (27, "PROF"),
    (28, "WINCH"), (29, "IO"), (30, "PWR"), (31, "SYS"), (32, "32"), (33, "33")] ++
    (List.range 31).map fun i =>
      let n := 34 + i
      let digits (n : Nat) := String.ofList (Nat.toDigits 10 n)
      (n, if n = 34 then "RTMIN" else if n = 64 then "RTMAX"
        else if n ≤ 49 then "RTMIN+" ++ digits (n - 34) else "RTMAX-" ++ digits (64 - n))

/-- The number of a signal that is given by number or name, from a least number on. -/
def signal? (least : Nat) (s : Raw) : Option Nat :=
  if !s.isEmpty && s.all Char.isDigit then
    let n := Number.value 10 s
    if least ≤ n && n ≤ 64 then some n else none
  else
    let upper := s.map Char.toUpper
    (signalTable.find? fun (n, name) => least ≤ n && name.toList == upper).map (·.1)

def signalName (n : Nat) : Raw := ((signalTable.lookup n).getD "").toList

/-- Signals that a shell does not notice. -/
def unnoticed : List Nat := [17, 18, 19, 20, 21, 22, 23, 28]

/-- Print or set what is done at signals and at the end. -/
def trapCommand : Builtin := fun arguments => do
  let (_, rest) ← splitOptions "" arguments
  match rest with
  | [] =>
    ((← get).traps.mergeSort fun a b => a.1 ≤ b.1).forM fun (n, action) =>
      printLine ("trap -- ".toList ++ quote action ++ ' ' :: signalName n)
    return 0
  | first :: more =>
    let (action, names) : Option Raw × List Raw :=
      if more.isEmpty then (none, [first])
      else if first == ['-'] then (none, more)
      else (some first, more)
    assign action names
where
  assign (action : Option Raw) : List Raw → Act UInt8
    | [] => return 0
    | name :: names => do
      match signal? 0 name with
      | none =>
        Act.report ("trap: ".toList ++ name ++ ": bad trap\n".toList)
        return 1
      | some n =>
        modify fun p =>
          let others := p.traps.filter (·.1 != n)
          { p with traps := match action with
              | some action => (n, action) :: others
              | none => others }
        assign action names

/-- How the command for signals is used. -/
def killUsage : Raw :=
  "Usage: kill [-s sigspec | -signum | -sigspec] [pid | job]... or\nkill -l [exitstatus]".toList

/-- Print the names of signals, or of the one that a status tells. -/
def listSignals (arguments : List Raw) : Act UInt8 := do
  match arguments with
  | [] =>
    Act.print ['0', '\n']
    (signalTable.drop 1).forM fun (_, name) => printLine name.toList
    return 0
  | a :: _ =>
    let n ← count a
    let n := if 128 < n then n - 128 else n
    if 0 < n && n ≤ 64 then
      printLine (signalName n)
      return 0
    else Act.fail ("invalid signal number or exit status: ".toList ++ a)

/-- The signal that is asked for, whether a list is wanted, and the arguments left. -/
def killArguments (arguments : List Raw) : Act (Option Nat × Bool × List Raw) := do
  match arguments with
  | ('-' :: s) :: rest =>
    match signal? 1 s, s with
    | some n, _ => return (some n, false, rest)
    | none, ['0'] => return (some 0, false, rest)
    | none, _ =>
      let (found, rest) ← options ['l'] ['s'] (arguments.length + 1) arguments
      let named := (found.filter (·.1 == 's')).getLast?
      match named with
      | some (_, name) =>
        match signal? 1 name, name with
        | some n, _ => return (some n, found.any (·.1 == 'l'), rest)
        | none, ['0'] => return (some 0, false, rest)
        | none, _ => Act.fail ("invalid signal number or name: ".toList ++ name)
      | none => return (none, found.any (·.1 == 'l'), rest)
  | _ => return (none, false, arguments)

/-- Send a signal. The only processes are the shell itself and its jobs, which have ended. -/
def killCommand : Builtin := fun arguments => do
  let (signal, lists, rest) ← killArguments arguments
  if lists then listSignals rest
  else if rest.isEmpty then Act.fail killUsage
  else
    let n := signal.getD 15
    rest.foldlM (fun status target => do
      let target ← count (if target.head? == some '-' then target.drop 1 else target)
      if target = Process.ownNumber || target = 0 then
        modify fun p => { p with received := p.received ++ [n] }
        return status
      else if (← get).jobs.any (·.1 == target) then return status
      else
        Act.complain "No such process\n".toList
        return 1) 0

/-- Wait for jobs; they have ended. -/
def waitCommand : Builtin := fun arguments => do
  let (_, rest) ← splitOptions "" arguments
  rest.foldlM (fun _ target => do
    match (← get).jobs.lookup (← count target) with
    | some status => return status
    | none => return 127) 0

/-- There is no job that could be brought back. -/
def noJob : Builtin := fun _ => Act.fail "No current job".toList

def timesCommand : Builtin := fun _ => do
  printLine "0m0.000000s 0m0.000000s".toList
  printLine "0m0.000000s 0m0.000000s".toList
  return 0

def ulimitCommand : Builtin := fun _ => do
  printLine "unlimited".toList
  return 0

/-! ### Leaving -/

/-- Leave the shell, with its last status or the one given. -/
def exitCommand : Builtin := fun arguments => do
  match arguments with
  | [] => throw .exit
  | a :: _ =>
    Act.ending (UInt8.ofNat (← count a))
    throw .exit

/-- Leave a function or a file that is read, with the last status or the one given. -/
def returnCommand : Builtin := fun arguments => do
  match arguments with
  | [] => throw .return
  | a :: _ =>
    Act.ending (UInt8.ofNat (← count a))
    throw .return

/-- Leave loops, or go on with their next turn. -/
def leaveLoops (stop : Nat → Stop) : Builtin := fun arguments => do
  let n ← match arguments with
    | [] => pure 1
    | a :: _ =>
      let n ← count a
      if n = 0 then Act.fail (Number.fault a)
      pure n
  let n := n.min (← get).loops
  Act.ending 0
  if 0 < n then throw (stop n)
  return 0

end LintRepair.Shell.Builtin
