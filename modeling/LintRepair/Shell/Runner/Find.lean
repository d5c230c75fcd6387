import LintRepair.Shell.Runner.Items

/-!
Finding files. An expression says what is done with each file that is come upon; it may call
commands.
-/

namespace LintRepair.Shell.Runner

open Files (Location Entry)

/-- A part of an expression about files. -/
inductive FileTest where
  | always
  | never
  | name (pattern : Pattern) (ignoresCase : Bool)
  | path (pattern : Pattern) (ignoresCase : Bool)
  | regular (r : Regular)
  | kind (letters : List Char)
  | empty
  | size (sign : Option Char) (count unit : Nat)
  | runnable
  | print (stop : Char)
  | format (text : Raw)
  | delete
  | prune
  | quit
  | call (command : List Raw)
  | collect (command : List Raw)
  | not (test : FileTest)
  | both (first second : FileTest)
  | either (first second : FileTest)
deriving Inhabited

/-- What is wrong with an expression, or a part of one that has been read. -/
abbrev Finding := Except Raw

/-- Options that concern the walk as a whole. -/
structure Walk where
  least : Nat := 0
  most : Option Nat := none
  depthFirst : Bool := false

namespace FileTest

/-- Whether a test does something by itself, so that paths need not be printed. -/
def acts : FileTest → Bool
  | .print _ | .format _ | .delete | .call _ | .collect _ => true
  | .not t => t.acts
  | .both a b => a.acts || b.acts
  | .either a b => a.acts || b.acts
  | _ => false

end FileTest

/-! ### Reading -/

/-- The state of reading an expression: words that are left, and options found so far. -/
structure FindReading where
  words : List Raw
  walk : Walk := {}

abbrev FindReader := StateT FindReading Finding

namespace FindReader

def patternOf (s : Raw) : Pattern := Pattern.ofGlyphs (s.map fun c => ⟨c, false⟩)

def argument (name : Raw) : FindReader Raw := do
  let r ← get
  match r.words with
  | word :: words =>
    set { r with words := words }
    return word
  | [] => throw ("missing argument to \x60".toList ++ name ++ ['\''])

def sizeTest (s : Raw) : FindReader FileTest := do
  let (sign, rest) : Option Char × Raw := match s with
    | '+' :: rest => (some '+', rest)
    | '-' :: rest => (some '-', rest)
    | rest => (none, rest)
  let digits := rest.takeWhile Char.isDigit
  let units : List (Raw × Nat) := [([], 512), (['b'], 512), (['c'], 1), (['w'], 2), (['k'], 1024),
    (['M'], 1048576), (['G'], 1073741824)]
  match units.lookup (rest.drop digits.length) with
  | some unit =>
    if digits.isEmpty then throw ("invalid argument \x60".toList ++ s ++ "' to \x60-size'".toList)
    return .size sign (Number.value 10 digits) unit
  | none => throw ("invalid -size type \x60".toList ++ s.drop (s.length - 1) ++ ['\''])

def commandWords : List Raw → List Raw → Option (List Raw × Bool × List Raw)
  | _, [] => none
  | taken, word :: words =>
    if word == [';'] then some (taken.reverse, false, words)
    else if word == ['+'] && taken.head? == some "\x7b\x7d".toList then
      some ((taken.drop 1).reverse, true, words)
    else commandWords (word :: taken) words

/-- A number that an option needs. -/
def depth (name : Raw) : FindReader Nat := do
  let value ← argument name
  match Number.count? value with
  | some n => return n
  | none =>
    throw ("Expected a positive decimal integer argument to ".toList ++ name
      ++ ", but got '".toList ++
      value ++ ['\''])

/-- A single test with the given name. -/
def named (name : Raw) : FindReader FileTest := do
  let isNamed (s : String) : Bool := s.toList == name
  if isNamed "-name" then return .name (patternOf (← argument name)) false
  else if isNamed "-iname" then
    return .name (patternOf ((← argument name).map Char.toLower)) true
  else if isNamed "-path" || isNamed "-wholename" then
    return .path (patternOf (← argument name)) false
  else if isNamed "-ipath" then
    return .path (patternOf ((← argument name).map Char.toLower)) true
  else if isNamed "-regex" then
    match Regular.read false true (← argument name) with
    | .ok (r, _) => return .regular r
    | .error fault => throw fault.text.toList
  else if isNamed "-type" then
    let value ← argument name
    let letters := value.filter (· != ',')
    match letters.find? fun c => !"fdlbcps".toList.contains c with
    | some c => throw ("Unknown argument to -type: ".toList ++ [c])
    | none => return .kind letters
  else if isNamed "-empty" then return .empty
  else if isNamed "-size" then sizeTest (← argument name)
  else if isNamed "-executable" then return .runnable
  else if isNamed "-print" then return .print '\n'
  else if isNamed "-print0" then return .print '\x00'
  else if isNamed "-printf" then return .format (← argument name)
  else if isNamed "-delete" then
    modify fun r => { r with walk := { r.walk with depthFirst := true } }
    return .delete
  else if isNamed "-prune" then return .prune
  else if isNamed "-quit" then return .quit
  else if isNamed "-true" || isNamed "-follow" || isNamed "-noleaf" || isNamed "-xdev" ||
      isNamed "-mount" then return .always
  else if isNamed "-false" then return .never
  else if isNamed "-depth" || isNamed "-d" then
    modify fun r => { r with walk := { r.walk with depthFirst := true } }
    return .always
  else if isNamed "-maxdepth" then
    let n ← depth name
    modify fun r => { r with walk := { r.walk with most := some n } }
    return .always
  else if isNamed "-mindepth" then
    let n ← depth name
    modify fun r => { r with walk := { r.walk with least := n } }
    return .always
  else if isNamed "-exec" || isNamed "-execdir" then
    let r ← get
    match commandWords [] r.words with
    | some ([], _, _) | none => throw ("missing argument to \x60".toList ++ name ++ ['\''])
    | some (command, isCollected, words) =>
      set { r with words := words }
      return if isCollected then .collect command else .call command
  else if ["-newer", "-perm", "-user", "-group", "-mtime", "-mmin", "-ctime", "-atime"].any
      isNamed then
    let _ ← argument name
    return .always
  else if name.head? == some '-' then throw ("unknown predicate \x60".toList ++ name ++ ['\''])
  else
    throw ("paths must precede expression: \x60".toList ++ name ++ ['\''])

/-- Whether a word joins two expressions, or ends one. -/
def isJoining (word : Raw) : Bool :=
  ["-o", "-or", "-a", "-and", ",", ")"].any (·.toList == word)

mutual

/-- Expressions of which one has to hold. -/
def disjunction : Nat → FindReader FileTest
  | 0 => pure .always
  | bound + 1 => do
    let first ← conjunction bound
    let r ← get
    match r.words with
    | word :: words =>
      if word == "-o".toList || word == "-or".toList then
        set { r with words := words }
        if words.isEmpty then expected word
        return .either first (← disjunction bound)
      else return first
    | [] => return first

def conjunction : Nat → FindReader FileTest
  | 0 => pure .always
  | bound + 1 => do
    let first ← negation bound
    let r ← get
    match r.words with
    | word :: words =>
      if word == "-a".toList || word == "-and".toList then
        set { r with words := words }
        if words.isEmpty then expected word
        return .both first (← conjunction bound)
      else if isJoining word then return first
      else return .both first (← conjunction bound)
    | [] => return first

/-- An expression that may be turned around. -/
def negation : Nat → FindReader FileTest
  | 0 => pure .always
  | bound + 1 => do
    let r ← get
    match r.words with
    | [] => throw "invalid expression".toList
    | word :: words =>
      set { r with words := words }
      if word == ['!'] || word == "-not".toList then
        if words.isEmpty then expected word
        return .not (← negation bound)
      else if word == ['('] then
        let inside ← disjunction bound
        let r ← get
        match r.words with
        | [')'] :: words =>
          set { r with words := words }
          return inside
        | _ =>
          throw ("invalid expression; I was expecting to find a ')' somewhere but did not see " ++
            "one.").toList
      else if word == [')'] then
        throw "invalid expression; you have too many ')'".toList
      else if isJoining word then
        throw ("invalid expression; you have used a binary operator '".toList ++ word ++
          "' with nothing before it.".toList)
      else named word

/-- The complaint that something is missing. -/
def expected {α : Type} (word : Raw) : FindReader α :=
  throw ("expected an expression after '".toList ++ word ++ ['\''])

end

/-- A whole expression, with the options of the walk. -/
def whole (words : List Raw) : Finding (FileTest × Walk) := do
  if words.isEmpty then return (.print '\n', {})
  let (test, r) ← (disjunction (4 * words.length + 4)).run { words := words }
  match r.words with
  | [] => return (if test.acts then test else .both test (.print '\n'), r.walk)
  | [')'] :: _ => throw "you have too many ')'".toList
  | word :: _ => throw ("paths must precede expression: \x60".toList ++ word ++ ['\''])

end FindReader

/-! ### Walking -/

/-- A file that has been come upon: its path, its location, how deep it lies, and the path that the
walk began with. -/
structure FileFound where
  path : Raw
  here : Location
  depth : Nat

/-- What a walk keeps: commands to be called with all files they were meant for, whether the present
directory is left out, whether the walk is at its end, and its status. -/
structure Walking where
  collected : List (List Raw × List Raw) := []
  pruned : Bool := false
  ended : Bool := false
  status : UInt8 := 0

def put (s : Raw) : Act Unit := modify fun p => (p.write? 1 s).getD p

def entryAt (here : Location) : Act (Option Entry) := return (← get).tree.entry? here

def sizeAt (here : Location) : Act Nat := do
  match ← entryAt here with
  | some (.file content) => return content.size
  | _ => return 4096

/-- A path as a format shows it. The bound is the length of the format. -/
def formatted (f : FileFound) (isDirectory : Bool) (size : Nat) : Nat → Raw → Raw
  | 0, _ => []
  | _, [] => []
  | bound + 1, '%' :: c :: s =>
    let shown : Raw := match c with
      | 'p' => f.path
      | 'f' => Tool.lastName f.path
      | 'h' => Tool.directoryOf f.path
      | 'P' =>
        let parts := (Raw.parts '/' f.path)
        ['/'].intercalate (parts.drop (parts.length - f.depth))
      | 's' => Raw.ofNat size
      | 'd' => Raw.ofNat f.depth
      | 'y' => if isDirectory then ['d'] else ['f']
      | '%' => ['%']
      | c => ['%', c]
    shown ++ formatted f isDirectory size bound s
  | bound + 1, '\\' :: c :: s =>
    let shown := match c with
      | 'n' => '\n'
      | 't' => '\t'
      | '0' => '\x00'
      | c => c
    shown :: formatted f isDirectory size bound s
  | bound + 1, c :: s => c :: formatted f isDirectory size bound s

/-- Put a path in the place of each pair of braces. -/
def withPath (path : Raw) (command : List Raw) : List Raw :=
  command.map fun a => withItem "\x7b\x7d".toList path (a.length + 1) a

/-- Carry out a test for a file; whether it holds. -/
def holds (call : Call) (f : FileFound) : FileTest → Walking → Act (Bool × Walking)
  | .always, w => pure (true, w)
  | .never, w => pure (false, w)
  | .name pattern ignoresCase, w =>
    let name := Tool.lastName f.path
    pure (pattern.matchesAll (if ignoresCase then name.map Char.toLower else name), w)
  | .path pattern ignoresCase, w =>
    pure (pattern.matchesAll (if ignoresCase then f.path.map Char.toLower else f.path), w)
  | .regular r, w => pure ((r.matchAtStart f.path).any (·.last = f.path.length), w)
  | .kind letters, w => do
    match ← entryAt f.here with
    | some .directory => return (letters.contains 'd', w)
    | some (.file _) => return (letters.contains 'f', w)
    | none => return (false, w)
  | .empty, w => do
    match ← entryAt f.here with
    | some .directory => return ((← get).tree.isBare f.here, w)
    | some (.file content) => return (content.size = 0, w)
    | none => return (false, w)
  | .size sign count unit, w => do
    let units := ((← sizeAt f.here) + unit - 1) / unit
    return (match sign with
      | some '+' => count < units
      | some _ => units < count
      | none => units == count, w)
  | .runnable, w => do
    match ← entryAt f.here with
    | some .directory => return (true, w)
    | _ => return ((← get).tree.runnable.contains f.here, w)
  | .print stop, w => do
    put (f.path ++ [stop])
    return (true, w)
  | .format text, w => do
    let isDirectory := match ← entryAt f.here with
      | some .directory => true
      | _ => false
    put (formatted f isDirectory (← sizeAt f.here) (text.length + 1) text)
    return (true, w)
  | .delete, w => do
    if f.path == ['.'] then return (true, w)
    let p ← get
    if p.tree.isBare f.here then
      set { p with tree := p.tree.remove f.here }
      return (true, w)
    else
      Act.report ("find: cannot delete ".toList ++ Working.quoted f.path ++ ": ".toList ++
        Tool.notEmpty ++ ['\n'])
      return (false, { w with status := 1 })
  | .prune, w => pure (true, { w with pruned := true })
  | .quit, w => pure (true, { w with ended := true })
  | .call command, w => do
    let status ← Calling.through call "find".toList "" true (withPath f.path command)
    return (status = 0, w)
  | .collect command, w =>
    let old := (w.collected.lookup command).getD []
    let others := w.collected.filter (·.1 != command)
    pure (true, { w with collected := others ++ [(command, old ++ [f.path])] })
  | .not test, w => do
    let (found, w) ← holds call f test w
    return (!found, w)
  | .both first second, w => do
    let (found, w) ← holds call f first w
    if found && !w.ended then holds call f second w else return (found, w)
  | .either first second, w => do
    let (found, w) ← holds call f first w
    if found || w.ended then return (found, w) else holds call f second w

/-- Visit a file and, if it is a directory, what is below it. The bound is the depth. -/
def visit (call : Call) (walk : Walk) (test : FileTest) : Nat → Walking → FileFound → Act Walking
  | 0, w, _ => pure w
  | bound + 1, w, f => do
    if w.ended then return w
    let look (w : Walking) : Act Walking := do
      if f.depth < walk.least then return w
      let (_, w) ← holds call f test { w with pruned := false }
      return w
    let below (w : Walking) : Act Walking := do
      let p ← get
      match p.tree.entry? f.here with
      | some .directory =>
        if walk.most.any (· ≤ f.depth) then return w
        (Tool.sortedNames p.tree f.here).foldlM (fun w name =>
          visit call walk test bound w
            ⟨Tool.pathBelow f.path name, Tool.locationBelow f.here name, f.depth + 1⟩) w
      | _ => return w
    if walk.depthFirst then look (← below w)
    else
      let w ← look { w with pruned := false }
      if w.pruned || w.ended then return { w with pruned := false } else below w

/-- Find files, and do something with them. -/
def find (call : Call) (arguments : List Raw) : Act UInt8 := do
  let arguments := arguments.dropWhile fun a =>
    a == "-H".toList || a == "-L".toList || a == "-P".toList
  let isExpression (a : Raw) : Bool :=
    (a.head? == some '-' && 1 < a.length) || a == ['('] || a == ['!'] || a == [')']
  let paths := arguments.takeWhile fun a => !isExpression a
  match FindReader.whole (arguments.drop paths.length) with
  | .error reason =>
    Act.report ("find: ".toList ++ reason ++ ['\n'])
    return 1
  | .ok (test, walk) =>
    let w ← (if paths.isEmpty then [['.']] else paths).foldlM (fun w path => do
      let p ← get
      match p.tree.find p.directory (Raw.text path) with
      | .ok (here, _) =>
        visit call walk test (p.tree.entries.length + 2) w ⟨path, here, 0⟩
      | .error cause =>
        Act.report ("find: ".toList ++ Working.quoted path ++ ": ".toList ++ cause.text.toList ++
          ['\n'])
        return { w with status := 1 }) ({} : Walking)
    let failed ← w.collected.foldlM (fun (failed : Bool) (command, found) => do
      let status ← Calling.through call "find".toList "" true (command ++ found)
      return failed || status != 0) false
    return if failed then 1 else w.status

end LintRepair.Shell.Runner
