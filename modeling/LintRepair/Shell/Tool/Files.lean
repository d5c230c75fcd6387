import LintRepair.Shell.Tool.Names

/-!
Programs that make, move, list and take away files and directories.
-/

namespace LintRepair.Shell.Tool

open Files (Tree Location Failure Entry)
open Working

def pathBelow (path name : Raw) : Raw :=
  if path.getLast? == some '/' then path ++ name else path ++ '/' :: name

/-- The names in a directory in order. -/
def sortedNames (tree : Tree) (here : Location) : List Raw :=
  Raw.sorted ((tree.names here).map Raw.ofString)

def locationBelow (here : Location) (name : Raw) : Location := here ++ [Raw.text name]

/-- A complaint about a path, with the reason. -/
def blame (what : String) (path : Raw) (reason : Raw) : Working Unit :=
  warn 1 (what.toList ++ quoted path ++ ": ".toList ++ reason)

/-! ### Lists -/

/-- How names are listed. -/
structure Listing where
  options : Given

namespace Listing

/-- The mark behind a name that tells what it belongs to. -/
def mark (how : Listing) (w : Work) (here : Location) : Raw :=
  match w.tree.entry? here with
  | some .directory => if how.options.has 'F' || how.options.has 'p' then ['/'] else []
  | some (.file _) =>
    if how.options.has 'F' && w.tree.runnable.contains here then ['*'] else []
  | none => []

def shown (how : Listing) (name : Raw) : Raw :=
  if how.options.has 'Q' then '"' :: name.flatMap (fun c => if c == '"' || c == '\\' then ['\\', c]
    else [c]) ++ ['"']
  else if how.options.has 'b' then name.flatMap fun c => if c == ' ' then ['\\', ' '] else [c]
  else name

def sizeOf (w : Work) (here : Location) : Nat :=
  match w.tree.entry? here with
  | some (.file content) => content.size
  | _ => 4096

/-- The line that says more about a name. -/
def longLine (how : Listing) (w : Work) (here : Location) (name : Raw) : Raw :=
  let rights := match w.tree.entry? here with
    | some .directory => "drwxr-xr-x"
    | _ => if w.tree.runnable.contains here then "-rwxr-xr-x" else "-rw-r--r--"
  let owner := if how.options.has 'n' then " 1 0 0 " else " 1 root root "
  rights.toList ++ owner.toList ++ Raw.ofNat (sizeOf w here) ++ " Jan  1 00:00 ".toList ++
    how.shown name

/-- Whether a name says more than its letters. -/
def isLong (how : Listing) : Bool := "lnog".toList.any how.options.has

/-- Names with the locations they belong to, in the order in which they are listed. -/
def ordered (how : Listing) (w : Work) (names : List (Raw × Location)) : List (Raw × Location) :=
  let byName := names.mergeSort fun a b => Raw.isUpTo a.1 b.1
  let ending (name : Raw) : Raw :=
    if name.contains '.' then '.' :: (name.reverse.takeWhile (· != '.')).reverse else []
  let all := match how.options.last? ['S', 'X', 'U', 't', 'v', 'f'] with
    | some 'S' => byName.mergeSort fun a b => sizeOf w b.2 ≤ sizeOf w a.2
    | some 'X' => byName.mergeSort fun a b => Raw.isUpTo (ending a.1) (ending b.1)
    | _ => byName
  if how.options.has 'r' then all.reverse else all

def printNames (how : Listing) (names : List (Raw × Location)) : Working Unit := do
  let w ← get
  let texts := (how.ordered w names).map fun (name, here) =>
    (if how.isLong then how.longLine w here name else how.shown name) ++ how.mark w here
  match how.options.last? ['m', '1', 'l'] with
  | some 'm' => if texts.isEmpty then pure () else printLine (", ".toList.intercalate texts)
  | _ => texts.forM printLine

def namesIn (how : Listing) (w : Work) (here : Location) : List (Raw × Location) :=
  let own := (w.tree.names here).map fun name => (Raw.ofString name, here ++ [name])
  match how.options.last? ['a', 'A', 'f'] with
  | some 'A' => own
  | some _ => (['.'], here) :: (['.', '.'], here.dropLast) :: own
  | none => own.filter fun (name, _) => name.head? != some '.'

/-- Print what is in a directory, and below it if asked for. The bound is the depth. -/
def printDirectory (how : Listing) (titled : Bool) : Nat → Bool → Raw × Location → Working Unit
  | 0, _, _ => pure ()
  | bound + 1, isFirst, (path, here) => do
    let w ← get
    if titled then print ((if isFirst then [] else ['\n']) ++ path ++ ":\n".toList)
    let names := how.namesIn w here
    if how.isLong then printLine ("total ".toList ++ Raw.ofNat (4 * names.length))
    how.printNames names
    if how.options.has 'R' then
      (how.ordered w names).forM fun (name, there) => do
        match w.tree.entry? there with
        | some .directory =>
          if name == ['.'] || name == ['.', '.'] then pure ()
          else printDirectory how titled bound false (pathBelow path name, there)
        | _ => pure ()

end Listing

/-- List files and what is in directories. -/
def ls : Tool := fun arguments => do
  let g ← given (plainRules [('a', "all"), ('A', "almost-all"), ('d', "directory"),
    ('F', "classify"), ('p', ""), ('R', "recursive"), ('r', "reverse"), ('1', ""), ('l', ""),
    ('n', "numeric-uid-gid"), ('o', ""), ('g', ""), ('h', "human-readable"), ('k', "kibibytes"),
    ('m', ""), ('N', "literal"), ('Q', "quote-name"), ('q', "hide-control-chars"), ('S', ""),
    ('t', ""), ('U', ""), ('u', ""), ('c', ""), ('v', ""), ('X', ""), ('x', ""), ('C', ""),
    ('f', ""), ('b', "escape"), ('L', "dereference"), ('H', ""), ('G', "no-group"), ('i', "inode"),
    ('B', "ignore-backups"), ('s', "size")] ++ valuedRules [('w', "width"), ('I', "ignore"),
    ('T', "tabsize"), ('\xe0', "sort"), ('\xe1', "format")] ++
    [{ letter := '\xe2', name := "color", mayTakeValue := true }]) 2 false (arguments.length + 1)
    arguments
  let how : Listing := ⟨g⟩
  let found ← (if g.operands.isEmpty then [['.']] else g.operands).filterMapM fun path => do
    match ← find path with
    | .ok (here, entry) => return some (path, here, entry)
    | .error cause =>
      warn 2 ("cannot access ".toList ++ quoted path ++ because cause)
      return none
  let isListed (e : Entry) : Bool := match e with
    | .directory => !g.has 'd'
    | .file _ => false
  let names := (found.filter fun (_, _, e) => !isListed e).map fun (path, here, _) => (path, here)
  let directories := (found.filter fun (_, _, e) => isListed e).map fun (path, here, _) =>
    (path, here)
  how.printNames names
  let w ← get
  let titled := 1 < g.operands.length || g.has 'R'
  let depth := w.tree.entries.length + 2
  let _ ← (how.ordered w directories).foldlM (fun isFirst directory => do
    how.printDirectory titled depth isFirst directory
    return false) names.isEmpty

/-! ### New files and directories -/

def touch : Tool := fun arguments => do
  let g ← given (plainRules [('a', ""), ('m', ""), ('c', "no-create"), ('f', ""),
    ('h', "no-dereference")] ++ valuedRules [('d', "date"), ('t', ""), ('r', "reference")]) 1 false
    (arguments.length + 1) arguments
  if g.operands.isEmpty then misused 1 "missing file operand".toList
  g.operands.forM fun path => do
    match ← find path with
    | .ok _ => pure ()
    | .error cause =>
      if path == ['-'] || path == "/dev/null".toList || (g.has 'c' && cause == .notFound) then
        pure ()
      else if path.getLast? == some '/' then blame "setting times of " path cause.text.toList
      else
        match ← write path [] with
        | .ok () => pure ()
        | .error cause => blame "cannot touch " path cause.text.toList

/-- The paths on the way to a path, and the path itself. -/
def pathsTo (path : Raw) : List Raw :=
  let parts := Raw.parts '/' path
  ((List.range parts.length).filterMap fun i =>
    if (parts.getD i []).isEmpty then none else some (['/'].intercalate (parts.take (i + 1))))

/-- Make a directory, and say so if asked for. -/
def makeDirectory (verbose : Bool) (path : Raw) : Working (Except Failure Unit) := do
  let w ← get
  match w.tree.makeDirectory w.directory (Raw.text path) with
  | .ok tree =>
    set { w with tree := tree }
    if verbose then printLine ("mkdir: created directory ".toList ++ quoted path)
    return .ok ()
  | .error cause => return .error cause

/-- Make directories, and those above them if asked for. -/
def mkdir : Tool := fun arguments => do
  let g ← given (plainRules [('p', "parents"), ('v', "verbose")] ++ valuedRules [('m', "mode")]) 1
    false (arguments.length + 1) arguments
  if g.operands.isEmpty then misused 1 "missing operand".toList
  g.operands.forM fun path => do
    if g.has 'p' then
      let whole := pathsTo path
      if whole.isEmpty && path.isEmpty then
        blame "cannot create directory " path Failure.notFound.text.toList
      discard <| whole.foldlM (fun (goesOn : Bool) front => do
        if !goesOn then return false
        match ← find front with
        | .ok (_, .directory) => return true
        | .ok (_, .file _) =>
          let cause : Failure := if front.length = (withoutSlashes path).length then .alreadyExists
            else .notDirectory
          blame "cannot create directory " front cause.text.toList
          return false
        | .error _ =>
          match ← makeDirectory (g.has 'v') front with
          | .ok () => return true
          | .error cause =>
            blame "cannot create directory " front cause.text.toList
            return false) true
    else
      match ← makeDirectory (g.has 'v') path with
      | .ok () => pure ()
      | .error cause => blame "cannot create directory " path cause.text.toList

/-! ### Removal -/

/-- The reason why a directory that holds something stays. -/
def notEmpty : Raw := "Directory not empty".toList

/-- Take away a directory that holds nothing. -/
def removeDirectory (quiet : Bool) (path : Raw) : Working Bool := do
  let refuse (reason : Raw) : Working Bool := do
    blame "failed to remove " path reason
    return false
  if lastName path == ['.'] then refuse "Invalid argument".toList
  else
    match ← find path with
    | .error cause => refuse cause.text.toList
    | .ok (_, .file _) => refuse Failure.notDirectory.text.toList
    | .ok (here, .directory) =>
      if (← get).tree.isBare here then
        change (·.remove here)
        return true
      else if quiet then return false
      else refuse notEmpty

/-- Take away directories that hold nothing. -/
def rmdir : Tool := fun arguments => do
  let g ← given (plainRules [('p', "parents"), ('v', "verbose"),
    ('\xe0', "ignore-fail-on-non-empty")]) 1 false (arguments.length + 1) arguments
  if g.operands.isEmpty then misused 1 "missing operand".toList
  g.operands.forM fun path => do
    let paths := if g.has 'p' then (pathsTo path).reverse else [path]
    discard <| paths.foldlM (fun (goesOn : Bool) path => do
      if !goesOn then return false
      if g.has 'v' then printLine ("rmdir: removing directory, ".toList ++ quoted path)
      removeDirectory (g.has '\xe0') path) true

/-- Say what was taken away, what is below a directory before it. The bound is the depth. -/
def sayRemoved (tree : Tree) : Nat → Raw → Location → Working Unit
  | 0, _, _ => pure ()
  | bound + 1, path, here =>
    match tree.entry? here with
    | some .directory => do
      (sortedNames tree here).forM fun name =>
        sayRemoved tree bound (pathBelow path name) (locationBelow here name)
      printLine ("removed directory ".toList ++ quoted path)
    | _ => printLine ("removed ".toList ++ quoted path)

/-- Take away files, and directories if asked for. -/
def rm : Tool := fun arguments => do
  let g ← given (plainRules [('r', "recursive"), ('R', ""), ('f', "force"), ('d', "dir"),
    ('v', "verbose"), ('i', ""), ('I', ""), ('\xe0', "one-file-system"),
    ('\xe1', "no-preserve-root"), ('\xe2', "preserve-root")]) 1 false (arguments.length + 1)
    arguments
  let deep := g.has 'r' || g.has 'R'
  if g.operands.isEmpty && !g.has 'f' then misused 1 "missing operand".toList
  g.operands.forM fun path => do
    let refuse (reason : Raw) : Working Unit := blame "cannot remove " path reason
    let remove (here : Location) : Working Unit := do
      let w ← get
      change (·.remove here)
      if g.has 'v' then sayRemoved w.tree (w.tree.entries.length + 2) path here
    match ← find path with
    | .error cause =>
      if g.has 'f' && (cause == .notFound || cause == .notDirectory) then pure ()
      else refuse cause.text.toList
    | .ok (here, .file _) => remove here
    | .ok (here, .directory) =>
      let name := lastName path
      if deep && (name == ['.'] || name == ['.', '.']) then
        warn 1 ("refusing to remove '.' or '..' directory: skipping ".toList ++ quoted path)
      else if deep && here.isEmpty then
        warn 1 ("it is dangerous to operate recursively on ".toList ++ quoted path)
        warn 1 "use --no-preserve-root to override this failsafe".toList
      else if deep then remove here
      else if g.has 'd' then
        if (← get).tree.isBare here then remove here else refuse notEmpty
      else refuse Failure.isDirectory.text.toList

/-! ### Copies and new places -/

/-- Sources and the place they go to: a directory that they come into, or a path for the only one
of them. -/
structure Transfer where
  sources : List Raw
  target : Raw
  into : Bool

namespace Transfer

def ofGiven (g : Given) : Working Transfer := do
  match g.value? 't' with
  | some target =>
    if g.operands.isEmpty then misused 1 "missing file operand".toList
    match ← find target with
    | .ok (_, .directory) => return ⟨g.operands, target, true⟩
    | .ok (_, .file _) => refuse "target directory " target .notDirectory
    | .error cause => refuse "target directory " target cause
  | none =>
    match g.operands with
    | [] => misused 1 "missing file operand".toList
    | [only] => misused 1 ("missing destination file operand after ".toList ++ quoted only)
    | operands =>
      let target := operands.getLastD []
      let sources := operands.dropLast
      match ← find target with
      | .ok (_, .directory) => return ⟨sources, target, !g.has 'T'⟩
      | .ok (_, .file _) =>
        if 1 < sources.length then refuse "target " target .notDirectory
        else return ⟨sources, target, false⟩
      | .error cause =>
        if 1 < sources.length then refuse "target " target cause
        else return ⟨sources, target, false⟩
where
  refuse (what : String) (target : Raw) (cause : Failure) : Working Transfer :=
    fail 1 (what.toList ++ quoted target ++ because cause)

def pathFor (t : Transfer) (source : Raw) : Raw :=
  if t.into then pathBelow t.target (lastName source) else t.target

end Transfer

/-- Copy what stands at a location to a path, with everything below it. The bound is the depth. -/
def copyTo (g : Given) : Nat → Raw → Location → Raw → Working Unit
  | 0, _, _, _ => pure ()
  | bound + 1, source, here, target => do
    let w ← get
    let announce : Working Unit :=
      if g.has 'v' then printLine (quoted source ++ " -> ".toList ++ quoted target) else pure ()
    let there := w.tree.find w.directory (Raw.text target)
    match w.tree.entry? here, there with
    | some (.file content), .ok (place, .file _) =>
      if place == here then
        warn 1 (quoted source ++ " and ".toList ++ quoted target ++ " are the same file".toList)
      else if g.has 'n' then pure ()
      else
        change (·.put place (.file content))
        announce
    | some (.file _), .ok (_, .directory) =>
      warn 1 ("cannot overwrite directory ".toList ++ quoted target ++ " with non-directory".toList)
    | some (.file content), .error _ =>
      match w.tree.locateFile w.directory (Raw.text target) with
      | .ok place =>
        change fun tree =>
          (tree.put place (.file content)).setRunnable place (tree.runnable.contains here)
        announce
      | .error .notDirectory =>
        warn 1 ("cannot stat ".toList ++ quoted target ++ because .notDirectory)
      | .error cause =>
        let cause := if cause == .isDirectory then .notDirectory else cause
        warn 1 ("cannot create regular file ".toList ++ quoted target ++ because cause)
    | some .directory, .ok (_, .file _) =>
      warn 1 ("cannot overwrite non-directory ".toList ++ quoted target ++ " with directory ".toList
        ++ quoted source)
    | some .directory, found => do
      let inside := match w.tree.locate w.directory (Raw.text (withoutSlashes target)) with
        | .ok place => here.isPrefixOf place
        | .error _ => false
      match found with
      | .ok _ => children bound w.tree source here target
      | .error _ =>
        match w.tree.makeDirectory w.directory (Raw.text target) with
        | .ok tree =>
          modify fun w => { w with tree := tree }
          announce
          children bound w.tree source here target
        | .error cause =>
          warn 1 ("cannot create directory ".toList ++ quoted target ++ because cause)
      if inside then
        warn 1 ("cannot copy a directory, ".toList ++ quoted source ++ ", into itself, ".toList ++
          quoted target)
    | none, _ => pure ()
where
  /-- Copy what is in a directory. -/
  children (bound : Nat) (tree : Tree) (source : Raw) (here : Location) (target : Raw) :
      Working Unit :=
    (sortedNames tree here).forM fun name =>
      copyTo g bound (pathBelow source name) (locationBelow here name) (pathBelow target name)

/-- Copy files, and directories if asked for. -/
def cp : Tool := fun arguments => do
  let g ← given (plainRules [('r', "recursive"), ('R', ""), ('a', "archive"), ('f', "force"),
    ('p', ""), ('v', "verbose"), ('n', "no-clobber"), ('T', "no-target-directory"), ('u', "update"),
    ('d', ""), ('L', "dereference"), ('P', "no-dereference"), ('H', ""), ('i', "interactive"),
    ('x', "one-file-system"), ('l', "link"), ('s', "symbolic-link")] ++
    valuedRules [('t', "target-directory")]) 1 false (arguments.length + 1) arguments
  let deep := ['r', 'R', 'a'].any g.has
  let t ← Transfer.ofGiven g
  t.sources.forM fun source => do
    match ← find source with
    | .error cause => warn 1 ("cannot stat ".toList ++ quoted source ++ because cause)
    | .ok (here, entry) =>
      let isDirectory := match entry with
        | .directory => true
        | .file _ => false
      if isDirectory && !deep then
        warn 1 ("-r not specified; omitting directory ".toList ++ quoted source)
      else
        let depth := (← get).tree.entries.length + 2
        copyTo g depth source here (t.pathFor source)

/-- Move a file or directory to a path. -/
def moveTo (g : Given) (source target : Raw) (here : Location) (entry : Entry) : Working Unit := do
  let w ← get
  let isDirectory := match entry with
    | .directory => true
    | .file _ => false
  let refuse (parts : List Raw) : Working Unit := warn 1 parts.flatten
  let move (place : Location) : Working Unit := do
    change (·.move here place)
    if g.has 'v' then
      printLine ("renamed ".toList ++ quoted source ++ " -> ".toList ++ quoted target)
  let intoItself (place : Location) : Bool := isDirectory && here.isPrefixOf place
  let refuseItself : Working Unit :=
    refuse ["cannot move ".toList, quoted source, " to a subdirectory of itself, ".toList,
      quoted target]
  match w.tree.find w.directory (Raw.text target) with
  | .ok (place, found) =>
    let targetIsDirectory := match found with
      | .directory => true
      | .file _ => false
    if place == here then
      refuse [quoted source, " and ".toList, quoted target, " are the same file".toList]
    else if g.has 'n' then pure ()
    else if isDirectory && !targetIsDirectory then
      refuse ["cannot overwrite non-directory ".toList, quoted target, " with directory ".toList,
        quoted source]
    else if !isDirectory && targetIsDirectory then
      refuse ["cannot overwrite directory ".toList, quoted target, " with non-directory".toList]
    else if intoItself place then refuseItself
    else if isDirectory && !w.tree.isBare place then
      refuse ["cannot overwrite ".toList, quoted target, ": ".toList, notEmpty]
    else move place
  | .error _ =>
    let wanted := if isDirectory then withoutSlashes target else target
    match w.tree.locateFile w.directory (Raw.text wanted) with
    | .ok place => if intoItself place then refuseItself else move place
    | .error .notDirectory =>
      refuse ["cannot stat ".toList, quoted target, because .notDirectory]
    | .error cause =>
      let cause := if cause == .isDirectory then .notDirectory else cause
      refuse ["cannot move ".toList, quoted source, " to ".toList, quoted target, because cause]

def mv : Tool := fun arguments => do
  let g ← given (plainRules [('f', "force"), ('i', "interactive"), ('n', "no-clobber"),
    ('v', "verbose"), ('T', "no-target-directory"), ('u', "update")] ++
    valuedRules [('t', "target-directory")]) 1 false (arguments.length + 1) arguments
  let t ← Transfer.ofGiven g
  t.sources.forM fun source => do
    match ← find source with
    | .error cause => warn 1 ("cannot stat ".toList ++ quoted source ++ because cause)
    | .ok (here, entry) => moveTo g source (t.pathFor source) here entry

/-! ### Rights -/

/-- Whether a file that may be run, or not, may be run after a change of rights; `none` if the text
is no change. -/
def runnableAfter? (mode : Raw) (before : Bool) : Option Bool :=
  if !mode.isEmpty && mode.all fun c => '0' ≤ c && c ≤ '7' then
    some ((mode.drop (mode.length - 3)).any fun c => (c.toNat - '0'.toNat) % 2 = 1)
  else
    (Raw.parts ',' mode).foldlM (fun runnable clause =>
      let who := clause.takeWhile fun c => "ugoa".toList.contains c
      let all := who.isEmpty || who.contains 'a' || "ugo".toList.all who.contains
      match clause.drop who.length with
      | sign :: rights =>
        if !"+-=".toList.contains sign || !rights.all "rwxXst".toList.contains then none
        else
          let run := rights.contains 'x' || (rights.contains 'X' && runnable)
          some (if sign == '+' then runnable || run
            else if sign == '-' then runnable && !(run && all)
            else run || (runnable && !all))
      | [] => none) before

def chmod : Tool := fun arguments => do
  let (modes, others) := arguments.partition fun a =>
    a.head? == some '-' && 1 < a.length && (a.drop 1).all "rwxX".toList.contains
  let g ← given (plainRules [('R', "recursive"), ('f', "silent"), ('v', "verbose"),
    ('c', "changes")]) 1 false (others.length + 1) others
  let (mode, paths) ← match modes ++ g.operands with
    | [] => misused 1 "missing operand".toList
    | [mode] => misused 1 ("missing operand after ".toList ++ quoted mode)
    | mode :: paths => pure (mode, paths)
  if (runnableAfter? mode false).isNone then
    misused 1 ("invalid mode: ".toList ++ quoted mode)
  paths.forM fun path => do
    match ← find path with
    | .error cause => warn 1 ("cannot access ".toList ++ quoted path ++ because cause)
    | .ok (here, entry) =>
      let set (here : Location) : Working Unit := change fun tree =>
        tree.setRunnable here ((runnableAfter? mode (tree.runnable.contains here)).getD false)
      match entry with
      | .file _ => set here
      | .directory =>
        if g.has 'R' then
          ((← get).tree.below here).forM fun (names, entry) =>
            match entry with
            | .file _ => set (here ++ names)
            | .directory => pure ()

end LintRepair.Shell.Tool
