import LintRepair.Files.Path

/-!
Files and directories, and what can go wrong with them. A tree lists its entries by location, the
names on the way from the top; the top itself is always a directory.
-/

namespace LintRepair.Files

/-- Why a file operation fails. -/
inductive Failure where
  | notFound
  | notDirectory
  | isDirectory
  | alreadyExists
  | nameTooLong
  | argumentTooLong
  | nulInName
  | nulInCommand
  | notText
deriving DecidableEq, Repr

namespace Failure

def text : Failure → String
  | .notFound => "No such file or directory"
  | .notDirectory => "Not a directory"
  | .isDirectory => "Is a directory"
  | .alreadyExists => "File exists"
  | .nameTooLong => "File name too long"
  | .argumentTooLong => "Argument list too long"
  | .nulInName => "file name contained an unexpected NUL byte"
  | .nulInCommand => "nul byte found in provided data"
  | .notText => "stream did not contain valid UTF-8"

/-- The system's number of a failure, if the system is where it comes from. -/
def code? : Failure → Option Nat
  | .notFound => some 2
  | .argumentTooLong => some 7
  | .alreadyExists => some 17
  | .notDirectory => some 20
  | .isDirectory => some 21
  | .nameTooLong => some 36
  | _ => none

def message (f : Failure) : String :=
  match f.code? with
  | some code => f.text ++ " (os error " ++ String.ofList (Nat.toDigits 10 code) ++ ")"
  | none => f.text

end Failure

/-- What stands at a location. -/
inductive Entry where
  | file (content : ByteArray)
  | directory

/-- The names on the way from the top to a file or directory. -/
abbrev Location := List String

def Location.path (here : Location) : String :=
  if here.isEmpty then "/" else String.join (here.map ("/" ++ ·))

/-- Files and directories by location, and the files that may be run as programs. -/
structure Tree where
  entries : List (Location × Entry)
  runnable : List Location := []

namespace Tree

def empty : Tree := { entries := [] }

/-- What stands at a location, if anything does. -/
def entry? (t : Tree) (here : Location) : Option Entry :=
  if here.isEmpty then some .directory else t.entries.lookup here

def put (t : Tree) (here : Location) (e : Entry) : Tree :=
  { t with entries := (here, e) :: t.entries.filter (·.1 != here) }

/-- Take away what stands at a location, with everything below it. -/
def remove (t : Tree) (here : Location) : Tree :=
  { entries := t.entries.filter fun (there, _) => !here.isPrefixOf there
    runnable := t.runnable.filter fun there => !here.isPrefixOf there }

/-- What stands at a location and below it, by the names that lead on from there. -/
def below (t : Tree) (here : Location) : List (Location × Entry) :=
  t.entries.filterMap fun (there, e) =>
    if here.isPrefixOf there then some (there.drop here.length, e) else none

/-- Move what stands at a location, with everything below it, to another one. -/
def move (t : Tree) (source target : Location) : Tree :=
  let relocated (there : Location) : Location :=
    if source.isPrefixOf there then target ++ there.drop source.length else there
  let kept := if source == target then t else t.remove target
  { entries := kept.entries.map fun (there, e) => (relocated there, e)
    runnable := kept.runnable.map relocated }

/-- Whether a directory holds nothing. -/
def isBare (t : Tree) (here : Location) : Bool :=
  t.entries.all fun (there, _) => there == here || !here.isPrefixOf there

/-- Say whether a file may be run as a program. -/
def setRunnable (t : Tree) (here : Location) (isRunnable : Bool) : Tree :=
  let others := t.runnable.filter (· != here)
  { t with runnable := if isRunnable then here :: others else others }

/-- The names in a directory, in no particular order. -/
def names (t : Tree) (here : Location) : List String :=
  t.entries.filterMap fun (there, _) =>
    if there.dropLast == here then there.getLast? else none

/-- The number of bytes that a name may have. -/
def longestName : Nat := 255

/-- The number of bytes that a path may have. -/
def longestPath : Nat := 4095

/-- Follow names from a location. Every name but the last has to lead to a directory. -/
def follow (t : Tree) : Location → List (List Char) → Except Failure Location
  | here, [] => .ok here
  | here, name :: names =>
    match t.entry? here with
    | none => .error .notFound
    | some (.file _) => .error .notDirectory
    | some .directory =>
      if name.isEmpty || name == ['.'] then t.follow here names
      else if name == ['.', '.'] then t.follow here.dropLast names
      else if longestName < (String.ofList name).utf8ByteSize then .error .nameTooLong
      else t.follow (here ++ [String.ofList name]) names

/-- The location that a path leads to from a directory, whether or not anything stands there. -/
def locate (t : Tree) (base : Location) (path : String) : Except Failure Location :=
  if path.isEmpty then .error .notFound
  else if path.toList.contains '\x00' then .error .nulInName
  else if longestPath < path.utf8ByteSize then .error .nameTooLong
  else t.follow (if Path.isAbsolute path then [] else base) (Path.parts path.toList)

def find (t : Tree) (base : Location) (path : String) : Except Failure (Location × Entry) := do
  let here ← t.locate base path
  match t.entry? here with
  | some e => .ok (here, e)
  | none => .error .notFound

def doesExist (t : Tree) (base : Location) (path : String) : Bool :=
  (t.find base path).toOption.isSome

def isFile (t : Tree) (base : Location) (path : String) : Bool :=
  match t.find base path with
  | .ok (_, .file _) => true
  | _ => false

def isDirectory (t : Tree) (base : Location) (path : String) : Bool :=
  match t.find base path with
  | .ok (_, .directory) => true
  | _ => false

def read (t : Tree) (base : Location) (path : String) : Except Failure ByteArray := do
  match ← t.find base path with
  | (_, .file content) => .ok content
  | (_, .directory) => .error .isDirectory

def readText (t : Tree) (base : Location) (path : String) : Except Failure String := do
  match String.fromUTF8? (← t.read base path) with
  | some text => .ok text
  | none => .error .notText

/-- Check that a new entry may stand at a location. -/
def checkParent (t : Tree) (here : Location) : Except Failure Unit :=
  match t.entry? here.dropLast with
  | some .directory => .ok ()
  | some (.file _) => .error .notDirectory
  | none => .error .notFound

/-- Where a file that is written to a path stands. A path that ends in a slash is never that of a
file. -/
def locateFile (t : Tree) (base : Location) (path : String) : Except Failure Location := do
  let here ← t.locate base (Path.withoutFinalSlashes path)
  if Path.endsInSlash path then .error .isDirectory
  else
    match t.entry? here with
    | some .directory => .error .isDirectory
    | some (.file _) => .ok here
    | none =>
      t.checkParent here
      .ok here

/-- Write a file, over the one that is there if there is one. -/
def write (t : Tree) (base : Location) (path : String) (content : ByteArray) :
    Except Failure Tree := do
  let here ← t.locateFile base path
  .ok (t.put here (.file content))

/-- Make a directory where nothing stands yet. -/
def makeDirectory (t : Tree) (base : Location) (path : String) : Except Failure Tree := do
  let here ← t.locate base (Path.withoutFinalSlashes path)
  match t.entry? here with
  | some _ => .error .alreadyExists
  | none =>
    t.checkParent here
    .ok (t.put here .directory)

/-- Make a directory and those above it, as far as they are missing. Gives the failure, if there was
one, and the tree afterwards; what was made before the failure stays. The bound is the number of
names that may have to be dropped. -/
def makeDirectories (base : Location) : Nat → String → Tree → Option Failure × Tree
  | 0, _, t => (some .notFound, t)
  | bound + 1, path, t =>
    if path.isEmpty then (none, t)
    else
      match t.makeDirectory base path with
      | .ok t => (none, t)
      | .error .notFound =>
        match Path.parent? path with
        | none => (some .notFound, t)
        | some parent =>
          match makeDirectories base bound parent t with
          | (some cause, t) => (some cause, t)
          | (none, t) =>
            match t.makeDirectory base path with
            | .ok t => (none, t)
            | .error cause => if t.isDirectory base path then (none, t) else (some cause, t)
      | .error cause => if t.isDirectory base path then (none, t) else (some cause, t)

/-- Make all directories on a path. What was made before a failure stays. -/
def makeAll (t : Tree) (base : Location) (path : String) : Option Failure × Tree :=
  makeDirectories base (path.length + 2) path t

/-- The tree with all directories on a path, if they could be made. -/
def makePath (t : Tree) (base : Location) (path : String) : Except Failure Tree :=
  match t.makeAll base path with
  | (none, t) => .ok t
  | (some cause, _) => .error cause

end Tree

end LintRepair.Files
