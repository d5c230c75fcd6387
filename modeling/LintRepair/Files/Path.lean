/-!
Paths as text. Nothing here looks at any file: a path is cut and joined as it is written, so what a
path is called in a message is what it was called in the first place.
-/

namespace LintRepair.Files.Path

/-- The parts between the slashes of a path, empty ones included. -/
def parts : List Char → List (List Char)
  | [] => [[]]
  | c :: rest =>
    if c = '/' then [] :: parts rest
    else match parts rest with
      | part :: more => (c :: part) :: more
      | [] => [[c]]

/-- Whether a path starts at the top of the file tree. -/
def isAbsolute (path : String) : Bool := path.toList.head? == some '/'

/-- Whether a path ends in a slash, and so speaks of a directory. -/
def endsInSlash (path : String) : Bool := path.toList.getLast? == some '/'

/-- A path without the slashes at its end; the top stays itself. -/
def withoutFinalSlashes (path : String) : String :=
  match (path.toList.reverse.dropWhile (· == '/')).reverse with
  | [] => if path.isEmpty then path else "/"
  | names => String.ofList names

/-- The path of something relative to a directory; an absolute path stays as it is. -/
def join (directory path : String) : String :=
  if isAbsolute path || directory.isEmpty then path
  else if endsInSlash directory then directory ++ path
  else directory ++ "/" ++ path

/-- Drop what ends a reversed path without naming anything: slashes, and dots between or after them.
The slash at the top stays, and so does a dot at the very front. -/
def dropEmptyTail : List Char → List Char
  | [] => []
  | ['/'] => ['/']
  | '/' :: rest => dropEmptyTail rest
  | '.' :: '/' :: rest => dropEmptyTail ('/' :: rest)
  | path => path

/-- The path without its last name, unless it has no name. -/
def parent? (path : String) : Option String :=
  match dropEmptyTail path.toList.reverse with
  | [] => none
  | ['/'] => none
  | reversed => some (String.ofList (dropEmptyTail (reversed.dropWhile (· != '/'))).reverse)

/-- The last name of a path; a step upwards is no name. -/
def fileName? (path : String) : Option (List Char) :=
  match (dropEmptyTail path.toList.reverse).takeWhile (· != '/') with
  | [] => none
  | ['.'] => none
  | ['.', '.'] => none
  | reversed => some reversed.reverse

/-- The part of the last name after its last dot. A dot in front begins no extension. -/
def extension? (path : String) : Option String :=
  match fileName? path with
  | none => none
  | some name =>
    let tail := name.reverse.takeWhile (· != '.')
    if tail.length + 1 < name.length then some (String.ofList tail.reverse) else none

end LintRepair.Files.Path
