import LintRepair.Cli.Program

/-!
The command line. The files of the project are read before a command and those it changed are
written after it; the command itself is carried out by the library, shell commands included.
-/

namespace LintRepair.Main

open Files (Tree Location Entry)

def locationOf (path : String) : Location :=
  (Files.Path.parts path.toList).filterMap fun name =>
    if name.isEmpty then none else some (String.ofList name)

/-- Add the directories on the way to a location. -/
def addParents (here : Location) (tree : Tree) : Tree :=
  (List.range here.length).foldl (fun tree n =>
    if (tree.entry? (here.take n)).isSome then tree else tree.put (here.take n) .directory) tree

/-- Read what stands at a location and below it, to some depth. Of a repository's own records only
their being there matters. -/
def collect : Nat → Location → Tree → IO Tree
  | 0, _, tree => return tree
  | depth + 1, here, tree => do
    let path := (← IO.currentDir) / here.path
    if ← path.isDir then
      let tree : Tree :=
        if here.isEmpty then tree else { tree with entries := (here, .directory) :: tree.entries }
      if here.getLast? == some ".git" then return tree
      (← path.readDir).foldlM (fun tree entry => collect depth (here ++ [entry.fileName]) tree) tree
    else
      try
        let content ← IO.FS.readBinFile path
        return { tree with entries := (here, .file content) :: tree.entries }
      catch _ => return tree

/-- Read what marks a project's root in a directory and those above it. -/
def collectMarkers (here : Location) : IO Tree := do
  let places := (List.range (here.length + 1)).map here.take
  let marks := ".git" :: Config.candidates
  let tree := addParents here (if here.isEmpty then .empty else Tree.empty.put here .directory)
  places.foldlM (fun tree place => marks.foldlM (fun tree mark => do
    let there := place ++ locationOf mark
    if ← ((← IO.currentDir) / there.path).pathExists then
      collect 1 there (addParents there tree)
    else return tree) tree) tree

/-- Write the entries of a tree that another one has not, and take away those it lacks. -/
def writeChanges (before after : Tree) : IO Unit := do
  for (here, entry) in after.entries.reverse do
    match entry, before.entry? here with
    | .directory, none => IO.FS.createDirAll here.path
    | .file content, some (.file old) =>
      if content != old then IO.FS.writeBinFile here.path content
    | .file content, _ =>
      IO.FS.createDirAll (Location.path here.dropLast)
      IO.FS.writeBinFile here.path content
    | .directory, some _ => pure ()
  for (here, entry) in before.entries do
    if (after.entry? here).isNone then
      match entry with
      | .file _ => IO.FS.removeFile here.path
      | .directory => IO.FS.removeDirAll here.path

def usage : String :=
  "Usage: lintloop <COMMAND>\n\nCommands:\n" ++
  "  version  Show version\n" ++
  "  run      Run one fix iteration\n" ++
  "  check    Run check commands only\n" ++
  "  match    Match files to targets\n" ++
  "  parse    Parse linter output\n"

/-- Read a stream to its end. -/
partial def readAll (stream : IO.FS.Stream) (soFar : ByteArray) : IO ByteArray := do
  let bytes ← stream.read 65536
  if bytes.isEmpty then return soFar else readAll stream (soFar ++ bytes)

/-- Carry out a command in the current directory. -/
def execute (command : Cli.Command) : IO UInt32 := do
  let color := (← IO.getEnv "NO_COLOR").isNone
  let here := locationOf (← IO.currentDir).toString
  let input ← match command with
    | .parse _ _ => readAll (← IO.getStdin) .empty
    | _ => pure .empty
  let markers ← collectMarkers here
  let root := Project.root markers here here.path
  let tree ← match command with
    | .parse _ _ => pure markers
    | .version => pure markers
    | _ => collect 64 (locationOf root) (addParents (locationOf root) markers)
  let (status, after) := command.execute color input ⟨tree, here, [], {}⟩
  writeChanges tree after.tree
  IO.print (String.ofList after.printed.out)
  IO.eprint (String.ofList after.printed.err)
  return status.toUInt32

end LintRepair.Main

open LintRepair in
/-- Read the command line and carry it out. -/
def main (arguments : List String) : IO UInt32 := do
  match Cli.parseArguments arguments with
  | .ok command => Main.execute command
  | .error .versionRequested =>
    IO.println ("lintloop " ++ Cli.version)
    return 0
  | .error .helpRequested =>
    IO.print Main.usage
    return 0
  | .error e =>
    IO.eprint (e.kind ++ "\n\n" ++ Main.usage)
    return UInt32.ofNat e.exitCode
