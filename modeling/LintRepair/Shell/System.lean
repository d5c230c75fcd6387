import LintRepair.Shell.Catalogue

/-!
What is on every system before anyone adds to it: directories, and the programs in them.
-/

namespace LintRepair.Shell

open Files (Tree)

/-- The directories of a system, by the names that lead to them. -/
def systemDirectories : List (List String) :=
  [["bin"], ["dev"], ["etc"], ["home"], ["lib"], ["mnt"], ["opt"], ["proc"], ["root"], ["run"],
    ["sbin"], ["srv"], ["sys"], ["tmp"], ["usr"], ["usr", "bin"], ["usr", "lib"], ["usr", "local"],
    ["usr", "local", "bin"], ["usr", "sbin"], ["usr", "share"], ["var"], ["var", "tmp"]]

def systemPrograms : List String := Tool.table.map (·.1) ++ Tool.scripted

/-- The files of a system. What is in a program does not matter, as long as there is something. -/
def systemTree : Tree :=
  let directories := systemDirectories.foldl (fun tree here => tree.put here .directory) Tree.empty
  systemPrograms.foldl (fun tree name =>
    [["bin", name], ["usr", "bin", name]].foldl (fun tree here =>
      (tree.put here (.file (Raw.toBytes ['\x7f']))).setRunnable here true) tree) directories

end LintRepair.Shell
