import LintRepair.Config.Loading

/-!
Finding the project and its configuration. The project's root is the nearest directory, from the
start upwards, that holds a configuration file or a `.git` entry; without one it is the start
itself.
-/

namespace LintRepair

open Files (Tree Location)

namespace Config

/-- Where a configuration may stand under the root, the preferred place first. -/
def candidates : List String :=
  [".lintloop/lint-fix.json", "lintloop.toml", "lintloop.yaml", "lintloop.yml"]

/-- The preferred configuration file under a directory. -/
def find? (tree : Tree) (base : Location) (root : String) : Option String :=
  (candidates.map (Files.Path.join root)).find? (tree.isFile base)

end Config

namespace Project

def isRoot (tree : Tree) (base : Location) (directory : String) : Bool :=
  (Config.find? tree base directory).isSome ||
    tree.doesExist base (Files.Path.join directory ".git")

/-- A path and those above it, as far as a bound allows. -/
def ancestorsWithin : Nat → String → List String
  | 0, _ => []
  | bound + 1, path =>
    path :: match Files.Path.parent? path with
      | some parent => ancestorsWithin bound parent
      | none => []

/-- A path and all those above it. Every step makes the path shorter, so its length is bound
enough. -/
def ancestors (path : String) : List String := ancestorsWithin (path.length + 1) path

/-- The root of the project around a start. -/
def root (tree : Tree) (base : Location) (start : String) : String :=
  ((ancestors start).find? (isRoot tree base)).getD start

/-- Where the project is, where its configuration is, and how to report. -/
structure Settings where
  root : String
  config : Option String
  output : String
deriving DecidableEq, Repr

/-- The path of an existing file or directory without detours; any other path is left as it is. -/
def settled (tree : Tree) (base : Location) (path : String) : String :=
  match tree.find base path with
  | .ok (here, _) => here.path
  | .error _ => path

/-- Settle where the project is from what was asked for. A configuration that is named counts from
the root. -/
def settings (tree : Tree) (base : Location) (root? config? output? : Option String) : Settings :=
  let root := root tree base (settled tree base (root?.getD "."))
  let config := match config? with
    | some path => some (Files.Path.join root path)
    | none => Config.find? tree base root
  ⟨root, config, output?.getD "human"⟩

/-- Load the configuration, if there is one. -/
def Settings.load (s : Settings) (tree : Tree) (base : Location) :
    Except Config.LoadFault (Option Config) :=
  match s.config with
  | some path => (Config.load tree base path).map some
  | none => .ok none

end Project

end LintRepair
