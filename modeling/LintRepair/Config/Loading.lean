import LintRepair.Config.FromToml
import LintRepair.Config.FromYaml
import LintRepair.Files.Tree

/-!
Loading configurations. The extension of a file decides about its format; a text that can be read is
then validated.
-/

namespace LintRepair.Config

/-- The formats of configuration files. -/
inductive Format where
  | json
  | toml
  | yaml
deriving DecidableEq, Repr

/-- The format of a file; what is not recognised is JSON. -/
def Format.ofPath (path : String) : Format :=
  match Files.Path.extension? path with
  | some "toml" => .toml
  | some "yaml" => .yaml
  | some "yml" => .yaml
  | _ => .json

/-- Why a configuration cannot be used. -/
inductive LoadFault where
  | unreadable (path : String) (cause : Files.Failure)
  | badJson (path text : String) (fault : Json.Fault)
  | badToml (path : String)
  | badYaml (path : String)
  | faulty (fault : Config.Fault)

def LoadFault.message : LoadFault → String
  | .unreadable path cause => "cannot read " ++ path ++ ": " ++ cause.message
  | .badJson path text fault => "invalid JSON in " ++ path ++ ": " ++ fault.message text.toList
  | .badToml path => "invalid TOML in " ++ path
  | .badYaml path => "invalid YAML in " ++ path
  | .faulty fault => fault.message

/-- Read a configuration in the format that a path asks for, without validation. -/
def decode (path text : String) : Except LoadFault Config :=
  match Format.ofPath path with
  | .json =>
    match Json.finish Config.reader text.toList with
    | .ok c => .ok c
    | .error fault => .error (.badJson path text fault)
  | .toml =>
    match Toml.parseConfig text.toList with
    | some c => .ok c
    | none => .error (.badToml path)
  | .yaml =>
    match Yaml.parseConfig text.toList with
    | some c => .ok c
    | none => .error (.badYaml path)

/-- The configuration itself, unless it is faulty. -/
def validated (c : Config) : Except LoadFault Config :=
  match c.fault? with
  | some fault => .error (.faulty fault)
  | none => .ok c

/-- Read and validate a configuration in the format that a path asks for. -/
def parse (path text : String) : Except LoadFault Config := decode path text >>= validated

def load (tree : Files.Tree) (base : Files.Location) (path : String) : Except LoadFault Config :=
  match tree.readText base path with
  | .ok text => parse path text
  | .error cause => .error (.unreadable path cause)

end LintRepair.Config
