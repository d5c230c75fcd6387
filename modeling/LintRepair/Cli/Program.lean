import LintRepair.Cli.Arguments
import LintRepair.Config.Discovery
import LintRepair.Workspace.Basic

/-!
What each command does. A run without a usable configuration does nothing and succeeds; the other
commands need one. The exit status is 1 when lint errors remain and 2 when a command cannot be
carried out.
-/

namespace LintRepair.Cli

def version : String := "0.1.0"

def ProjectOptions.settings (p : ProjectOptions) (w : Workspace) : Project.Settings :=
  Project.settings w.tree w.directory p.repoRoot p.config p.output

/-- Print an error and give up. -/
def abort (color : Bool) (message : String) (w : Workspace) : UInt8 × Workspace :=
  (2, w.print (Terminal.labelled color .error message))

/-- The configuration, or what to say when there is none. -/
def requireConfig (s : Project.Settings) (w : Workspace) : Except String Config :=
  match s.load w.tree w.directory with
  | .ok (some c) => .ok c
  | .ok none => .error ("No lintloop configuration found under " ++ s.root ++ ".")
  | .error fault => .error fault.message

/-- Go on with the configuration, or report that there is none. -/
def withConfig (color : Bool) (s : Project.Settings) (w : Workspace)
    (act : Config → UInt8 × Workspace) : UInt8 × Workspace :=
  match requireConfig s w with
  | .ok c => act c
  | .error message => abort color message w

/-- How a run of the repair loop is to be made. -/
def runOptions (color : Bool) (s : Project.Settings) (transcript : Option String)
    (files : Option (List String)) : Workspace.Options where
  root := s.root
  files := files
  transcript := transcript.map (Files.Path.join s.root)
  quiet := s.output == "json"
  color := color

/-- Print an outcome, and tell whether errors remain. -/
def reportOutcome (color : Bool) (s : Project.Settings) (outcome : Outcome) (w : Workspace) :
    UInt8 × Workspace :=
  (if outcome.hasErrors then 1 else 0, w.print (Terminal.outcome (.ofName s.output) color outcome))

def run (color : Bool) (s : Project.Settings) (transcript : Option String)
    (files : Option (List String)) (w : Workspace) : UInt8 × Workspace :=
  match s.load w.tree w.directory with
  | .ok (some c) =>
    let (outcome, w) := (Workspace.workplace (runOptions color s transcript files)).run c w
    reportOutcome color s outcome w
  | _ => (0, w)

def checkAll {σ : Type} (runner : Runner σ) : List Target → σ → List CheckResult × σ
  | [], s => ([], s)
  | t :: targets, s =>
    let (r, s) := runner.check t s
    let (rs, s) := checkAll runner targets s
    (r :: rs, s)

/-- The targets of some files, or of those that differ from the index. -/
def targetsOf (s : Project.Settings) (files : Option (List String)) (c : Config) (w : Workspace) :
    List Target :=
  Selection.targets c.targets (files.getD (w.changedFiles s.root))

/-- Tell a reader when there is nothing to check. -/
def announce (color : Bool) (s : Project.Settings) (targets : List Target) (w : Workspace) :
    Workspace :=
  if targets.isEmpty && Terminal.Format.ofName s.output != .json then
    w.print (Terminal.labelled color .note "No lint target matches the changed files.")
  else w

/-- Print results, and tell whether there are errors. -/
def reportResults (color : Bool) (s : Project.Settings) (rs : List CheckResult) (w : Workspace) :
    UInt8 × Workspace :=
  (if rs.all CheckResult.isClean then 0 else 1,
    w.print (Terminal.results (.ofName s.output) color rs))

/-- Check the targets of the changed files, without fixing anything. -/
def check (color : Bool) (s : Project.Settings) (files : Option (List String))
    (w : Workspace) : UInt8 × Workspace :=
  withConfig color s w fun c =>
    let targets := targetsOf s files c w
    let (rs, w) := checkAll (Workspace.runner s.root) targets (announce color s targets w)
    reportResults color s rs w

def targetLine (t : Target) : List Char :=
  t.ecosystem.tag.toList ++ '\t' :: t.pattern.toList ++ ['\n']

def select (color : Bool) (s : Project.Settings) (files : List String) (w : Workspace) :
    UInt8 × Workspace :=
  withConfig color s w fun c =>
    let targets := Selection.targets c.targets files
    match Terminal.Format.ofName s.output with
    | .json => (0, w.print (Terminal.document (.array (targets.map Target.toJson))))
    | .human => (0, w.print { out := targets.flatMap targetLine })

/-- Print the diagnostics of a report on the input stream. -/
def parse (color : Bool) (ecosystem root : String) (input : ByteArray) (w : Workspace) :
    UInt8 × Workspace :=
  match String.fromUTF8? input with
  | none => abort color ("failed to read stdin: " ++ Files.Failure.notText.message) w
  | some report =>
    (0, w.print (Terminal.diagnostics (Report.taggedDiagnostics ecosystem report root)))

def Command.execute (color : Bool) (input : ByteArray) (w : Workspace) :
    Command → UInt8 × Workspace
  | .version => (0, w.print { out := Cli.version.toList ++ ['\n'] })
  | .run project transcript files => Cli.run color (project.settings w) transcript files w
  | .check project files => Cli.check color (project.settings w) files w
  | .select project files => Cli.select color (project.settings w) files w
  | .parse ecosystem root => Cli.parse color ecosystem root input w

/-- Carry out a command line. Of one that gives no command only the status is settled here. -/
def execute (color : Bool) (arguments : List String) (input : ByteArray) (w : Workspace) :
    UInt8 × Workspace :=
  match parseArguments arguments with
  | .ok command => command.execute color input w
  | .error e => (UInt8.ofNat e.exitCode, w)

end LintRepair.Cli
