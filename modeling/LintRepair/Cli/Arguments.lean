/-!
Command lines. A command is named by its first word and has options only; an option takes one value,
or, where it may list several, every following word up to the next one with a dash. Words are read
from left to right and the first fault counts; options that are missing are noticed last.
-/

namespace LintRepair.Cli

/-- What tells where the project is and how to report on it. -/
structure ProjectOptions where
  repoRoot : Option String
  config : Option String
  output : Option String
deriving DecidableEq, Repr

/-- A command with its options. -/
inductive Command where
  | version
  | run (project : ProjectOptions) (transcript : Option String) (files : Option (List String))
  | check (project : ProjectOptions) (files : Option (List String))
  | select (project : ProjectOptions) (files : List String)
  | parse (ecosystem rootDir : String)
deriving DecidableEq, Repr

/-- Why a command line gives no command. The first two are requests, not mistakes. -/
inductive UsageError where
  | helpRequested
  | versionRequested
  | nothingGiven
  | invalidCommand
  | unknownArgument
  | invalidValue
  | repeatedOption
  | missingOption
  | unneededValue
deriving DecidableEq, Repr

def UsageError.kind : UsageError → String
  | .helpRequested => "DisplayHelp"
  | .versionRequested => "DisplayVersion"
  | .nothingGiven => "DisplayHelpOnMissingArgumentOrSubcommand"
  | .invalidCommand => "InvalidSubcommand"
  | .unknownArgument => "UnknownArgument"
  | .invalidValue => "InvalidValue"
  | .repeatedOption => "ArgumentConflict"
  | .missingOption => "MissingRequiredArgument"
  | .unneededValue => "TooManyValues"

/-- The exit status that goes with an error. -/
def UsageError.exitCode : UsageError → Nat
  | .helpRequested => 0
  | .versionRequested => 0
  | _ => 2

/-- The commands. -/
inductive Verb where
  | version
  | run
  | check
  | select
  | parse
deriving DecidableEq, Repr

def Verb.word : Verb → String
  | .version => "version"
  | .run => "run"
  | .check => "check"
  | .select => "match"
  | .parse => "parse"

def Verb.all : List Verb := [.version, .run, .check, .select, .parse]

def Verb.ofWord? (w : String) : Option Verb := Verb.all.find? fun v => v.word == w

/-- The options. -/
inductive Opt where
  | repoRoot
  | config
  | output
  | transcript
  | files
  | ecosystem
  | rootDir
deriving DecidableEq, Repr

/-- The name of an option, without its dashes. -/
def Opt.name : Opt → String
  | .repoRoot => "repo-root"
  | .config => "config"
  | .output => "output"
  | .transcript => "transcript"
  | .files => "files"
  | .ecosystem => "ecosystem"
  | .rootDir => "root-dir"

/-- Whether an option may list several values and may be repeated. -/
def Opt.many : Opt → Bool
  | .files => true
  | _ => false

def Verb.options : Verb → List Opt
  | .version => []
  | .run => [.repoRoot, .config, .output, .transcript, .files]
  | .check => [.repoRoot, .config, .output, .files]
  | .select => [.repoRoot, .config, .output, .files]
  | .parse => [.ecosystem, .rootDir]

/-- The values given so far, in the order of the options they came with. -/
abbrev Given := List (Opt × List String)

/-- All values of an option, if it was given. -/
def Given.values? (given : Given) (o : Opt) : Option (List String) :=
  match given.filter fun (p, _) => p == o with
  | [] => none
  | entries => some (entries.flatMap Prod.snd)

def Given.value? (given : Given) (o : Opt) : Option String := (given.values? o).bind List.head?

/-- Close an option: it must have a value, and only a list may be given again. -/
def Given.add (given : Given) (o : Opt) (values : List String) : Except UsageError Given :=
  if values.isEmpty then .error .invalidValue
  else if o.many then .ok (given ++ [(o, values)])
  else if (given.values? o).isSome then .error .repeatedOption
  else .ok (given ++ [(o, values)])

/-- Close the option that is still open, if there is one. -/
def Given.close (given : Given) : Option (Opt × List String) → Except UsageError Given
  | none => .ok given
  | some (o, values) => given.add o values

/-- A word in its role. -/
inductive Word where
  | terminator
  | long (name : String) (value : Option String)
  | short (letter : Char)
  | plain (text : String)
deriving DecidableEq, Repr

/-- Name and attached value of a long option. -/
def splitEquals : List Char → List Char × Option (List Char)
  | [] => ([], none)
  | c :: rest =>
    if c = '=' then ([], some rest)
    else
      let (name, value) := splitEquals rest
      (c :: name, value)

/-- The role of a word by its dashes; a single dash is a value. -/
def Word.of (w : String) : Word :=
  match w.toList with
  | ['-', '-'] => .terminator
  | '-' :: '-' :: rest =>
    let (name, value) := splitEquals rest
    .long (String.ofList name) (value.map String.ofList)
  | '-' :: c :: _ => .short c
  | _ => .plain w

/-- Read the words after a command. `pending` is the option that is still open, with its values so
far. -/
def readOptions (options : List Opt) :
    Given → Option (Opt × List String) → List String → Except UsageError Given
  | given, pending, [] => given.close pending
  | given, pending, w :: words =>
    match Word.of w with
    | .terminator => if words.isEmpty then given.close pending else .error .unknownArgument
    | .short c => if c = 'h' then given.close pending >>= fun _ => .error .helpRequested
      else .error .unknownArgument
    | .long name value =>
      if name = "help" then
        match value with
        | some _ => .error .unneededValue
        | none => given.close pending >>= fun _ => .error .helpRequested
      else
        match options.find? fun o => o.name == name with
        | none => .error .unknownArgument
        | some o =>
          match given.close pending with
          | .error e => .error e
          | .ok given =>
            match value with
            | none => readOptions options given (some (o, [])) words
            | some v =>
              match given.add o [v] with
              | .error e => .error e
              | .ok given => readOptions options given none words
    | .plain v =>
      match pending with
      | some (o, values) =>
        if o.many || values.isEmpty then
          readOptions options given (some (o, values ++ [v])) words
        else .error .unknownArgument
      | none => .error .unknownArgument

/-- The project options among the values given. -/
def Given.project (given : Given) : ProjectOptions :=
  ⟨given.value? .repoRoot, given.value? .config, given.value? .output⟩

def Verb.build (given : Given) : Verb → Except UsageError Command
  | .version => .ok .version
  | .run => .ok (.run given.project (given.value? .transcript) (given.values? .files))
  | .check => .ok (.check given.project (given.values? .files))
  | .select =>
    match given.values? .files with
    | some files => .ok (.select given.project files)
    | none => .error .missingOption
  | .parse =>
    match given.value? .ecosystem with
    | some e => .ok (.parse e ((given.value? .rootDir).getD ""))
    | none => .error .missingOption

/-- What the words after `help` ask for: help on a command, or on help itself. -/
def readHelp : List String → UsageError
  | [] => .helpRequested
  | [w] => if w = "help" ∨ (Verb.ofWord? w).isSome then .helpRequested else .invalidCommand
  | _ => .invalidCommand

/-- A first word that names no command. -/
def readStray (w : String) (words : List String) : UsageError :=
  match Word.of w with
  | .terminator =>
    match words with
    | [] => .nothingGiven
    | next :: _ =>
      if next = "help" ∨ (Verb.ofWord? next).isSome then .unknownArgument else .invalidCommand
  | .short c =>
    if c = 'h' then .helpRequested else if c = 'V' then .versionRequested else .unknownArgument
  | .long name value =>
    if name = "help" then if value.isSome then .unneededValue else .helpRequested
    else if name = "version" then if value.isSome then .unneededValue else .versionRequested
    else .unknownArgument
  | .plain _ => .invalidCommand

/-- The command that a command line gives. -/
def parseArguments : List String → Except UsageError Command
  | [] => .error .nothingGiven
  | w :: words =>
    match Verb.ofWord? w with
    | some verb => do
      let given ← readOptions verb.options [] none words
      verb.build given
    | none => .error (if w = "help" then readHelp words else readStray w words)

end LintRepair.Cli
