import LintRepair.Shell.WordReader

/-!
Reading scripts. The main function reads the commands of a line; a script is carried out line by
line, so what stands above a fault has run when the fault is noticed.
-/

namespace LintRepair.Shell

/-- Commands of the shell itself whose names no function may have: their errors end the shell, and
assignments before them stay. -/
def specialNames : List String :=
  [".", ":", "break", "continue", "eval", "exec", "exit", "export", "local", "readonly", "return",
    "set", "shift", "times", "trap", "unset"]

namespace Reader

/-- Pass over the rest of a line. -/
def skipComment : Reader Unit :=
  modify fun r => { r with rest := r.rest.dropWhile (· != '\n') }

/-- A token, whatever it means where it stands. -/
def plainToken (scripts : ScriptReader) : Nat → Reader Token
  | 0 => settle .endOfFile
  | bound + 1 => do
    if (← get).held then
      modify fun r => { r with held := false }
      return (← get).token
    match ← peekJoined with
    | none => settle .endOfFile
    | some ' ' | some '\t' =>
      skip 1
      plainToken scripts bound
    | some '#' =>
      skipComment
      plainToken scripts bound
    | some '\n' =>
      skip 1
      countLine
      settle .newline
    | some '&' =>
      skip 1
      if ← take? '&' then settle .andThen else settle .ampersand
    | some '|' =>
      skip 1
      if ← take? '|' then settle .orElse else settle .pipe
    | some ';' =>
      skip 1
      if ← take? ';' then settle .endCase else settle .semicolon
    | some '(' =>
      skip 1
      settle .openGroup
    | some ')' =>
      skip 1
      settle .closeGroup
    | some _ => wordToken scripts

/-- Pass over line ends, and read the documents that they announce. -/
def passLines (scripts : ScriptReader) : Nat → Token → Reader Token
  | 0, token => pure token
  | bound + 1, token => do
    if token == .newline then
      readDocuments scripts
      expect {}
      passLines scripts bound (← plainToken scripts bound)
    else return token

/-- Forget the aliases whose text has been read. After one that ends in a blank the next word may be
an alias too. -/
def leaveAliases : Reader Bool := do
  let r ← get
  let (inside, left) := r.replaced.partition fun (_, after) => after < r.rest.length
  set { r with replaced := inside }
  return left.any fun (name, _) =>
    match (r.aliases.lookup name).bind List.getLast? with
    | some c => c == ' ' || c == '\t'
    | none => false

/-- The text of the alias that the last word is. -/
def alias? : Reader (Option (Raw × Raw)) := do
  let r ← get
  match r.word.bareText? with
  | some name =>
    if r.replaced.any (·.1 == name) then return none
    else return (r.aliases.lookup name).map fun text => (name, text)
  | none => return none

/-- A token, with keywords and aliases where they count. -/
def token (scripts : ScriptReader) : Nat → Reader Token
  | 0 => settle .endOfFile
  | bound + 1 => do
    let expecting := (← get).expecting
    let first ← plainToken scripts bound
    let t ← if expecting.passLines then passLines scripts bound first else pure first
    let later := (← get).expecting
    let keywords := expecting.keywords || later.keywords
    let aliases := expecting.aliases || later.aliases
    expect {}
    let r ← get
    if t != .word || r.isQuoted then return t
    match if keywords then r.word.bareText?.bind Keyword.ofText? else none with
    | some k => settle (.keyword k)
    | none =>
      let more ← leaveAliases
      if !aliases && !more then return t
      match ← alias? with
      | none => return t
      | some (name, text) =>
        modify fun r => { r with
          rest := text ++ r.rest
          bound := r.bound + text.length
          replaced := (name, r.rest.length) :: r.replaced }
        expect expecting
        token scripts bound

def next (scripts : ScriptReader) : Reader Token := do token scripts ((← get).bound + 2)

/-- The next token, which has to be the given one. -/
def demand (scripts : ScriptReader) (wanted : Token) : Reader Unit := do
  if (← next scripts) != wanted then unexpected (some wanted)

def redirection (scripts : ScriptReader) : Reader Redirection := do
  let r ← get
  let kind := r.kind
  let stream := r.stream.getD 0
  match kind with
  | .document _ => expect { endMark := true }
  | _ => pure ()
  if (← next scripts) != .word then unexpected
  let word := (← get).word
  match kind with
  | .file opening => return .file stream opening word
  | .copy => return .copy stream word
  | .document stripTabs =>
    let r ← get
    let document := ⟨r.announced, word.plainText, stripTabs, !r.isQuoted⟩
    set { r with pending := r.pending ++ [document], announced := r.announced + 1 }
    return .document stream r.announced

/-- The words, assignments and redirections of a command; the token behind them is held. -/
structure Parts where
  assignments : List (Raw × Word) := []
  words : List Word := []
  redirections : List Redirection := []

/-- The definition of a function after its name and an opening parenthesis. -/
def definition (scripts : ScriptReader) (command : Reader Script) (name : Word) :
    Reader Script := do
  demand scripts .closeGroup
  match name.bareText? with
  | some text =>
    if isName text && !specialNames.any (·.toList == text) then
      expect .commandBelow
      let line := (← get).line
      return .define line text (← command)
    else refuse "Bad function name"
  | none => refuse "Bad function name"

/-- A command that is no compound command. Words that assign count as such only in front. -/
def simpleCommand (scripts : ScriptReader) (command : Reader Script) (line : Nat) :
    Nat → Bool → Parts → Reader Script
  | 0, _, _ => unexpected
  | bound + 1, inFront, parts => do
    expect { aliases := inFront }
    match ← next scripts with
    | .word =>
      let word := (← get).word
      match if inFront then word.assignment? else none with
      | some a =>
        simpleCommand scripts command line bound true
          { parts with assignments := parts.assignments ++ [a] }
      | none =>
        simpleCommand scripts command line bound false { parts with words := parts.words ++ [word] }
    | .redirection =>
      let r ← redirection scripts
      simpleCommand scripts command line bound inFront
        { parts with redirections := parts.redirections ++ [r] }
    | .openGroup =>
      match parts with
      | ⟨[], [name], []⟩ => definition scripts command name
      | _ =>
        hold
        return .command line parts.assignments parts.words parts.redirections
    | _ =>
      hold
      return .command line parts.assignments parts.words parts.redirections

/-- The commands inside a compound command. -/
def body (scripts : ScriptReader) : Reader Script := do return (← scripts .inner).getD .empty

/-- A condition after its first keyword, up to the closing one. -/
def conditional (scripts : ScriptReader) : Nat → Reader Script
  | 0 => unexpected
  | bound + 1 => do
    let test ← body scripts
    demand scripts (.keyword .thenThe)
    let yes ← body scripts
    match ← next scripts with
    | .keyword .elseIf => return .conditional test yes (← conditional scripts bound)
    | .keyword .elseThen =>
      let no ← body scripts
      demand scripts (.keyword .fi)
      return .conditional test yes no
    | .keyword .fi => return .conditional test yes .empty
    | _ => unexpected (some (.keyword .fi))

/-- A loop over a condition after its keyword. -/
def loop (scripts : ScriptReader) (goal : Bool) : Reader Script := do
  let test ← body scripts
  demand scripts (.keyword .doThe)
  let repeated ← body scripts
  demand scripts (.keyword .done)
  return .loop goal test repeated

/-- Words up to a token of another kind. -/
def words (scripts : ScriptReader) : Nat → List Word → Reader (List Word)
  | 0, taken => pure taken.reverse
  | bound + 1, taken => do
    match ← next scripts with
    | .word => words scripts bound ((← get).word :: taken)
    | _ => return taken.reverse

/-- A loop over words after its keyword. Without a list it goes over the positional parameters. -/
def each (scripts : ScriptReader) (line : Nat) : Reader Script := do
  let t ← next scripts
  let name := ((← get).word.bareText?).getD []
  if t != .word || (← get).isQuoted || !isName name then refuse "Bad for loop variable"
  expect .commandBelow
  let t ← next scripts
  let items ← if t == .keyword .inThe then
      let items ← words scripts (← get).bound []
      let t := (← get).token
      if t != .newline && t != .semicolon then unexpected
      pure items
    else
      if t != .semicolon then hold
      pure [Word.allPositional]
  expect .commandBelow
  demand scripts (.keyword .doThe)
  let repeated ← body scripts
  demand scripts (.keyword .done)
  return .each line name items repeated

/-- The patterns of a case, up to the closing parenthesis. -/
def patterns (scripts : ScriptReader) : Nat → List Word → Reader (List Word)
  | 0, taken => pure taken.reverse
  | bound + 1, taken => do
    let taken := (← get).word :: taken
    if (← next scripts) == .pipe then
      let _ ← next scripts
      patterns scripts bound taken
    else
      if (← get).token != .closeGroup then unexpected (some .closeGroup)
      return taken.reverse

def cases (scripts : ScriptReader) : Nat → List (List Word × Script) →
    Reader (List (List Word × Script))
  | 0, _ => unexpected
  | bound + 1, taken => do
    expect { passLines := true, keywords := true }
    match ← next scripts with
    | .keyword .esac => return taken.reverse
    | t =>
      if t == .openGroup then
        let _ ← next scripts
      let ps ← patterns scripts (← get).bound []
      let script := (← scripts .case).getD .empty
      expect { passLines := true, keywords := true }
      match ← next scripts with
      | .keyword .esac => return ((ps, script) :: taken).reverse
      | .endCase => cases scripts bound ((ps, script) :: taken)
      | _ => unexpected (some .endCase)

def choice (scripts : ScriptReader) (line : Nat) : Reader Script := do
  demand scripts .word
  let word := (← get).word
  expect .commandBelow
  demand scripts (.keyword .inThe)
  return .choice line word (← cases scripts (← get).bound [])

/-- The redirections behind a compound command. -/
def redirections (scripts : ScriptReader) : Nat → List Redirection → Reader (List Redirection)
  | 0, taken => pure taken.reverse
  | bound + 1, taken => do
    if (← next scripts) == .redirection then
      redirections scripts bound ((← redirection scripts) :: taken)
    else
      hold
      return taken.reverse

/-- A compound command with the redirections behind it. -/
def redirected (scripts : ScriptReader) (line : Nat) (script : Script) : Reader Script := do
  expect .command
  let rs ← redirections scripts (← get).bound []
  if rs.isEmpty then return script else return .redirected line script rs

/-- A command, simple or compound. -/
def command (scripts : ScriptReader) : Nat → Reader Script
  | 0 => unexpected
  | bound + 1 => do
    let line := (← get).line
    match ← next scripts with
    | .keyword .ifThe => redirected scripts line (← conditional scripts (← get).bound)
    | .keyword .whileThe => redirected scripts line (← loop scripts true)
    | .keyword .untilThe => redirected scripts line (← loop scripts false)
    | .keyword .forEach => redirected scripts line (← each scripts line)
    | .keyword .caseOf => redirected scripts line (← choice scripts line)
    | .openGroup =>
      let script ← body scripts
      demand scripts .closeGroup
      expect .command
      return .subshell line script (← redirections scripts (← get).bound [])
    | .keyword .open =>
      let script ← body scripts
      demand scripts (.keyword .close)
      redirected scripts line script
    | .word | .redirection =>
      let line := (← get).line
      hold
      simpleCommand scripts (command scripts bound) line (← get).bound true {}
    | _ => unexpected

/-- Commands joined by pipes, after the first. -/
def piped (scripts : ScriptReader) : Nat → List Script → Reader (List Script)
  | 0, taken => pure taken.reverse
  | bound + 1, taken => do
    if (← next scripts) == .pipe then
      expect .commandBelow
      let script ← command scripts (← get).bound
      piped scripts bound (script :: taken)
    else
      hold
      return taken.reverse

/-- Commands joined by pipes, perhaps with their status turned around. -/
def pipeline (scripts : ScriptReader) : Reader Script := do
  let negated := (← next scripts) == .keyword .not
  if negated then expect .command else hold
  let first ← command scripts (← get).bound
  let all ← piped scripts (← get).bound [first]
  let script := match all with
    | [one] => one
    | many => .piped many
  return if negated then .negated script else script

/-- Pipelines joined by conditions on the status of the ones before. -/
def conjoined (scripts : ScriptReader) : Nat → Script → Reader Script
  | 0, first => pure first
  | bound + 1, first => do
    let t ← next scripts
    if t == .andThen || t == .orElse then
      expect .commandBelow
      let second ← pipeline scripts
      conjoined scripts bound (if t == .andThen then .andThen first second
        else .orElse first second)
    else
      hold
      return first

/-- Two scripts one after the other; nothing in front of a script is nothing. -/
def sequence (first : Option Script) (second : Script) : Script :=
  match first with
  | some first => .both first second
  | none => second

/-- Commands joined by separators, in the given extent. -/
def commands (scripts : ScriptReader) (extent : Extent) : Nat → Bool → Option Script →
    Reader (Option Script)
  | 0, _, _ => unexpected
  | bound + 1, mayEnd, taken => do
    expect { Expecting.command with passLines := extent != .line }
    match ← next scripts with
    | .newline =>
      readDocuments scripts
      return some (taken.getD .empty)
    | .endOfFile => atEnd taken
    | t =>
      hold
      if mayEnd && extent != .line && t.closes then return taken
      let script ← conjoined scripts (← get).bound (← pipeline scripts)
      let separator ← next scripts
      let taken := sequence taken (if separator == .ampersand then .background script else script)
      match separator with
      | .endOfFile => atEnd (some taken)
      | .newline =>
        hold
        commands scripts extent bound true (some taken)
      | .ampersand | .semicolon => commands scripts extent bound true (some taken)
      | _ =>
        if extent == .line then unexpected
        hold
        return some taken
where
  /-- The end of the text: documents that are still to come have none. -/
  atEnd (taken : Option Script) : Reader (Option Script) := do
    readDocuments scripts
    hold
    let _ ← settle .endOfFile
    return taken

def level (scripts : ScriptReader) : ScriptReader := fun extent => do
  let mayEnd := extent == .case || extent == .text || extent == .output
  let script ← commands scripts extent (← get).bound mayEnd none
  if extent == .output then
    demand scripts .closeGroup
    let r ← get
    set { r with rest := [] }
    readDocuments scripts
    modify fun s => { s with rest := r.rest }
  return script

/-- Commands, nested up to a depth. -/
def scripts : Nat → ScriptReader
  | 0, _ => unexpected
  | depth + 1, extent => level (scripts depth) extent

end Reader

namespace Reading

/-- Before the first character of a text. -/
def start (text : Raw) (aliases : List (Raw × Raw)) (documents : List (Nat × Word)) : Reading :=
  { rest := text
    bound := 2 * text.length + 8
    aliases := aliases
    documents := documents
    announced := documents.length }

/-- The commands of the next line, and where the reading stands after it. Without commands the text
has ended. -/
def nextLine (r : Reading) : Except SyntaxFault (Option Script × Reading) :=
  (Reader.scripts r.bound .line).run { r with held := false, expecting := {}, pending := [] }

end Reading

end LintRepair.Shell
