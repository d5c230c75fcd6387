import LintRepair.Shell.Token

/-!
Where the reading of a script stands. A script is read character by character, because what a
character means depends on what is open around it, and because the line a complaint names is the
line that has been reached.
-/

namespace LintRepair.Shell

/-- Why a script cannot be read, and the line where that was noticed. -/
structure SyntaxFault where
  line : Nat
  reason : String
deriving DecidableEq, Repr

namespace SyntaxFault

def text (f : SyntaxFault) : String := "Syntax error: " ++ f.reason

end SyntaxFault

/-- The kinds of redirections, before their words are read. -/
inductive RedirectionKind where
  | file (opening : Opening)
  | copy
  | document (stripTabs : Bool)
deriving DecidableEq, Repr

/-- A document whose text stands on the lines after this one. -/
structure PendingDocument where
  number : Nat
  endMark : Raw
  stripTabs : Bool
  expanded : Bool

/-- What is to be looked at when the next token is read: whether line ends are passed over, whether
keywords and aliases count, and whether it is the end mark of a document. -/
structure Expecting where
  passLines : Bool := false
  keywords : Bool := false
  aliases : Bool := false
  endMark : Bool := false

namespace Expecting

/-- A place where a command may begin. -/
def command : Expecting := { keywords := true, aliases := true }

/-- A place where a command may begin, perhaps on a later line. -/
def commandBelow : Expecting := { passLines := true, keywords := true, aliases := true }

end Expecting

/-- The state of reading: the text that is left, the line reached, the last token with what is known
of it, and the documents met so far. An alias is not replaced inside its own text, so `replaced`
keeps the aliases being read with the length of the text behind them. -/
structure Reading where
  rest : Raw
  bound : Nat
  line : Nat := 1
  held : Bool := false
  token : Token := .newline
  expecting : Expecting := {}
  word : Word := []
  isQuoted : Bool := false
  stream : Option Nat := none
  kind : RedirectionKind := .copy
  pending : List PendingDocument := []
  documents : List (Nat × Word) := []
  announced : Nat := 0
  aliases : List (Raw × Raw) := []
  replaced : List (Raw × Nat) := []

abbrev Reader := StateT Reading (Except SyntaxFault)

namespace Reader

def refuse {α : Type} (reason : String) : Reader α := do throw ⟨(← get).line, reason⟩

/-- The most bytes of a reason that are shown. -/
def reasonLimit : Nat := 63

/-- Give up because of the last token. -/
def unexpected {α : Type} (wanted : Option Token := none) : Reader α := do
  let found := (← get).token.name ++ " unexpected"
  let reason := match wanted with
    | some token => found ++ " (expecting " ++ token.name ++ ")"
    | none => found
  refuse (String.ofList (reason.toList.take reasonLimit))

def skip (count : Nat) : Reader Unit := modify fun r => { r with rest := r.rest.drop count }

def countLine : Reader Unit := modify fun r => { r with line := r.line + 1 }

/-- Join lines whose ends are escaped. -/
def joinLines : Nat → Reader Unit
  | 0 => pure ()
  | bound + 1 => do
    match (← get).rest with
    | '\\' :: '\n' :: rest =>
      modify fun r => { r with rest := rest, line := r.line + 1 }
      joinLines bound
    | _ => pure ()

/-- The next character, which stays where it is. -/
def peek : Reader (Option Char) := do return (← get).rest.head?

/-- The next character behind escaped line ends, which stays where it is. -/
def peekJoined : Reader (Option Char) := do
  joinLines (← get).bound
  peek

/-- Take the next character, if it is the given one. -/
def take? (c : Char) : Reader Bool := do
  if (← peekJoined) = some c then
    skip 1
    return true
  else return false

def settle (token : Token) : Reader Token := do
  modify fun r => { r with token := token }
  return token

/-- Have the last token read once more. -/
def hold : Reader Unit := modify fun r => { r with held := true }

/-- Say what is to be looked at in the next token. -/
def expect (e : Expecting) : Reader Unit := modify fun r => { r with expecting := e }

end Reader

end LintRepair.Shell
