import LintRepair.Shell.Raw

/-!
Shell scripts as trees. A word keeps its pieces in the order they are written, each with the
information whether quotes stand around it, because what a piece becomes is decided only when the
script runs.
-/

namespace LintRepair.Shell

/-- What is done with the value of a parameter. `unknown` is a form that no shell understands; it is
refused when it is reached, not when it is read. -/
inductive Operation where
  | value
  | length
  | otherwise
  | assigned
  | demanded
  | instead
  | withoutEnd (longest : Bool)
  | withoutStart (longest : Bool)
  | unknown
deriving DecidableEq, Repr

/-- How a redirection opens its file. -/
inductive Opening where
  | read
  | readWrite
  | write
  | overwrite
  | append
deriving DecidableEq, Repr

mutual

/-- A piece of a word. A quoted text without characters is what is left of a pair of quotes: it
keeps a word alive that has nothing else. -/
inductive Piece where
  | text (text : Raw) (quoted : Bool)
  | parameter (name : Raw) (operation : Operation) (orEmpty : Bool) (argument : List Piece)
      (quoted : Bool)
  | output (script : Script) (quoted : Bool)
  | number (expression : List Piece) (quoted : Bool)

/-- What happens to a stream before a command runs. The text of a document is kept beside the
script, by number, because it is only read after the line that mentions it. -/
inductive Redirection where
  | file (stream : Nat) (opening : Opening) (path : List Piece)
  | copy (stream : Nat) (source : List Piece)
  | document (stream : Nat) (number : Nat)

/-- A script. Commands that report errors keep the line they stand on. -/
inductive Script where
  | empty
  | command (line : Nat) (assignments : List (Raw × List Piece)) (words : List (List Piece))
      (redirections : List Redirection)
  | both (first second : Script)
  | andThen (first second : Script)
  | orElse (first second : Script)
  | negated (script : Script)
  | piped (scripts : List Script)
  | background (script : Script)
  | conditional (test yes no : Script)
  | loop (goal : Bool) (test body : Script)
  | each (line : Nat) (name : Raw) (words : List (List Piece)) (body : Script)
  | choice (line : Nat) (word : List Piece) (cases : List (List (List Piece) × Script))
  | define (line : Nat) (name : Raw) (body : Script)
  | redirected (line : Nat) (script : Script) (redirections : List Redirection)
  | subshell (line : Nat) (script : Script) (redirections : List Redirection)

end

abbrev Word := List Piece

instance : Inhabited Script := ⟨.empty⟩

namespace Word

/-- Put a piece behind others; text joins text. The pieces are in reverse order. -/
def push (pieces : Word) (p : Piece) : Word :=
  match p, pieces with
  | .text s q, .text t r :: rest => if q == r then .text (t ++ s) q :: rest else p :: pieces
  | _, _ => p :: pieces

/-- The characters of a word that takes no part of anything else, without the quotes. -/
def plainText (w : Word) : Raw :=
  w.flatMap fun
    | .text s _ => s
    | _ => []

def bareText? : Word → Option Raw
  | [.text s false] => some s
  | _ => none

/-- The name and the value of a word that assigns one. -/
def assignment? : Word → Option (Raw × Word)
  | .text s false :: rest =>
    let name := nameAtFront s
    match s.drop name.length with
    | '=' :: value =>
      if name.isEmpty then none
      else some (name, if value.isEmpty then rest else .text value false :: rest)
    | _ => none
  | _ => none

/-- The word for all positional parameters, each in a field of its own. -/
def allPositional : Word := [.parameter ['@'] .value false [] true]

end Word

end LintRepair.Shell
