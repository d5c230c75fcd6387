import LintRepair.Files.Tree
import LintRepair.Repair.Conversation

/-!
Conversations in files. A missing or blank file is an empty conversation. Appending reads the whole
conversation again, so that nothing written in the meantime is lost, and writes it anew.
-/

namespace LintRepair

open Files (Tree Location Failure)

namespace Transcript

/-- Why a transcript cannot be read or written. -/
inductive Fault where
  | reading (path : String) (cause : Failure)
  | parsing (path text : String) (cause : Json.Fault)
  | creating (path : String) (cause : Failure)
  | writing (path : String) (cause : Failure)

def Fault.message : Fault → String
  | .reading path cause => "reading transcript " ++ path ++ ": " ++ cause.message
  | .parsing path text cause => "parsing transcript " ++ path ++ ": " ++ cause.message text.toList
  | .creating path cause => "creating " ++ path ++ ": " ++ cause.message
  | .writing path cause => "writing transcript " ++ path ++ ": " ++ cause.message

/-- The conversation that a file's text holds. -/
def parse (path text : String) : Except Fault Conversation :=
  if Text.isBlankText text then .ok []
  else
    match Conversation.parse text with
    | .ok c => .ok c
    | .error cause => .error (.parsing path text cause)

def read (tree : Tree) (base : Location) (path : String) : Except Fault Conversation :=
  if tree.doesExist base path then
    match tree.readText base path with
    | .ok text => parse path text
    | .error cause => .error (.reading path cause)
  else .ok []

def text (c : Conversation) : String := Json.prettyText (Conversation.toJson c)

/-- Make the directory that a transcript is to stand in. -/
def makeParent (tree : Tree) (base : Location) (path : String) : Option Fault × Tree :=
  match Files.Path.parent? path with
  | none => (none, tree)
  | some parent =>
    let (cause, tree) := tree.makeAll base parent
    (cause.map (Fault.creating parent), tree)

/-- Append a message. Gives the fault, if there was one, and the files afterwards; directories that
were made for the transcript stay. -/
def append (tree : Tree) (base : Location) (path : String) (m : Message) : Option Fault × Tree :=
  match read tree base path with
  | .error fault => (some fault, tree)
  | .ok c =>
    match makeParent tree base path with
    | (some fault, tree) => (some fault, tree)
    | (none, tree) =>
      match tree.write base path (text (c ++ [m])).toUTF8 with
      | .error cause => (some (.writing path cause), tree)
      | .ok tree => (none, tree)

end Transcript

end LintRepair
