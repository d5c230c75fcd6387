import LintRepair.Shell.Regular.Matching

/-!
Scripts that edit a text line by line. A script is a list of steps; each has a condition on the line
it is for and an action. Blocks and jumps lead to places in the list.
-/

namespace LintRepair.Shell

/-- An expression in an editing script. One that is left out stands for the one used last. -/
structure EditPattern where
  regular : Option Regular
  ignoresCase : Bool := false
  manyLines : Bool := false

/-- A condition on a line. -/
inductive LineTest where
  | number (n : Nat)
  | every (first step : Nat)
  | last
  | matching (pattern : EditPattern)

/-- Where a range of lines ends. -/
inductive RangeEnd where
  | test (t : LineTest)
  | after (count : Nat)
  | multiple (n : Nat)

/-- The lines that a step is for: all, those with a property, or ranges. -/
structure LineChoice where
  first : Option LineTest := none
  last : Option RangeEnd := none
  negated : Bool := false

/-- How letters are changed in a replacement: all that follow or just the next one. -/
inductive LetterCase where
  | upper
  | lower
  | nextUpper
  | nextLower
  | plain
deriving DecidableEq, Repr

inductive ReplacementPart where
  | text (s : Raw)
  | group (number : Nat)
  | letters (change : LetterCase)

/-- A substitution: from which match on it takes place, and whether for all further ones too. -/
structure Substitution where
  pattern : EditPattern
  replacement : List ReplacementPart
  number : Nat := 1
  global : Bool := false
  prints : Bool := false
  target : Option Raw := none

/-- When a jump takes place. -/
inductive JumpTime where
  | always
  | replaced
  | notReplaced
deriving DecidableEq, Repr

/-- What a step does. A block leads to the step behind its end if it is not entered; a jump without
a place leads to the end of the script. -/
inductive EditAction where
  | nothing
  | block (behind : Nat)
  | jump (time : JumpTime) (place : Option Nat)
  | append (text : Raw)
  | insert (text : Raw)
  | change (text : Raw)
  | delete
  | deleteFirst
  | print
  | printFirst
  | next
  | joinNext
  | hold
  | holdMore
  | restore
  | restoreMore
  | exchange
  | number
  | reveal (width : Option Nat)
  | quit (prints : Bool) (status : UInt8)
  | read (path : Raw)
  | readLine (path : Raw)
  | write (path : Raw)
  | writeFirst (path : Raw)
  | substitute (s : Substitution)
  | transliterate (pairs : List (Char × Char))
  | clear
  | fileName

structure EditStep where
  choice : LineChoice
  action : EditAction

/-- A whole script, the files it writes to, and whether it asks for lines not to be printed at
the end. -/
structure EditScript where
  steps : Array EditStep
  silent : Bool := false

end LintRepair.Shell
