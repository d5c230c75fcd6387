import LintRepair.Shell.Process

/-!
Options of the commands that are the shell's own: letters behind a dash, some of which take a value.
-/

namespace LintRepair.Shell

/-- A command of the shell's own: from arguments to a status. -/
abbrev Builtin := List Raw → Act UInt8

namespace Builtin

/-- The letters in one argument. A letter that takes a value takes the rest of the argument, or the
next one. -/
def letters (allowed : List Char) (valued : List Char) : Nat → Raw → List Raw →
    Act (List (Char × Raw) × List Raw)
  | 0, _, rest => pure ([], rest)
  | _, [], rest => pure ([], rest)
  | bound + 1, c :: s, rest => do
    if valued.contains c then
      match s, rest with
      | [], [] => Act.fail ("No arg for -".toList ++ c :: " option".toList)
      | [], value :: rest => return ([(c, value)], rest)
      | value, rest => return ([(c, value)], rest)
    else if allowed.contains c then
      let (more, rest) ← letters allowed valued bound s rest
      return ((c, []) :: more, rest)
    else Act.fail ("Illegal option -".toList ++ [c])

/-- The options in front of the other arguments. Two dashes end them. -/
def options (allowed : List Char) (valued : List Char := []) : Nat → List Raw →
    Act (List (Char × Raw) × List Raw)
  | 0, arguments => pure ([], arguments)
  | bound + 1, arguments =>
    match arguments with
    | ['-', '-'] :: rest => pure ([], rest)
    | ('-' :: c :: s) :: rest => do
      let (found, rest) ← letters allowed valued (s.length + 2) (c :: s) rest
      let (more, rest) ← options allowed valued bound rest
      return (found ++ more, rest)
    | _ => pure ([], arguments)

/-- The letters of options and the arguments behind them. -/
def splitOptions (allowed : String) (arguments : List Raw) : Act (List Char × List Raw) := do
  let (found, rest) ← options allowed.toList [] (arguments.length + 1) arguments
  return (found.map (·.1), rest)

def count (argument : Raw) : Act Nat :=
  match Number.count? argument with
  | some n => pure n
  | none => Act.fail (Number.fault argument)

def printLine (text : Raw) : Act Unit := Act.print (text ++ ['\n'])

/-- A text in single quotes, so that the shell reads it back as it is. Single quotes inside it stand
in double quotes. -/
def quoted : Nat → Raw → Raw
  | 0, _ => []
  | bound + 1, s =>
    let plain := s.takeWhile (· != '\'')
    let rest := s.drop plain.length
    let ticks := rest.takeWhile (· == '\'')
    let front := '\'' :: plain ++ ['\'']
    if rest.isEmpty then front
    else
      let tail := rest.drop ticks.length
      let quotes := '"' :: ticks ++ ['"']
      (if plain.isEmpty then [] else front) ++ quotes ++
        (if tail.isEmpty then [] else quoted bound tail)

def quote (s : Raw) : Raw := quoted (s.length + 1) s

end Builtin

end LintRepair.Shell
