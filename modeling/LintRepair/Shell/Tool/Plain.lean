import LintRepair.Shell.Formatted
import LintRepair.Shell.Tool

/-!
Programs that do little more than end: with success, with failure, or after printing what they were
given.
-/

namespace LintRepair.Shell.Tool

open Working

def succeed : Tool := fun _ => pure ()

def refuse : Tool := fun _ => throw 1

/-- Print the arguments. Escapes are carried out only if asked for. -/
def echo : Tool := fun arguments => do
  let options := arguments.takeWhile fun a =>
    a.head? == some '-' && 1 < a.length && (a.drop 1).all "neE".toList.contains
  let has (letter : Char) : Bool := options.any (·.contains letter)
  let escapes := (options.flatten.filter fun c => c == 'e' || c == 'E').getLast? == some 'e'
  let rest := arguments.drop options.length
  if escapes then
    print (echoed (!has 'n') rest ++ (if rest.isEmpty && !has 'n' then ['\n'] else []))
  else print ([' '].intercalate rest ++ (if has 'n' then [] else ['\n']))

def printf : Tool := fun arguments => do
  match arguments with
  | [] => misused 1 "missing operand".toList
  | format :: rest =>
    let result := formatted format rest
    print result.text.reverse.flatten
    result.complaints.reverse.forM fun s =>
      let argument := s.takeWhile (· != ':')
      let what := if " expected numeric value".toList.isSuffixOf s then ": expected a numeric value"
        else ": value not completely converted"
      warn 1 (quoted argument ++ what.toList)
    match result.refusal with
    | some reason =>
      let directive := reason.takeWhile (· != ':')
      fail 1 (directive ++ ": invalid conversion specification".toList)
    | none => pure ()

def pwd : Tool := fun _ => do printLine (Raw.ofString (← get).directory.path)

/-- Print the values of variables that programs get. -/
def printenv : Tool := fun names => do
  let w ← get
  if names.isEmpty then
    w.environment.forM fun (name, value) => printLine (name ++ '=' :: value)
  else
    names.forM fun name =>
      match w.environment.lookup name with
      | some value => printLine value
      | none => atLeast 1

/-- Whether a text tells a length of time. -/
def isInterval (s : Raw) : Bool :=
  match Formatting.magnitudeAt s with
  | some (_, rest) => rest.isEmpty || ["s", "m", "h", "d"].any (·.toList == rest)
  | none => false

/-- Wait. Nothing that a shell sees depends on how long. -/
def sleep : Tool := fun arguments => do
  let g ← given [] 1 false (arguments.length + 1) arguments
  if g.operands.isEmpty then misused 1 "missing operand".toList
  let bad := g.operands.filter (!isInterval ·)
  bad.forM fun s => complain ("invalid time interval ".toList ++ quoted s)
  if !bad.isEmpty then
    hint
    throw 1

/-- End with success; directories hold no more than what was written. -/
def sync : Tool := fun _ => pure ()

end LintRepair.Shell.Tool
