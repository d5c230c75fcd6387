import LintRepair.Shell.Tool

/-!
Programs that work on paths alone, without looking at files.
-/

namespace LintRepair.Shell.Tool

open Working

def withoutSlashes (path : Raw) : Raw := (path.reverse.dropWhile (· == '/')).reverse

/-- The last name on a path. The path to the top has no name but itself. -/
def lastName (path : Raw) : Raw :=
  let bare := withoutSlashes path
  if bare.isEmpty then path.take 1 else (bare.reverse.takeWhile (· != '/')).reverse

/-- The part of a path in front of its last name. -/
def directoryOf (path : Raw) : Raw :=
  let front := ((withoutSlashes path).reverse.dropWhile (· != '/')).reverse
  if front.isEmpty then if path.head? == some '/' then ['/'] else ['.']
  else
    let bare := withoutSlashes front
    if bare.isEmpty then ['/'] else bare

/-- A name without an ending, unless there is nothing else. -/
def withoutEnding (name ending : Raw) : Raw :=
  if name != ending && ending.isSuffixOf name then name.take (name.length - ending.length) else name

/-- Write the last names of paths. -/
def basename : Tool := fun arguments => do
  let g ← given (plainRules [('a', "multiple"), ('z', "zero")] ++ valuedRules [('s', "suffix")]) 1
    true (arguments.length + 1) arguments
  let stop := if g.has 'z' then '\x00' else '\n'
  let put (path ending : Raw) : Working Unit :=
    print (withoutEnding (lastName path) ending ++ [stop])
  if g.has 'a' || g.has 's' then
    if g.operands.isEmpty then misused 1 "missing operand".toList
    g.operands.forM fun path => put path ((g.value? 's').getD [])
  else
    match g.operands with
    | [] => misused 1 "missing operand".toList
    | [path] => put path []
    | [path, ending] => put path ending
    | _ :: _ :: extra :: _ => misused 1 ("extra operand ".toList ++ quoted extra)

/-- Write the parts of paths in front of their last names. -/
def dirname : Tool := fun arguments => do
  let g ← given (plainRules [('z', "zero")]) 1 false (arguments.length + 1) arguments
  if g.operands.isEmpty then misused 1 "missing operand".toList
  g.operands.forM fun path => print (directoryOf path ++ [if g.has 'z' then '\x00' else '\n'])

/-- Write the paths that lead to files without detours. The last name need not exist. -/
def realpath : Tool := fun arguments => do
  let g ← given (plainRules [('e', "canonicalize-existing"), ('m', "canonicalize-missing"),
    ('q', "quiet"), ('s', "strip"), ('f', "canonicalize")]) 1 false (arguments.length + 1) arguments
  if g.operands.isEmpty then misused 1 "missing operand".toList
  let w ← get
  g.operands.forM fun path => do
    let complainOf (cause : Files.Failure) : Working Unit := do
      if !g.has 'q' then complain (path ++ because cause)
      atLeast 1
    match w.tree.locate w.directory (Raw.text path) with
    | .error cause => complainOf cause
    | .ok here =>
      let stands := (w.tree.entry? here).isSome
      let parentStands := (w.tree.entry? here.dropLast).isSome
      if stands || g.has 'm' || (parentStands && !g.has 'e') then
        printLine (Raw.ofString here.path)
      else complainOf .notFound

end LintRepair.Shell.Tool
