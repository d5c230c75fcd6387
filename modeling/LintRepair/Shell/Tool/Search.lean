import LintRepair.Shell.Pattern
import LintRepair.Shell.Regular.Matching
import LintRepair.Shell.Tool.Files

/-!
Finding lines that match patterns.
-/

namespace LintRepair.Shell.Tool

open Working

/-- What is searched for, and how what is found is shown. -/
structure Search where
  given : Given
  patterns : List Regular
  most : Option Nat
  before : Nat
  after : Nat
  stop : Char

namespace Search

/-- The expression for a text that stands for itself. -/
def fixed (s : Raw) : Regular := s.foldr (fun c r => .both (.character c) r) .nothing

/-- A pattern with the shorthands for digits written out. -/
def withoutShorthands : Raw → Raw
  | '\\' :: 'd' :: s => "[0-9]".toList ++ withoutShorthands s
  | '\\' :: 'D' :: s => "[^0-9]".toList ++ withoutShorthands s
  | '\\' :: c :: s => '\\' :: c :: withoutShorthands s
  | c :: s => c :: withoutShorthands s
  | [] => []

def expression (g : Given) (pattern : Raw) : Working Regular := do
  let kind := (g.last? ['E', 'F', 'G', 'P']).getD 'G'
  let whole (r : Regular) : Regular :=
    if g.has 'x' then .both .textStart (.both r .textEnd)
    else if g.has 'w' then .both .noWordBefore (.both r .noWordAfter)
    else r
  if kind == 'F' then return whole (fixed pattern)
  if pattern.take 2 == "[:".toList && pattern.drop (pattern.length - 2) == ":]".toList then
    fail 2 "character class syntax is [[:space:]], not [:space:]".toList
  let text := if kind == 'P' then withoutShorthands pattern else pattern
  match Regular.read (kind != 'G') true text with
  | .error fault => fail 2 fault.text.toList
  | .ok (r, misplaced) =>
    misplaced.forM fun c =>
      let operator := if c == '\x7b' then "\x7b...\x7d".toList else [c]
      complain ("warning: ".toList ++ operator ++ " at start of expression".toList)
    return whole r

/-- The first match of any pattern in a line from a place on; of several that begin there, the
longest. -/
def findFrom (s : Search) (line : Raw) (position : Nat) : Option Regular.Found :=
  s.patterns.foldl (fun best r =>
    match r.search (s.given.has 'i' || s.given.has 'y') false line position, best with
    | none, best => best
    | some found, none => some found
    | some found, some best =>
      if found.first < best.first || (found.first = best.first && best.last < found.last) then
        some found
      else some best) none

/-- Whether a line is one of those that are asked for. -/
def selects (s : Search) (line : Raw) : Bool := (s.findFrom line 0).isSome != s.given.has 'v'

/-- The parts of a line that match: where each begins, and its text. The bound is the length. -/
def parts (s : Search) (line : Raw) : Nat → Nat → List (Nat × Raw)
  | 0, _ => []
  | bound + 1, position =>
    if line.length < position then []
    else
      match s.findFrom line position with
      | none => []
      | some found =>
        if found.last = found.first then parts s line bound (found.last + 1)
        else (found.first, (line.take found.last).drop found.first) :: parts s line bound found.last

/-- A line of a file: its number, the place where it begins, and whether it is asked for. -/
structure Line where
  number : Nat
  offset : Nat
  text : Raw
  isSelected : Bool

/-- The lines of a text. After the greatest number of lines asked for none is selected. -/
def linesOf (s : Search) : Nat → Nat → Option Nat → List Raw → List Line
  | _, _, _, [] => []
  | number, offset, left, text :: rest =>
    let isSelected := left != some 0 && s.selects text
    let left := if isSelected then left.map (· - 1) else left
    ⟨number, offset, text, isSelected⟩ ::
      linesOf s (number + 1) (offset + text.length + 1) left rest

/-- What stands in front of a line. -/
def front (s : Search) (name : Option Raw) (mark : Char) (number offset : Nat) : Raw :=
  let named := match name with
    | some name => name ++ [if s.given.has 'Z' then '\x00' else mark]
    | none => []
  named ++ (if s.given.has 'n' then Raw.ofNat number ++ [mark] else []) ++
    (if s.given.has 'b' then Raw.ofNat offset ++ [mark] else [])

/-- Whether lines around those asked for are shown. -/
def hasContext (s : Search) : Bool :=
  ['A', 'B', 'C'].any s.given.has || s.given.options.any (·.1.isDigit)

/-- The lines that are shown: those asked for and those around them. -/
def shownLines (s : Search) (lines : List Line) : List Line :=
  let chosen := (lines.filter (·.isSelected)).map (·.number)
  match s.most, chosen.getLast? with
  | some _, some last =>
    lines.filter fun l => l.number ≤ last + s.after &&
      chosen.any fun n => n ≤ l.number + s.before && l.number ≤ n + s.after
  | _, _ =>
    lines.filter fun l => chosen.any fun n => n ≤ l.number + s.before && l.number ≤ n + s.after

/-- Print lines, with a mark between those that do not follow one another. -/
def printLines (s : Search) (name : Option Raw) : Option Nat → List Line → Working Unit
  | _, [] => pure ()
  | before, l :: rest => do
    if s.hasContext && before.any (· + 1 < l.number) then print "--\n".toList
    if s.given.has 'o' then
      if l.isSelected && !s.given.has 'v' then
        (s.parts l.text (l.text.length + 2) 0).forM fun (first, text) =>
          print (s.front name ':' l.number (l.offset + first) ++ text ++ [s.stop])
    else
      let mark := if l.isSelected then ':' else '-'
      print (s.front name mark l.number l.offset ++ l.text ++ [s.stop])
    printLines s name (some l.number) rest

/-- Search a text; whether something was found. -/
def inText (s : Search) (label : Raw) (named : Bool) (text : Raw) : Working Bool := do
  let all := Raw.parts s.stop text
  let all := if all.getLast? == some [] then all.dropLast else all
  let lines := s.linesOf 1 0 s.most all
  let chosen := lines.filter (·.isSelected)
  let found := !chosen.isEmpty
  let g := s.given
  let name := if named then some label else none
  let nameEnd := if g.has 'Z' then '\x00' else '\n'
  if g.has 'q' then pure ()
  else
    match g.last? ['l', 'L'] with
    | some 'l' => if found then print (label ++ [nameEnd]) else pure ()
    | some _ => if found then pure () else print (label ++ [nameEnd])
    | none =>
      if g.has 'c' then
        let separator := if g.has 'Z' then '\x00' else ':'
        print ((if named then label ++ [separator] else []) ++ Raw.ofNat chosen.length ++ ['\n'])
      else if found && text.contains '\x00' && !g.has 'a' && !g.has 'z' then
        complain (label ++ ": binary file matches".toList)
      else s.printLines name none (s.shownLines lines)
  return found

/-- Search a file, or if asked for everything in a directory. The bound is the depth. -/
def inPath (s : Search) (named : Bool) : Nat → Raw → Raw → Working Bool
  | 0, _, _ => pure false
  | bound + 1, path, label => do
    let g := s.given
    let deep := g.has 'r' || g.has 'R'
    let w ← get
    match w.tree.find w.directory (Raw.text path) with
    | .ok (here, .directory) =>
      if deep then
        (sortedNames w.tree here).foldlM (fun found name => do
          let below := locationBelow here name
          let isDirectory := match w.tree.entry? below with
            | some .directory => true
            | _ => false
          let label := if label.isEmpty then name else pathBelow label name
          if (isDirectory && skipsDirectory name) || (!isDirectory && skipsFile name) then
            return found
          let here ← inPath s named bound (pathBelow path name) label
          return found || here) false
      else if g.value? 'd' == some "skip".toList then return false
      else report path .isDirectory
    | _ =>
      if path == ['-'] then
        match ← takeInput with
        | .ok text => s.inText ((g.value? '\xe4').getD "(standard input)".toList) named text
        | .error cause => report "(standard input)".toList cause
      else
        match ← content path with
        | .ok text =>
          if (← get).isOwnOutput path && !g.has 'q' then
            warn 2 (path ++ ": input file is also the output".toList)
            return false
          else s.inText label named text
        | .error cause => report path cause
where
  /-- Say that a file cannot be read. -/
  report (path : Raw) (cause : Files.Failure) : Working Bool := do
    if !s.given.has 's' then complain (path ++ because cause)
    atLeast 2
    return false
  /-- Whether a name matches a pattern for names. -/
  hasForm (name pattern : Raw) : Bool :=
    (Pattern.ofGlyphs (pattern.map fun c => ⟨c, false⟩)).matchesAll name
  /-- Whether a file is left out. -/
  skipsFile (name : Raw) : Bool :=
    let wanted := s.given.values '\xe0'
    (!wanted.isEmpty && !wanted.any (hasForm name)) || (s.given.values '\xe1').any (hasForm name)
  /-- Whether a directory is left out. -/
  skipsDirectory (name : Raw) : Bool := (s.given.values '\xe2').any (hasForm name)

def rules : List OptionRule :=
  Working.plainRules [('E', "extended-regexp"), ('F', "fixed-strings"), ('G', "basic-regexp"),
    ('P', "perl-regexp"), ('i', "ignore-case"), ('y', ""), ('v', "invert-match"),
    ('w', "word-regexp"), ('x', "line-regexp"), ('c', "count"), ('l', "files-with-matches"),
    ('L', "files-without-match"), ('q', "quiet"), ('q', "silent"), ('s', "no-messages"),
    ('n', "line-number"), ('H', "with-filename"), ('h', "no-filename"), ('o', "only-matching"),
    ('r', "recursive"), ('R', "dereference-recursive"), ('a', "text"), ('b', "byte-offset"),
    ('z', "null-data"), ('Z', "null"), ('I', ""), ('U', "binary"), ('u', "unix-byte-offsets"),
    ('T', "initial-tab"), ('\xe5', "line-buffered"), ('0', ""), ('1', ""), ('2', ""), ('3', ""),
    ('4', ""), ('5', ""), ('6', ""), ('7', ""), ('8', ""), ('9', "")] ++
  Working.valuedRules [('e', "regexp"), ('f', "file"), ('m', "max-count"), ('A', "after-context"),
    ('B', "before-context"), ('C', "context"), ('d', "directories"), ('D', "devices"),
    ('\xe0', "include"), ('\xe1', "exclude"), ('\xe2', "exclude-dir"), ('\xe4', "label"),
    ('\xe6', "binary-files")] ++
  [{ letter := '\xe3', name := "color", mayTakeValue := true },
    { letter := '\xe3', name := "colour", mayTakeValue := true }]

/-- The number of lines around those asked for, by the letters that may say it. -/
def context (g : Given) (letter : Char) : Working Nat := do
  let digits := (g.options.filter (·.1.isDigit)).map (·.1)
  let general := if digits.isEmpty then 0 else Number.value 10 digits
  match (g.options.filter fun (c, _) => c == letter || c == 'C').getLast? with
  | none => return general
  | some (_, value) =>
    if !value.isEmpty && value.all Char.isDigit then return Number.value 10 value
    else fail 2 (value ++ ": invalid context length argument".toList)

end Search

/-- Write the lines of files that match patterns. -/
def grep : Tool := fun arguments => do
  modify fun w => { w with
    name := "grep".toList
    usage := "Usage: grep [OPTION]... PATTERNS [FILE]...\n".toList }
  let g ← given Search.rules 2 false (arguments.length + 1) arguments
  let most ← match g.value? 'm' with
    | none => pure none
    | some value =>
      match Number.count? value with
      | some n => pure (some n)
      | none =>
        if value.head? == some '-' && !(value.drop 1).isEmpty then pure none
        else fail 2 "invalid max count".toList
  let after ← Search.context g 'A'
  let before ← Search.context g 'B'
  let written ← (g.options.filter fun (c, _) => c == 'e' || c == 'f').mapM fun (c, value) => do
    if c == 'e' then return Raw.parts '\n' value
    match ← content value with
    | .ok text => return Raw.lines text
    | .error cause => fail 2 (value ++ because cause)
  let (texts, paths) ← match written, g.operands with
    | [], [] =>
      hint
      throw 2
    | [], pattern :: paths => pure (Raw.parts '\n' pattern, paths)
    | written, paths => pure (written.flatten, paths)
  let patterns ← texts.mapM (Search.expression g)
  let s : Search := {
    given := g
    patterns := patterns
    most := most
    before := before
    after := after
    stop := if g.has 'z' then '\x00' else '\n' }
  let deep := g.has 'r' || g.has 'R'
  let w ← get
  let isDirectory (path : Raw) : Bool := match w.tree.find w.directory (Raw.text path) with
    | .ok (_, .directory) => true
    | _ => false
  let named := match g.last? ['H', 'h'] with
    | some c => c == 'H'
    | none => 1 < paths.length || (deep && (paths.isEmpty || paths.all isDirectory))
  let targets : List (Raw × Raw) :=
    if paths.isEmpty then if deep then [(['.'], [])] else [(['-'], ['-'])]
    else paths.map fun path => (path, path)
  let depth := w.tree.entries.length + 3
  let found ← targets.foldlM (fun found (path, label) => do
    if found && g.has 'q' then return true
    let here ← s.inPath named depth path label
    return found || here) false
  if found && g.has 'q' then throw 0
  if !found then atLeast 1

/-- Write the lines that match patterns of the extended form. -/
def egrep : Tool := fun arguments => grep ("-E".toList :: arguments)

/-- Write the lines that hold texts. -/
def fgrep : Tool := fun arguments => grep ("-F".toList :: arguments)

end LintRepair.Shell.Tool
