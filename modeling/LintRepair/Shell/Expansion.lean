import LintRepair.Shell.Arithmetic
import LintRepair.Shell.Fields
import LintRepair.Shell.Process

/-!
What words become: parameters, commands and expressions are replaced by their values, the result is
split into fields, and fields that are patterns become the names of files. Running a command is a
parameter here, because it may be any script.
-/

namespace LintRepair.Shell

open Pattern (parameterEnd)

/-- Runs a script and returns what it writes. -/
abbrev OutputOf := Script → Act Raw

/-- What an expansion is for: fields for a command, or a single text. A text may be an assigned
value, where a home directory may also stand behind a colon. -/
inductive Purpose where
  | fields
  | text
  | assigned
deriving DecidableEq, Repr

namespace Expansion

/-- The separators of fields; blanks if the variable for them is gone. -/
def separators (p : Process) : Raw :=
  (p.value? "IFS".toList).getD Process.initialSeparators

/-- The letters of options, in the order in which they are listed. -/
def optionLetters : List Char :=
  ['e', 'f', 'I', 'i', 'm', 'n', 's', 'x', 'v', 'V', 'E', 'C', 'a', 'b', 'u']

/-- The values of a parameter: none if it is not set, and several for the positional ones. -/
inductive Value where
  | unset
  | single (text : Raw)
  | positional (texts : List Raw)

def value (p : Process) (name : Raw) : Value :=
  let ofOption : Option Raw → Value
    | some s => .single s
    | none => .unset
  match name with
  | ['$'] => .single (Raw.ofNat Process.ownNumber)
  | ['?'] => .single (Raw.ofNat p.status.toNat)
  | ['#'] => .single (Raw.ofNat p.arguments.length)
  | ['!'] => ofOption (p.jobs.head?.map fun (number, _) => Raw.ofNat number)
  | ['-'] => .single (optionLetters.reverse.filter p.hasOption)
  | ['@'] => .positional p.arguments
  | ['*'] => .positional p.arguments
  | _ =>
    if name.all Char.isDigit then
      match Number.value 10 name with
      | 0 => .single p.name
      | n + 1 => ofOption p.arguments[n]?
    else ofOption (p.value? name)

/-- What stands between positional parameters that are joined. -/
def joint (p : Process) (purpose : Purpose) (quoted : Bool) : Raw :=
  match p.value? "IFS".toList with
  | none => [' ']
  | some ifs => if purpose == .fields && !quoted then [parameterEnd] else ifs.take 1

/-- The text of a parameter as one segment, if it is set. Quoted text stands for itself. -/
def segment? (p : Process) (purpose : Purpose) (name : Raw) (quoted : Bool) : Option Segment :=
  let splitting : Splitting := if quoted then .none else .separators
  match value p name with
  | .unset => none
  | .single s => some ⟨Cell.ofText quoted s, splitting⟩
  | .positional texts =>
    if name == ['@'] && quoted && purpose == .fields then
      some ⟨Cell.ofText true ([parameterEnd].intercalate texts),
        if texts.isEmpty then .none else .parameters⟩
    else some ⟨Cell.ofText quoted ((joint p purpose quoted).intercalate texts), splitting⟩

def textOf (segments : List Segment) : Raw := segments.flatMap fun s => Cell.text s.cells

/-- The home directory for a tilde in front of a text, with what follows: a slash, or the end of
the word. -/
def home? (p : Process) (isLast : Bool) (s : Raw) : Option (Raw × Raw) :=
  match s with
  | '~' :: rest =>
    let ends := match rest with
      | [] => isLast
      | c :: _ => c == '/'
    if ends then (p.value? "HOME".toList).map fun home => (home, rest) else none
  | _ => none

/-- The parts of a text between its colons; all but the first begin with theirs. -/
def colonParts : Raw → List Raw
  | [] => [[]]
  | c :: s =>
    match c == ':', colonParts s with
    | true, parts => [] :: parts.modifyHead (':' :: ·)
    | false, part :: parts => (c :: part) :: parts
    | false, [] => [[c]]

/-- The segments of text that is not quoted, with the home directory for a tilde in front. A colon
may stand before the tilde. -/
def homeSegments (p : Process) (mayBegin isLast splits : Bool) (s : Raw) : List Segment :=
  let whole (s : Raw) : List Segment :=
    if s.isEmpty then []
    else [⟨Cell.ofText false s, if splits then .separators else .none⟩]
  let colon := s.takeWhile (· == ':')
  match if mayBegin then home? p isLast (s.drop colon.length) else none with
  | some (home, rest) => whole colon ++ [⟨Cell.ofText true home, .none⟩] ++ whole rest
  | none => whole s

/-- The segments of text that is not quoted. In an assigned value a home directory may also stand
behind a colon. -/
def plainSegments (p : Process) (purpose : Purpose) (inFront isLast splits : Bool) (s : Raw) :
    List Segment :=
  match if purpose == .assigned then colonParts s else [s] with
  | [] => []
  | first :: parts =>
    homeSegments p inFront (isLast || !parts.isEmpty) splits first ++
      (List.range parts.length).flatMap fun i =>
        homeSegments p true (isLast || i + 1 < parts.length) splits (parts[i]?.getD [])

/-- The complaint about a parameter that is not set. -/
def unsetText (name : Raw) (orEmpty : Bool) : Raw :=
  name ++ ": parameter not set".toList ++ (if orEmpty then " or null".toList else [])

/-- The value of an expression; what it assigns stays assigned. -/
def arithmetic (text : Raw) : Act Int64 := do
  let p ← get
  match Arithmetic.evaluate p.value? text with
  | .error fault => Act.fail (fault.text text)
  | .ok (n, assigned) =>
    for (name, n) in assigned.reverse do
      Act.setVariable name (Raw.ofInt n.toInt)
    return n

def patternOf (found : List Segment) : Pattern :=
  Pattern.ofGlyphs (found.flatMap fun s => Cell.glyphs s.cells)

/-- How the value of a substitution is split. -/
def splittingOf (quoted : Bool) : Splitting := if quoted then .none else .separators

/-- The segment of a parameter that has to be set if that is asked for. -/
def demanded (name : Raw) (quoted : Bool) (found : Option Segment) : Act Segment := do
  match found with
  | some s => return s
  | none =>
    if (← get).hasOption 'u' then Act.fail (unsetText name false)
    else return ⟨[], splittingOf quoted⟩

mutual

/-- The segments of a word. `inFront` tells that nothing stands before it, and `splits` that its
plain text is split too, because it stands in the place of a parameter. -/
def segments (run : OutputOf) (purpose : Purpose) (splits inFront : Bool) :
    Word → Act (List Segment)
  | [] => pure []
  | piece :: rest => do
    let first ← pieceSegments run purpose splits inFront rest.isEmpty piece
    return first ++ (← segments run purpose splits false rest)

def pieceSegments (run : OutputOf) (purpose : Purpose) (splits inFront isLast : Bool) :
    Piece → Act (List Segment)
  | .text s true => pure [⟨.mark :: Cell.ofText true s, .none⟩]
  | .text s false => do
    return plainSegments (← get) purpose inFront isLast splits s
  | .output script quoted => do
    let text ← run script
    let text := ((text.filter (· != '\x00')).reverse.dropWhile (· == '\n')).reverse
    return [⟨Cell.ofText quoted text, splittingOf quoted⟩]
  | .number expression quoted => do
    let n ← arithmetic (textOf (← segments run .text false false expression))
    return [⟨Cell.ofText quoted (Raw.ofInt n.toInt), splittingOf quoted⟩]
  | .parameter name operation orEmpty argument quoted => do
    let p ← get
    if operation == .unknown then Act.fail "Bad substitution".toList
    let found := segment? p purpose name quoted
    let isSet := match found with
      | some s => !(orEmpty && s.cells.isEmpty)
      | none => false
    match operation with
    | .otherwise =>
      if isSet then return found.toList
      else segments run purpose (splits || (purpose == .fields && !quoted)) true argument
    | .instead =>
      if isSet then segments run purpose (splits || (purpose == .fields && !quoted)) true argument
      else return []
    | .assigned =>
      if isSet then return found.toList
      let text := textOf (← segments run .text false true argument)
      if !isName name then Act.fail (name ++ ": bad variable name".toList)
      Act.setVariable name text
      return (segment? (← get) purpose name quoted).toList
    | .demanded =>
      if isSet then return found.toList
      if argument.isEmpty then Act.fail (unsetText name orEmpty)
      Act.fail (name ++ ": ".toList ++ textOf (← segments run .text false true argument))
    | .length =>
      let s ← demanded name quoted found
      return [⟨Cell.ofText quoted (Raw.ofNat s.cells.length), splittingOf quoted⟩]
    | .withoutEnd longest =>
      let s ← demanded name quoted found
      if found.isNone then return [s]
      let pattern := patternOf (← segments run .text false true argument)
      let text := pattern.withoutEnd longest (Cell.text s.cells)
      return [{ s with cells := Cell.ofText quoted text }]
    | .withoutStart longest =>
      let s ← demanded name quoted found
      if found.isNone then return [s]
      let pattern := patternOf (← segments run .text false true argument)
      let text := pattern.withoutStart longest (Cell.text s.cells)
      return [{ s with cells := Cell.ofText quoted text }]
    | _ => return [← demanded name quoted found]

end

/-! ### Names of files -/

/-- The names in a directory, the two that lead to itself and upwards included. -/
def namesInside (p : Process) (path : Raw) : List Raw :=
  match p.tree.find p.directory (Raw.text path) with
  | .ok (here, .directory) =>
    ['.'] :: ['.', '.'] :: (p.tree.names here).map Raw.ofString
  | _ => []

/-- Where names of files are looked up. -/
def fileNames (p : Process) : Pattern.Names where
  inside := namesInside p
  doesExist path := p.tree.doesExist p.directory (Raw.text path)

/-- The fields that a field becomes: the names it matches, or itself. -/
def matchedNames (p : Process) (cells : List Cell) : List Raw :=
  let gs := Cell.glyphs cells
  match if p.hasOption 'f' then [] else Pattern.paths (fileNames p) gs with
  | [] => [gs.map (·.char)]
  | found => found

/-! ### Whole words -/

def fields (run : OutputOf) (word : Word) : Act (List Raw) := do
  let found ← segments run .fields false true word
  let p ← get
  return (fieldsOf (separators p) found).flatMap (matchedNames p)

def text (run : OutputOf) (purpose : Purpose) (word : Word) : Act Raw := do
  return textOf (← segments run purpose false true word)

def pattern (run : OutputOf) (word : Word) : Act Pattern := do
  return patternOf (← segments run .text false true word)

end Expansion

end LintRepair.Shell
