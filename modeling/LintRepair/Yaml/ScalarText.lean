import LintRepair.Yaml.Cursor

/-!
The text of YAML scalars. In plain and quoted scalars a single break between two lines counts as a
space, and further breaks stand for themselves. Block scalars keep their breaks, or fold those
between lines that are not indented further.
-/

namespace LintRepair.Yaml

/-- The space between two runs of characters: blanks on one line, or a first break and the breaks
after it. An escaped break is no character at all. -/
structure Gap where
  blanks : List Char := []
  broken : Bool := false
  first : Option Char := none
  more : List Char := []

def Gap.text (g : Gap) : List Char :=
  if g.broken then
    match g.first with
    | some '\n' => if g.more.isEmpty then [' '] else g.more
    | some c => c :: g.more
    | none => g.more
  else g.blanks

/-- Read a gap to its end. Where `indent` gives the least column of the next line, no tab may stand
before it. -/
def readGap (indent : Option Nat) : Nat → Gap → Cursor → Option (Gap × Cursor)
  | 0, _, _ => none
  | bound + 1, g, c =>
    match c.rest with
    | [] => some (g, c)
    | d :: _ =>
      if isBlank d then
        if g.broken then
          if d = '\t' ∧ indent.any (c.column < ·) then none
          else readGap indent bound g (c.skip 1)
        else readGap indent bound { g with blanks := g.blanks ++ [d] } (c.skip 1)
      else
        match c.passBreak with
        | some (b, after) =>
          if g.broken then readGap indent bound { g with more := g.more ++ [b] } after
          else readGap indent bound { g with blanks := [], broken := true, first := some b } after
        | none => some (g, c)

/-- A character that ends a plain scalar inside brackets and braces. -/
def isFlowMark (c : Char) : Bool :=
  c == ',' || c == '[' || c == ']' || c == '\x7b' || c == '\x7d'

/-- A run of plain characters, up to space, a colon before space, or, inside brackets and braces,
one of their marks; a colon right before such a mark is refused there. -/
def plainRun (flow : Bool) : List Char → Option (List Char)
  | [] => some []
  | c :: rest =>
    if isBlank c || isBreak c then some []
    else if flow && c == ':' && (match rest with
        | d :: _ => isFlowMark d || d == '?'
        | [] => false) then none
    else if c == ':' && startsBlank rest then some []
    else if flow && isFlowMark c then some []
    else (plainRun flow rest).map (c :: ·)

/-- The rest of a plain scalar after a gap. Outside brackets and braces, lines that are indented too
little do not belong to it. The flag tells whether a line was begun after the last character. -/
def plainBody (flow : Bool) (indent : Nat) :
    Nat → Gap → Cursor → Option (List Char × Bool × Cursor)
  | 0, _, _ => none
  | bound + 1, gap, c =>
    if c.atDocumentMark then some ([], gap.broken, c)
    else
      match c.rest with
      | '#' :: _ => some ([], gap.broken, c)
      | _ => do
        let run ← plainRun flow c.rest
        if run.isEmpty then some ([], gap.broken, c)
        else
          let after := c.skip run.length
          let text := gap.text ++ run
          if startsBlank after.rest ∧ after.rest.isEmpty = false then
            let (next, beyond) ← readGap (some indent) (after.rest.length + 1) {} after
            if flow = false ∧ beyond.column < indent then some (text, next.broken, beyond)
            else
              let (more, broken, last) ← plainBody flow indent bound next beyond
              some (text ++ more, broken, last)
          else some (text, false, after)

def readPlain (flow : Bool) (indent : Nat) (c : Cursor) : Option (List Char × Bool × Cursor) :=
  plainBody flow indent (c.rest.length + 1) {} c

def hexValue? (c : Char) : Option Nat :=
  if '0' ≤ c ∧ c ≤ '9' then some (c.toNat - '0'.toNat)
  else if 'a' ≤ c ∧ c ≤ 'f' then some (c.toNat - 'a'.toNat + 10)
  else if 'A' ≤ c ∧ c ≤ 'F' then some (c.toNat - 'A'.toNat + 10)
  else none

/-- The character of an escape without a code. -/
def shortEscape? (c : Char) : Option Char :=
  if c = '0' then some '\x00'
  else if c = 'a' then some '\x07'
  else if c = 'b' then some '\x08'
  else if c = 't' ∨ c = '\t' then some '\t'
  else if c = 'n' then some '\n'
  else if c = 'v' then some '\x0b'
  else if c = 'f' then some '\x0c'
  else if c = 'r' then some '\r'
  else if c = 'e' then some '\x1b'
  else if c = ' ' then some ' '
  else if c = '"' then some '"'
  else if c = '/' then some '/'
  else if c = '\\' then some '\\'
  else if c = 'N' then some '\x85'
  else if c = '_' then some '\xa0'
  else if c = 'L' then some '\u2028'
  else if c = 'P' then some '\u2029'
  else none

/-- The number of hexadecimal digits after the letter of an escape. -/
def codeLength? (c : Char) : Option Nat :=
  if c = 'x' then some 2 else if c = 'u' then some 4 else if c = 'U' then some 8 else none

/-- The escape after a backslash: its character and its length, the backslash included. -/
def escape? : List Char → Option (Char × Nat)
  | [] => none
  | c :: rest =>
    match codeLength? c with
    | none => (shortEscape? c).map fun ch => (ch, 2)
    | some n => do
      let code := rest.take n
      let digits ← code.mapM hexValue?
      let v := digits.foldl (fun v d => v * 16 + d) 0
      if digits.length = n ∧ v.isValidChar then some (Char.ofNat v, n + 2) else none

def quotedBody (double : Bool) : Nat → Cursor → Option (List Char × Cursor)
  | 0, _ => none
  | bound + 1, c =>
    if c.atDocumentMark then none
    else
      match c.rest with
      | [] => none
      | d :: rest =>
        if double = false ∧ d = '\'' then
          match rest with
          | '\'' :: _ => (quotedBody double bound (c.skip 2)).map fun (cs, e) => ('\'' :: cs, e)
          | _ => some ([], c.skip 1)
        else if double = true ∧ d = '"' then some ([], c.skip 1)
        else if double = true ∧ d = '\\' then
          match (c.skip 1).passBreak with
          | some (_, after) => do
            let (gap, beyond) ← readGap none (after.rest.length + 1) { broken := true } after
            (quotedBody double bound beyond).map fun (cs, e) => (gap.text ++ cs, e)
          | none => do
            let (ch, length) ← escape? rest
            (quotedBody double bound (c.skip length)).map fun (cs, e) => (ch :: cs, e)
        else if isBlank d || isBreak d then do
          let (gap, beyond) ← readGap none (c.rest.length + 1) {} c
          (quotedBody double bound beyond).map fun (cs, e) => (gap.text ++ cs, e)
        else (quotedBody double bound (c.skip 1)).map fun (cs, e) => (d :: cs, e)

/-- A quoted scalar after its opening quote. -/
def readQuoted (double : Bool) (c : Cursor) : Option (List Char × Cursor) :=
  quotedBody double (c.rest.length + 1) c

/-! ### Block scalars -/

/-- What happens to the breaks at the end of a block scalar. -/
inductive Chomping where
  | strip
  | clip
  | keep
deriving DecidableEq, Repr

/-- The digit of an indentation indicator; zero is refused. -/
def indentDigit? (c : Char) : Option Nat :=
  if '1' ≤ c ∧ c ≤ '9' then some (c.toNat - '0'.toNat) else none

/-- The chomping that a sign asks for. -/
def chomping? (c : Char) : Option Chomping :=
  if c = '+' then some .keep else if c = '-' then some .strip else none

/-- The indicators after the mark of a block scalar: chomping and indentation in either order. -/
def blockHeader (c : Cursor) : Option (Chomping × Option Nat × Cursor) :=
  match c.rest with
  | a :: rest =>
    match chomping? a with
    | some chomping =>
      match rest with
      | b :: _ =>
        if b.isDigit then (indentDigit? b).map fun n => (chomping, some n, c.skip 2)
        else some (chomping, none, c.skip 1)
      | [] => some (chomping, none, c.skip 1)
    | none =>
      if a.isDigit then
        (indentDigit? a).map fun n =>
          match rest.head?.bind chomping? with
          | some chomping => (chomping, some n, c.skip 2)
          | none => (.clip, some n, c.skip 1)
      else some (.clip, none, c)
  | [] => some (.clip, none, c)

/-- Pass over empty lines and the indentation of the next line. With no indentation known, all
spaces count; `widest` is the greatest column met. Gives the breaks passed over. -/
def blockBreaks (indent : Option Nat) :
    Nat → Nat → Cursor → Option (List Char × Nat × Cursor)
  | 0, _, _ => none
  | bound + 1, widest, c =>
    let spaces := (c.rest.takeWhile (· == ' ')).length
    let c := match indent with
      | some n => c.skip (min spaces (n - c.column))
      | none => c.skip spaces
    let widest := max widest c.column
    match c.rest with
    | '\t' :: _ => if indent.all (c.column < ·) then none else some ([], widest, c)
    | _ =>
      match c.passBreak with
      | none => some ([], widest, c)
      | some (b, after) => do
        let (breaks, widest, beyond) ← blockBreaks indent bound widest after
        some (b :: breaks, widest, beyond)

/-- The lines of a block scalar. `lead` is the break before the line, if it has not been used, and
`breaks` are the empty lines after it; `wasBlank` tells whether the last line began with space. -/
def blockLines (literal : Bool) (indent : Nat) :
    Nat → Option Char → List Char → Bool → Cursor →
      Option (List Char × Option Char × List Char × Cursor)
  | 0, _, _, _, _ => none
  | bound + 1, lead, breaks, wasBlank, c =>
    if c.column = indent ∧ c.rest.isEmpty = false then
      let isBlankLine := match c.rest with
        | d :: _ => isBlank d
        | [] => false
      let joint :=
        if literal = false ∧ lead = some '\n' ∧ wasBlank = false ∧ isBlankLine = false then
          if breaks.isEmpty then [' '] else breaks
        else lead.toList ++ breaks
      let line := c.rest.takeWhile (!isBreak ·)
      let atEnd := c.skip line.length
      let (next, after) := match atEnd.passBreak with
        | some (b, after) => (some b, after)
        | none => (none, atEnd)
      do
        let (empty, _, beyond) ← blockBreaks (some indent) (after.rest.length + 1) 0 after
        let (text, last, tail, e) ← blockLines literal indent bound next empty isBlankLine beyond
        some (joint ++ line ++ text, last, tail, e)
    else some ([], lead, breaks, c)

/-- A block scalar after its mark; `parent` is the indentation around it, if any. Without an
indicator the first line that is not empty decides about the indentation. -/
def readBlock (literal : Bool) (parent : Option Nat) (c : Cursor) :
    Option (List Char × Cursor) := do
  let (chomping, indicator, c) ← blockHeader c
  let c ← c.finishLine
  let given := indicator.map fun n => n + parent.getD 0
  let (breaks, widest, c) ← blockBreaks given (c.rest.length + 1) 0 c
  let least := match parent with
    | some n => n + 1
    | none => 1
  let indent := given.getD (max widest least)
  let (text, last, tail, c) ← blockLines literal indent (c.rest.length + 1) none breaks false c
  let ending := match chomping with
    | .strip => []
    | .clip => last.toList
    | .keep => last.toList ++ tail
  some (text ++ ending, c)

end LintRepair.Yaml
