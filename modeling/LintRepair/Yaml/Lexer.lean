import LintRepair.Yaml.Tag

/-!
Turning YAML text into tokens. Deeper columns open blocks and shallower ones close them. A key may
be known only from the colon after it, so the lexer remembers for each level of brackets and braces
where a key may have begun, and puts the key's token there afterwards.
-/

namespace LintRepair.Yaml

/-- A place where a key may have begun. At the column of its block nothing but a key can stand, so
there the colon is `required`. -/
structure Candidate where
  required : Bool
  token : Nat
  index : Nat
  line : Nat
  column : Nat

/-- How far the lexer is. `tokens` are the finished tokens, the last one first; `indents` are the
columns of the open blocks; `candidate` is the possible key at this level of brackets and braces,
and `outer` are those of the levels around it. -/
structure Lexer where
  cursor : Cursor
  tokens : List Token
  indents : List Nat
  keyAllowed : Bool
  candidate : Option Candidate
  outer : List (Option Candidate)

namespace Lexer

def start (s : List Char) : Lexer := ⟨.start s, [], [], true, none, []⟩

/-- Whether the lexer is inside brackets or braces. -/
def inFlow (l : Lexer) : Bool := !l.outer.isEmpty

def push (t : Token) (l : Lexer) : Lexer := { l with tokens := t :: l.tokens }

/-- Put a token before the one with a given number. -/
def pushAt (position : Nat) (t : Token) (l : Lexer) : Lexer :=
  let after := l.tokens.length - position
  { l with tokens := l.tokens.take after ++ t :: l.tokens.drop after }

/-- Pass over characters that are not breaks. -/
def skip (n : Nat) (l : Lexer) : Lexer := { l with cursor := l.cursor.skip n }

/-- Open a block at a column deeper than the block around it, with its token at a given number. -/
def openBlock (column position : Nat) (t : Token) (l : Lexer) : Lexer :=
  if l.inFlow then l
  else if l.indents.head?.all (· < column) then
    { l.pushAt position t with indents := column :: l.indents }
  else l

/-- Close the blocks at columns that do not satisfy a test. -/
def closeBlocks (stays : Nat → Bool) (l : Lexer) : Lexer :=
  if l.inFlow then l
  else
    let closed := (l.indents.takeWhile (!stays ·)).length
    { l with
      tokens := List.replicate closed .blockEnd ++ l.tokens
      indents := l.indents.drop closed }

/-- Give up the possible key of this level. -/
def dropKey (l : Lexer) : Option Lexer :=
  if l.candidate.any (·.required) then none else some { l with candidate := none }

/-- Note that a key may begin here. -/
def noteKey (l : Lexer) : Option Lexer :=
  if l.keyAllowed then do
    let required := !l.inFlow && l.indents.head? == some l.cursor.column
    let l ← l.dropKey
    let c := l.cursor
    some { l with candidate := some ⟨required, l.tokens.length, c.index, c.line, c.column⟩ }
  else some l

/-- Whether a possible key lies too far back: keys stand on one line and are at most 1024 bytes
long. -/
def isStale (c : Cursor) (k : Candidate) : Bool := k.line < c.line || k.index + 1024 < c.index

/-- Give up the possible keys that lie too far back. -/
def dropStaleKeys (l : Lexer) : Option Lexer :=
  let stale := isStale l.cursor
  if (l.candidate :: l.outer).any (·.any fun k => stale k && k.required) then none
  else some { l with
    candidate := l.candidate.filter (!stale ·)
    outer := l.outer.map (·.filter (!stale ·)) }

/-- Pass over space, comments and breaks before a token, and over a byte order mark at the start of
a line, which takes up a column. In a block a break makes room for a key, and where a key may begin
a tab is no space. -/
def passSpace : Nat → Lexer → Lexer
  | 0, l => l
  | bound + 1, l =>
    let l := match l.cursor.column, l.cursor.rest with
      | 0, '\uFEFF' :: _ => l.skip 1
      | _, _ => l
    let isSpace := fun c => c == ' ' || (c == '\t' && (l.inFlow || !l.keyAllowed))
    let c := l.cursor.skipWhile isSpace
    let c := match c.rest with
      | '#' :: _ => c.skipWhile (!isBreak ·)
      | _ => c
    match c.passBreak with
    | some (_, c) => passSpace bound { l with cursor := c, keyAllowed := l.keyAllowed || !l.inFlow }
    | none => { l with cursor := c }

/-- Close all blocks, as the end of the text and the lines that separate documents do. -/
def closeAll (l : Lexer) : Option Lexer := do
  let l ← (l.closeBlocks fun _ => false).dropKey
  some { l with keyAllowed := false }

/-- A directive, at its percent sign. -/
def directive (l : Lexer) : Option Lexer := do
  let l ← l.closeAll
  let (t, c) ← readDirective (l.cursor.skip 1)
  some { l.push t with cursor := c }

def documentMark (t : Token) (l : Lexer) : Option Lexer := do
  let l ← l.closeAll
  some ((l.push t).skip 3)

def openFlow (t : Token) (l : Lexer) : Option Lexer := do
  let l ← l.noteKey
  let l := (l.push t).skip 1
  some { l with candidate := none, outer := l.candidate :: l.outer, keyAllowed := true }

/-- A closing bracket or brace. -/
def closeFlow (t : Token) (l : Lexer) : Option Lexer := do
  let l ← l.dropKey
  let l := { (l.push t).skip 1 with keyAllowed := false }
  match l.outer with
  | k :: outer => some { l with candidate := k, outer := outer }
  | [] => some l

/-- A comma inside brackets or braces. -/
def flowEntry (l : Lexer) : Option Lexer := do
  let l ← l.dropKey
  some { (l.push .flowEntry).skip 1 with keyAllowed := true }

def blockEntry (l : Lexer) : Option Lexer := do
  if !l.inFlow && !l.keyAllowed then none
  else
    let l ← (l.openBlock l.cursor.column l.tokens.length .blockSequenceStart).dropKey
    some { (l.push .blockEntry).skip 1 with keyAllowed := true }

def explicitKey (l : Lexer) : Option Lexer := do
  if !l.inFlow && !l.keyAllowed then none
  else
    let l ← (l.openBlock l.cursor.column l.tokens.length .blockMappingStart).dropKey
    some { (l.push .key).skip 1 with keyAllowed := !l.inFlow }

def value (l : Lexer) : Option Lexer :=
  match l.candidate with
  | some k =>
    let l := l.pushAt k.token .key
    let l := l.openBlock k.column k.token .blockMappingStart
    some { (l.push .value).skip 1 with candidate := none, keyAllowed := false }
  | none =>
    if !l.inFlow && !l.keyAllowed then none
    else
      let l := l.openBlock l.cursor.column l.tokens.length .blockMappingStart
      some { (l.push .value).skip 1 with keyAllowed := !l.inFlow }

/-- A token that a key may begin with, at its first character. -/
def keyStart (l : Lexer) (read : Cursor → Option (Token × Cursor)) : Option Lexer := do
  let l ← l.noteKey
  let (t, c) ← read l.cursor
  some { l.push t with cursor := c, keyAllowed := false }

/-- A plain scalar. If it ran over a line end, a key may follow it. -/
def plain (l : Lexer) : Option Lexer := do
  let l ← l.noteKey
  let (text, broken, c) ← readPlain l.inFlow ((l.indents.head?.map (· + 1)).getD 0) l.cursor
  some { l.push (.scalar .plain (String.ofList text)) with cursor := c, keyAllowed := broken }

/-- A quoted scalar, at its opening quote. -/
def quoted (double : Bool) (l : Lexer) : Option Lexer :=
  l.keyStart fun c => do
    let (text, c) ← readQuoted double (c.skip 1)
    some (.scalar (if double then .doubleQuoted else .singleQuoted) (String.ofList text), c)

/-- A block scalar, at its mark. -/
def block (literal : Bool) (l : Lexer) : Option Lexer := do
  let l ← l.dropKey
  let (text, c) ← readBlock literal l.indents.head? (l.cursor.skip 1)
  let style := if literal then Style.literal else Style.folded
  some { l.push (.scalar style (String.ofList text)) with cursor := c, keyAllowed := true }

/-- Whether a plain scalar may begin with a character before a text. -/
def startsPlain (inFlow : Bool) (c : Char) (rest : List Char) : Bool :=
  !(isBlank c || isBreak c || "-?:,[]\x7b\x7d#&*!|>'\"%@".toList.contains c || c == '\x60') ||
    (c == '-' && !(rest.head?.any isBlank)) ||
    (!inFlow && (c == '?' || c == ':') && !startsBlank rest)

/-- Read the token before which the lexer stands. -/
def token (c : Char) (rest : List Char) (l : Lexer) : Option Lexer :=
  let apart := startsBlank rest
  if l.cursor.column == 0 && c == '%' then l.directive
  else if l.cursor.atDocumentMark then
    l.documentMark (if c == '-' then .documentStart else .documentEnd)
  else if c == '[' then l.openFlow .flowSequenceStart
  else if c == '\x7b' then l.openFlow .flowMappingStart
  else if c == ']' then l.closeFlow .flowSequenceEnd
  else if c == '\x7d' then l.closeFlow .flowMappingEnd
  else if c == ',' then l.flowEntry
  else if c == '-' && apart then l.blockEntry
  else if c == '?' && (l.inFlow || apart) then l.explicitKey
  else if c == ':' && (l.inFlow || apart) then l.value
  else if c == '*' then
    l.keyStart fun c => (readAnchorName (c.skip 1)).map fun (name, c) => (.reference name, c)
  else if c == '&' then
    l.keyStart fun c => (readAnchorName (c.skip 1)).map fun (name, c) => (.anchor name, c)
  else if c == '!' then l.keyStart fun c => readTag l.inFlow (c.skip 1)
  else if c == '|' && !l.inFlow then l.block true
  else if c == '>' && !l.inFlow then l.block false
  else if c == '\'' then l.quoted false
  else if c == '"' then l.quoted true
  else if startsPlain l.inFlow c rest then l.plain
  else none

/-- Read tokens to the end of the text. -/
def run : Nat → Lexer → Option (List Token)
  | 0, _ => none
  | bound + 1, l => do
    let l ← (l.passSpace (l.cursor.rest.length + 1)).dropStaleKeys
    let l := l.closeBlocks fun column => column ≤ l.cursor.column
    match l.cursor.rest with
    | [] =>
      let l ← l.closeAll
      some l.tokens.reverse
    | c :: rest =>
      let l ← l.token c rest
      run bound l

end Lexer

def tokens? (s : List Char) : Option (List Token) :=
  if s.all isAllowed then (Lexer.start s).run (s.length + 1) else none

end LintRepair.Yaml
