import LintRepair.Shell.Reading

/-!
Reading words. Quotes, braces and parentheses nest, and each decides what the characters inside it
mean. Commands inside a word are read by the reader of commands, which is a parameter here.
-/

namespace LintRepair.Shell

/-- How characters are read: outside quotes, in single or double quotes, or as an expression. -/
inductive Manner where
  | plain
  | single
  | double
  | expression
deriving DecidableEq, Repr

/-- One level of quotes and braces: how characters are read, how many braces are open and how many
of those were opened in double quotes, how many parentheses are open, and whether double quotes are
open inside a brace. -/
structure Level where
  manner : Manner
  isDouble : Bool := false
  braces : Nat := 0
  doubleBraces : Nat := 0
  parentheses : Nat := 0
  innerQuotes : Bool := false
  fromBrace : Bool := false

/-- What encloses a part of a word. -/
inductive Enclosure where
  | word
  | parameter (name : Raw) (operation : Operation) (orEmpty : Bool) (quoted : Bool)
  | number (quoted : Bool)

/-- A part of a word that is being read. The pieces are in reverse order; `quoted` tells that all
of it stands in quotes, `inQuotes` that quotes are open, and `opening` how many pieces there were
before them. -/
structure Part where
  enclosure : Enclosure
  quoted : Bool
  pieces : Word := []
  inQuotes : Bool := false
  opening : Nat := 0

namespace Part

def quotesNext (p : Part) : Bool := p.quoted || p.inQuotes

def push (p : Part) (piece : Piece) : Part := { p with pieces := Word.push p.pieces piece }

/-- Open or close quotes. Quotes around nothing but all positional parameters leave no trace, so
that without parameters there is no field. -/
def toggle (p : Part) : Part :=
  if p.inQuotes then
    match p.pieces with
    | .parameter ['@'] .value e a q :: .text [] true :: rest =>
      if rest.length = p.opening then
        { p with pieces := .parameter ['@'] .value e a q :: rest, inQuotes := false }
      else { p with inQuotes := false }
    | _ => { p with inQuotes := false }
  else
    { p with
      pieces := .text [] true :: p.pieces
      inQuotes := true
      opening := p.pieces.length }

def close (p : Part) : Word := p.pieces.reverse

end Part

/-- A word being read: levels and parts, the innermost first, and whether any quote was met. -/
structure Drafting where
  level : Level
  levels : List Level
  part : Part
  parts : List Part
  isQuoted : Bool := false

namespace Drafting

/-- Before the first character of a word. -/
def start (manner : Manner) : Drafting :=
  { level := { manner := manner, isDouble := manner == .double }
    levels := []
    part := { enclosure := .word, quoted := manner != .plain }
    parts := [] }

def push (d : Drafting) (p : Piece) : Drafting := { d with part := d.part.push p }

def character (d : Drafting) (c : Char) (quoted : Bool) : Drafting := d.push (.text [c] quoted)

/-- Add a character as the level reads it. -/
def plainly (d : Drafting) (c : Char) : Drafting :=
  d.character c (d.level.manner == .single || d.level.manner == .double)

/-- Mark a quote. In a document quotes stand for themselves. -/
def mark (d : Drafting) (inDocument : Bool) : Drafting :=
  if inDocument then d else { d with part := d.part.toggle }

/-- Note a double quote inside a brace. -/
def toggleInner (d : Drafting) : Drafting :=
  if 0 < d.level.braces then
    { d with level := { d.level with innerQuotes := !d.level.innerQuotes } }
  else d

def leaveLevel (d : Drafting) : Drafting :=
  match d.levels with
  | level :: levels => { d with level := level, levels := levels }
  | [] => d

def enterLevel (d : Drafting) (level : Level) : Drafting :=
  { d with level := level, levels := d.level :: d.levels }

def enterPart (d : Drafting) (enclosure : Enclosure) (quoted : Bool) : Drafting :=
  { d with part := { enclosure := enclosure, quoted := quoted }, parts := d.part :: d.parts }

/-- Finish a part and put it into the one around it. -/
def leavePart (d : Drafting) : Drafting :=
  match d.parts with
  | [] => d
  | outer :: parts =>
    let piece : Piece := match d.part.enclosure with
      | .word => .text [] true
      | .parameter name operation orEmpty quoted =>
        .parameter name operation orEmpty d.part.close quoted
      | .number quoted => .number d.part.close quoted
    { d with part := outer.push piece, parts := parts }

def closeBrace (d : Drafting) : Drafting :=
  let braces := d.level.braces - 1
  let level := { d.level with braces := braces }
  let d := { d with level := level }
  let d :=
    if braces = 0 && level.fromBrace then d.leaveLevel
    else { d with level := { level with doubleBraces := level.doubleBraces - 1 } }
  d.leavePart

end Drafting

/-- How far commands are read: to the end of a line, to the token that closes a compound command,
to the end of a case, which may hold no command at all, to the end of a text of its own, or to a
closing parenthesis, which is passed over. -/
inductive Extent where
  | line
  | inner
  | case
  | text
  | output
deriving DecidableEq, Repr

/-- A reader of commands; nothing at the end of the text. -/
abbrev ScriptReader := Extent → Reader (Option Script)

namespace Reader

/-- Run a reader on a text of its own, and go on behind it as if it had not been there. -/
def within {α : Type} (text : Raw) (read : Reader α) : Reader α := do
  let outside ← get
  set { outside with rest := text, line := 1, pending := [], replaced := [], held := false }
  let a ← read
  modify fun r => { r with
    rest := outside.rest
    line := outside.line
    pending := outside.pending
    replaced := outside.replaced
    held := false }
  return a

/-- The text up to the closing backquote. -/
def backquoted (isDouble : Bool) : Nat → Raw → Reader Raw
  | 0, text => pure text.reverse
  | bound + 1, text => do
    match ← peekJoined with
    | none => refuse "EOF in backquote substitution"
    | some '\x60' =>
      skip 1
      return text.reverse
    | some '\\' =>
      skip 1
      match ← peek with
      | none => backquoted isDouble bound ('\\' :: text)
      | some c =>
        skip 1
        if c == '\\' || c == '\x60' || c == '$' || (isDouble && c == '"') then
          backquoted isDouble bound (c :: text)
        else backquoted isDouble bound (c :: '\\' :: text)
    | some c =>
      skip 1
      if c == '\n' then countLine
      backquoted isDouble bound (c :: text)

/-- The commands between backquotes. They are read as a text of their own. -/
def backquotedScript (scripts : ScriptReader) (isDouble : Bool) : Reader Script := do
  let text ← backquoted isDouble (← get).bound []
  within text do return (← scripts .text).getD .empty

/-- Take characters while they satisfy a condition. -/
def takeWhile (p : Char → Bool) : Nat → Raw → Reader Raw
  | 0, taken => pure taken.reverse
  | bound + 1, taken => do
    match ← peekJoined with
    | some c =>
      if p c then
        skip 1
        takeWhile p bound (c :: taken)
      else return taken.reverse
    | none => return taken.reverse

/-- Take a character, whatever it is. -/
def takeAny : Reader (Option Char) := do
  let c ← peekJoined
  skip 1
  return c

/-- The operation that follows the name of a parameter in braces, with whether an empty value counts
as none. -/
def operation : Reader (Operation × Bool) := do
  let plain (c : Option Char) : Option Operation := match c with
    | some '\x7d' => some .value
    | some '-' => some .otherwise
    | some '+' => some .instead
    | some '?' => some .demanded
    | some '=' => some .assigned
    | _ => none
  match ← takeAny with
  | some ':' => return ((plain (← takeAny)).getD .unknown, true)
  | some '%' => return (.withoutEnd (← take? '%'), false)
  | some '#' => return (.withoutStart (← take? '#'), false)
  | c => return ((plain c).getD .unknown, false)

/-- The name of a parameter in braces, and whether its length is asked for; `none` for a form that
is not understood. -/
def bracedName : Reader (Option (Raw × Bool)) := do
  let bound := (← get).bound
  let c ← peekJoined
  if c.any beginsName then return some (← takeWhile continuesName bound [], false)
  else if c.any Char.isDigit then return some (← takeWhile Char.isDigit bound [], false)
  else
    match c with
    | none | some '\x7d' => return none
    | some '#' =>
      skip 1
      let c ← peekJoined
      if c.any beginsName then return some (← takeWhile continuesName bound [], true)
      else if c.any Char.isDigit then return some (← takeWhile Char.isDigit bound [], true)
      else
        match c with
        | some '\x7d' | none => return some (['#'], false)
        | some d =>
          let before ← get
          skip 1
          if (← peekJoined) = some '\x7d' then
            if isSpecialParameter d then return some ([d], true) else return none
          else
            set before
            return some (['#'], false)
    | some c =>
      skip 1
      if isSpecialParameter c then return some ([c], false) else return none

/-- A parameter in braces, up to the operation. -/
def bracedParameter : Reader (Raw × Operation × Bool) := do
  match ← bracedName with
  | none => return ([], .unknown, false)
  | some (name, true) =>
    if (← peekJoined) = some '\x7d' then return (name, .length, false)
    else return (name, .unknown, false)
  | some (name, false) =>
    let (operation, orEmpty) ← operation
    return (name, operation, orEmpty)

/-- Begin the part of a parameter in braces, with a level of its own if characters are read in
another way there. -/
def openBrace (name : Raw) (operation : Operation) (orEmpty : Bool) (d : Drafting) : Drafting :=
  let quoted := d.part.quotesNext
  let trims := match operation with
    | .withoutEnd _ | .withoutStart _ => true
    | _ => false
  let manner : Manner :=
    if trims then .plain
    else if d.level.manner == .expression then .double
    else d.level.manner
  let d :=
    if manner != d.level.manner || d.level.innerQuotes then
      d.enterLevel { manner := manner, isDouble := manner != .plain, fromBrace := true }
    else d
  let level := { d.level with
    braces := d.level.braces + 1
    doubleBraces := d.level.doubleBraces + (if d.level.isDouble then 1 else 0) }
  let inherits := match operation with
    | .otherwise | .instead => quoted
    | _ => false
  { d with level := level }.enterPart (.parameter name operation orEmpty quoted) inherits

/-- What stands after a dollar sign. -/
def substitution (scripts : ScriptReader) (d : Drafting) : Reader Drafting := do
  let endMark := (← get).expecting.endMark
  let quoted := d.part.quotesNext
  match ← peekJoined with
  | none => return d.plainly '$'
  | some c =>
    if endMark || !(c == '(' || c == '\x7b' || beginsName c || isSpecialParameter c) then
      return d.plainly '$'
    else if c == '(' then
      skip 1
      if ← take? '(' then
        let d := d.enterLevel { manner := .expression, isDouble := true }
        return d.enterPart (.number quoted) false
      else
        let outside := (← get).pending
        modify fun r => { r with pending := [] }
        let script ← scripts .output
        modify fun r => { r with pending := outside }
        return d.push (.output (script.getD .empty) quoted)
    else if c == '\x7b' then
      skip 1
      let (name, operation, orEmpty) ← bracedParameter
      if operation == .value && !orEmpty then
        return d.push (.parameter name .value false [] quoted)
      else return openBrace name operation orEmpty d
    else if beginsName c then
      let name ← takeWhile continuesName (← get).bound []
      return d.push (.parameter name .value false [] quoted)
    else
      skip 1
      return d.push (.parameter [c] .value false [] quoted)

/-- Whether a character ends a word outside quotes. -/
def endsWord (c : Char) : Bool := "<>();&| \t\n".toList.contains c

/-- An escaped character. In double quotes only some characters can be escaped. -/
def escaped (inDocument : Bool) (d : Drafting) : Reader Drafting := do
  match ← peek with
  | none => return d.character '\\' true
  | some c =>
    skip 1
    let keepsBackslash := d.level.isDouble && c != '\\' && c != '\x60' && c != '$' &&
      (c != '"' || (inDocument && d.level.braces == 0)) && (c != '\x7d' || d.level.braces == 0)
    let d := if keepsBackslash then d.character '\\' true else d
    return { d.character c true with isQuoted := true }

/-- The characters of a document at the start of a line: whether the end mark stands there. Tabs are
dropped if asked for. -/
def atEndMark (document : PendingDocument) : Reader Bool := do
  if document.stripTabs then
    modify fun r => { r with rest := r.rest.dropWhile (· == '\t') }
  let rest := (← get).rest
  if document.endMark.isPrefixOf rest then
    match rest.drop document.endMark.length with
    | [] =>
      modify fun r => { r with rest := [], line := r.line + 1 }
      return true
    | '\n' :: after =>
      modify fun r => { r with rest := after, line := r.line + 1 }
      return true
    | _ => return false
  else return false

/-- A closing quote. In a document double quotes stand for themselves outside braces. -/
def closeQuote (c : Char) (inDocument : Bool) (d : Drafting) : Drafting :=
  if inDocument && d.level.braces == 0 then d.plainly c
  else
    let level :=
      if d.level.doubleBraces = 0 then { d.level with manner := .plain, isDouble := false }
      else d.level
    let d := { d with level := level, isQuoted := true }
    let d := if c == '"' then d.toggleInner else d
    d.mark inDocument

/-- A closing parenthesis in an expression: two of them end it. -/
def closeParenthesis (d : Drafting) : Reader Drafting := do
  if 0 < d.level.parentheses then
    let level := { d.level with parentheses := d.level.parentheses - 1 }
    return ({ d with level := level }).plainly ')'
  else if ← take? ')' then return d.leaveLevel.leavePart
  else return d.plainly ')'

def wordCharacter (scripts : ScriptReader) (document : Option PendingDocument) (c : Char)
    (d : Drafting) : Reader Drafting := do
  let inDocument := document.isSome
  skip 1
  match d.level.manner, c with
  | _, '\n' =>
    countLine
    return d.plainly c
  | .single, '\'' => return closeQuote c inDocument d
  | .single, _ => return d.plainly c
  | .plain, '\'' =>
    return ({ d with level := { d.level with manner := .single } }).mark inDocument
  | .plain, '"' =>
    let d := { d with level := { d.level with manner := .double, isDouble := true } }
    return d.toggleInner.mark inDocument
  | .double, '"' => return closeQuote c inDocument d
  | .expression, '(' =>
    let level := { d.level with parentheses := d.level.parentheses + 1 }
    return ({ d with level := level }).plainly c
  | .expression, ')' => closeParenthesis d
  | _, '\\' => escaped inDocument d
  | _, '$' => substitution scripts d
  | _, '\x60' =>
    if (← get).expecting.endMark then return { d.plainly c with isQuoted := true }
    let quoted := d.part.quotesNext
    return d.push (.output (← backquotedScript scripts d.level.isDouble) quoted)
  | _, '\x7d' =>
    if !d.level.innerQuotes && 0 < d.level.braces then return d.closeBrace
    else return d.plainly c
  | _, _ => return d.plainly c

def wordCharacters (scripts : ScriptReader) (document : Option PendingDocument) :
    Nat → Bool → Drafting → Reader Drafting
  | 0, _, d => pure d
  | bound + 1, atLineStart, d => do
    if d.level.manner != .single then joinLines (← get).bound
    let ended ← match document with
      | some document => if atLineStart then atEndMark document else pure false
      | none => pure false
    if ended then return d
    match ← peek with
    | none => return d
    | some c =>
      if d.level.manner == .plain && d.level.braces == 0 && endsWord c then return d
      let d ← wordCharacter scripts document c d
      wordCharacters scripts document bound (c == '\n') d

/-- A word or document, with a check that nothing is left open. -/
def draft (scripts : ScriptReader) (document : Option PendingDocument) (manner : Manner) :
    Reader Drafting := do
  let d ← wordCharacters scripts document (← get).bound document.isSome (.start manner)
  if d.level.manner == .expression then refuse "Missing '))'"
  if d.level.manner != .plain && document.isNone then refuse "Unterminated quoted string"
  if d.level.braces != 0 then refuse "Missing '\x7d'"
  return d

/-- Read the documents that earlier lines have announced. -/
def readDocuments (scripts : ScriptReader) : Reader Unit := do
  let pending := (← get).pending
  modify fun r => { r with pending := [] }
  for document in pending do
    let d ← draft scripts (some document) (if document.expanded then .double else .single)
    modify fun r => { r with documents := (document.number, d.part.close) :: r.documents }

def redirectionKind (out : Bool) : Reader RedirectionKind := do
  if out then
    if ← take? '>' then return .file .append
    else if ← take? '|' then return .file .overwrite
    else if ← take? '&' then return .copy
    else return .file .write
  else if ← take? '<' then return .document (← take? '-')
  else if ← take? '&' then return .copy
  else if ← take? '>' then return .file .readWrite
  else return .file .read

/-- A word, or a redirection if it is a digit or nothing in front of one. -/
def wordToken (scripts : ScriptReader) : Reader Token := do
  let d ← draft scripts none .plain
  let word := d.part.close
  let stream : Option (Option Nat) := match word with
    | [] => some none
    | [.text [c] false] => if c.isDigit then some (some (c.toNat - '0'.toNat)) else none
    | _ => none
  let c ← peek
  match stream with
  | some number =>
    if (c == some '>' || c == some '<') && !d.isQuoted then
      skip 1
      let kind ← redirectionKind (c == some '>')
      modify fun r => { r with
        kind := kind
        stream := some (number.getD (if c == some '>' then 1 else 0)) }
      settle .redirection
    else
      modify fun r => { r with word := word, isQuoted := d.isQuoted }
      settle .word
  | none =>
    modify fun r => { r with word := word, isQuoted := d.isQuoted }
    settle .word

end Reader

end LintRepair.Shell
