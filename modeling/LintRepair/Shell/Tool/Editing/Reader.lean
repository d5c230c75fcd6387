import LintRepair.Shell.Tool.Editing.Script

/-!
Reading scripts that edit texts. A fault is reported with the number of characters read so far.
-/

namespace LintRepair.Shell

/-- What is wrong with a script, and how many characters had been read; a fault without a place
concerns the script as a whole. -/
structure EditFault where
  text : Raw
  place : Option Nat

/-- The state of reading a script. Jumps keep the name of the place they lead to until all places
are known; blocks that are open are kept by their place. -/
structure EditReading where
  extended : Bool
  whole : Raw
  rest : Raw
  steps : Array EditStep := #[]
  names : List (Raw × Nat) := []
  jumps : List (Nat × Raw) := []
  blocks : List Nat := []
  silent : Bool := false

abbrev EditReader := StateT EditReading (Except EditFault)

namespace EditReader

/-- Stop with a fault at the place that has been reached. -/
def fail {α : Type} (text : String) : EditReader α := do
  let r ← get
  throw ⟨text.toList, some (r.whole.length - r.rest.length)⟩

/-- The next character, which is not taken. -/
def peek : EditReader (Option Char) := return (← get).rest.head?

def take : EditReader (Option Char) := do
  let c ← peek
  modify fun r => { r with rest := r.rest.drop 1 }
  return c

/-- Stop with a fault behind the next character. -/
def failBehind {α : Type} (text : String) : EditReader α := do
  let _ ← take
  fail text

/-- Take characters as long as they have a property. -/
def takeWhile (p : Char → Bool) : EditReader Raw := do
  let s := (← get).rest.takeWhile p
  modify fun r => { r with rest := r.rest.drop s.length }
  return s

def isInnerBlank (c : Char) : Bool := isBlank c && c != '\n'

def skipBlanks : EditReader Unit := discard (takeWhile isInnerBlank)

/-- Take a number, if one stands here. -/
def number? : EditReader (Option Nat) := do
  let digits ← takeWhile Char.isDigit
  return if digits.isEmpty then none else some (Number.value 10 digits)

/-- The end of a command: nothing may follow it on its line but a comment or the end of a block. -/
def commandEnd : EditReader Unit := do
  skipBlanks
  match ← peek with
  | none | some '\x7d' | some '#' => pure ()
  | some '\n' | some ';' => discard take
  | some _ => failBehind "extra characters after command"

/-! ### Texts -/

/-- The character that a number behind a backslash stands for, with what is left. -/
def numbered? (s : Raw) : Option (Char × Raw) :=
  let byte (base count : Nat) (t : Raw) : Option (Char × Raw) :=
    let digits := (t.take count).takeWhile (Number.isDigit base)
    if digits.isEmpty then none
    else some (Char.ofNat (Number.value base digits % 256), t.drop digits.length)
  match s with
  | 'x' :: t => byte 16 2 t
  | 'o' :: t => byte 8 3 t
  | 'd' :: t => byte 10 3 t
  | 'c' :: c :: t => some (Char.ofNat (c.toUpper.toNat ^^^ 64), t)
  | _ => none

/-- The character that a letter behind a backslash stands for. -/
def lettered? (c : Char) : Option Char :=
  [('a', '\x07'), ('f', '\x0c'), ('n', '\n'), ('r', '\r'), ('t', '\t'), ('v', '\x0b')].lookup c

/-- The special characters of an expression written out, its other escapes kept. -/
def expressionText : Nat → Raw → Raw
  | 0, _ => []
  | _, [] => []
  | bound + 1, '\\' :: s =>
    match s with
    | [] => ['\\']
    | c :: rest =>
      match lettered? c with
      | some d => d :: expressionText bound rest
      | none =>
        match numbered? s with
        | some (d, rest) =>
          if "*.[]^$\\+?()|/".toList.contains d then '\\' :: d :: expressionText bound rest
          else d :: expressionText bound rest
        | none => '\\' :: c :: expressionText bound rest
  | bound + 1, c :: s => c :: expressionText bound s

/-- The part of an expression up to its delimiter, which brackets hide. The flags tell whether the
place is in brackets and whether it is their front. -/
def untilDelimiter (delimiter : Char) : Nat → Bool → Bool → Raw → Option (Raw × Raw)
  | 0, _, _, _ => none
  | _, _, _, [] => none
  | bound + 1, inBrackets, inFront, c :: s =>
    let further (taken : Raw) (inBrackets inFront : Bool) (s : Raw) : Option (Raw × Raw) :=
      (untilDelimiter delimiter bound inBrackets inFront s).map fun (t, rest) => (taken ++ t, rest)
    if inBrackets then
      match c, s with
      | '\n', _ => none
      | ']', _ => further [']'] inFront false s
      | '^', _ => further ['^'] true inFront s
      | '[', ':' :: _ =>
        let name := (s.drop 1).takeWhile Char.isAlpha
        match s.drop (name.length + 1) with
        | ':' :: ']' :: rest => further ("[:".toList ++ name ++ ":]".toList) true false rest
        | _ => further ['['] true false s
      | c, s => further [c] true false s
    else if c == delimiter then some ([], s)
    else
      match c, s with
      | '\n', _ => none
      | '\\', d :: rest =>
        if d == delimiter then further [d] false false rest
        else if d == '\n' then further [d] false false rest
        else further ['\\', d] false false rest
      | '\\', [] => none
      | '[', _ => further ['['] true true s
      | c, s => further [c] false false s

def replacementText (delimiter : Char) : Raw → Option (Raw × Raw)
  | [] => none
  | [c] => if c == delimiter then some ([], []) else none
  | c :: d :: rest =>
    let further (taken : Raw) (found : Option (Raw × Raw)) : Option (Raw × Raw) :=
      found.map fun (t, rest) => (taken ++ t, rest)
    if c == delimiter then some ([], d :: rest)
    else if c == '\n' then none
    else if c == '\\' then
      let kept := if d == delimiter && d != '&' then [d] else ['\\', d]
      further kept (replacementText delimiter rest)
    else further [c] (replacementText delimiter (d :: rest))

/-- Take a text up to a delimiter, and stop with a fault if there is none. -/
def delimited (split : Raw → Option (Raw × Raw)) (fault : String) : EditReader Raw := do
  let r ← get
  match split r.rest with
  | some (text, rest) =>
    set { r with rest := rest }
    return text
  | none =>
    let line := r.rest.takeWhile (· != '\n')
    set { r with rest := r.rest.drop line.length }
    fail fault

def splitExpression (delimiter : Char) (s : Raw) : Option (Raw × Raw) :=
  untilDelimiter delimiter (s.length + 1) false false s

def pattern (text : Raw) (ignoresCase manyLines : Bool) : EditReader EditPattern := do
  if text.isEmpty then return ⟨none, ignoresCase, manyLines⟩
  match Regular.ofText (← get).extended (expressionText (text.length + 1) text) with
  | .ok r => return ⟨some r, ignoresCase, manyLines⟩
  | .error fault => fail fault.text

def replacementParts : Nat → Raw → List ReplacementPart
  | 0, _ => []
  | _, [] => []
  | bound + 1, '&' :: s => .group 0 :: replacementParts bound s
  | bound + 1, '\\' :: c :: s =>
    let cases : List (Char × LetterCase) :=
      [('U', .upper), ('L', .lower), ('u', .nextUpper), ('l', .nextLower), ('E', .plain)]
    if c.isDigit then .group (c.toNat - '0'.toNat) :: replacementParts bound s
    else
      match cases.lookup c, lettered? c, numbered? (c :: s) with
      | some change, _, _ => .letters change :: replacementParts bound s
      | _, some d, _ => .text [d] :: replacementParts bound s
      | _, _, some (d, rest) => .text [d] :: replacementParts bound rest
      | _, _, _ => .text [c] :: replacementParts bound s
  | bound + 1, c :: s => .text [c] :: replacementParts bound s

/-- The greatest number of a group in an expression. -/
def groupCount : Regular → Nat
  | .group n inside => n.max (groupCount inside)
  | .both first second => (groupCount first).max (groupCount second)
  | .either first second => (groupCount first).max (groupCount second)
  | .repeated inside _ _ => groupCount inside
  | _ => 0

/-! ### Conditions -/

/-- Flags behind an expression in a condition. -/
def testFlags : Nat → Bool → Bool → EditReader (Bool × Bool)
  | 0, i, m => pure (i, m)
  | bound + 1, i, m => do
    skipBlanks
    match ← peek with
    | some 'I' =>
      discard take
      testFlags bound true m
    | some 'M' =>
      discard take
      testFlags bound i true
    | _ => return (i, m)

/-- A condition on a line, if one stands here. -/
def lineTest? : EditReader (Option LineTest) := do
  match ← peek with
  | some '$' =>
    discard take
    return some .last
  | some c =>
    if c == '/' || c == '\\' then
      discard take
      let delimiter ← if c == '\\' then take else pure (some c)
      match delimiter with
      | none => fail "unterminated address regex"
      | some delimiter =>
        let text ← delimited (splitExpression delimiter) "unterminated address regex"
        let bound := (← get).rest.length
        let (i, m) ← testFlags (bound + 1) false false
        return some (.matching (← pattern text i m))
    else
      match ← number? with
      | none => return none
      | some n =>
        skipBlanks
        if (← peek) != some '~' then return some (.number n)
        discard take
        match ← number? with
        | some (step + 1) => return some (.every n (step + 1))
        | _ => return some (.number n)
  | none => return none

/-- The end of a range, if one stands here. -/
def rangeEnd? : EditReader (Option RangeEnd) := do
  match ← peek with
  | some '+' =>
    discard take
    match ← number? with
    | some n => return some (.after n)
    | none => failBehind "expected newer version of sed"
  | some '~' =>
    discard take
    match ← number? with
    | some n => return some (.multiple n)
    | none => failBehind "expected newer version of sed"
  | _ => return (← lineTest?).map .test

/-- Whether a range may begin before the first line. -/
def LineChoice.isValid (c : LineChoice) : Bool :=
  match c.first, c.last with
  | some (.number 0), some (.test (.matching _)) => true
  | some (.number 0), _ => false
  | _, _ => true

/-- The lines that a command is for. -/
def lineChoice : EditReader LineChoice := do
  match ← lineTest? with
  | none => return {}
  | some first =>
    skipBlanks
    if (← peek) != some ',' then return { first := some first }
    discard take
    skipBlanks
    match ← rangeEnd? with
    | some last => return { first := some first, last := some last }
    | none => failBehind "unexpected \x60,'"

/-! ### Commands -/

def add (choice : LineChoice) (action : EditAction) : EditReader Unit :=
  modify fun r => { r with steps := r.steps.push ⟨choice, action⟩ }

/-- Take the rest of the line as the name of a file. -/
def fileName : EditReader Raw := do
  skipBlanks
  let name ← takeWhile (· != '\n')
  if name.isEmpty then fail "missing filename in r/R/w/W commands" else return name

def placeName : EditReader Raw := do
  skipBlanks
  takeWhile fun c => !isBlank c && c != ';' && c != '\x7d'

/-- A text with its escapes carried out, up to the first line end that is not escaped, with what is
left. -/
def plainText : Nat → Raw → Raw × Raw
  | 0, s => ([], s)
  | _, [] => ([], [])
  | bound + 1, c :: s =>
    let further (taken : Raw) (s : Raw) : Raw × Raw :=
      let (t, rest) := plainText bound s
      (taken ++ t, rest)
    if c == '\n' then ([], s)
    else if c == '\\' then
      match s with
      | [] => ([], [])
      | d :: rest =>
        match lettered? d, numbered? s with
        | some e, _ => further [e] rest
        | none, some (e, rest) => further [e] rest
        | none, none => further [d] rest
    else further [c] s

def textHere : EditReader Raw := do
  let r ← get
  let (text, rest) := plainText (r.rest.length + 1) r.rest
  set { r with rest := rest }
  return text ++ ['\n']

/-- Take a text that a command adds. It stands behind a backslash, or on the same line. -/
def addedText : EditReader Raw := do
  skipBlanks
  match ← peek with
  | none => fail "expected \\ after \x60a', \x60c' or \x60i'"
  | some '\\' =>
    discard take
    let r ← get
    match r.rest.dropWhile isInnerBlank with
    | [] =>
      set { r with rest := [] }
      return []
    | '\n' :: rest =>
      set { r with rest := rest }
      textHere
    | _ => textHere
  | some _ => textHere

/-- Flags of a substitution. The bound is the length of the text. -/
def substitutionFlags (s : Substitution) : Nat → Option Nat → Bool → Bool →
    EditReader (Substitution × Option Nat × Bool × Bool)
  | 0, n, i, m => pure (s, n, i, m)
  | bound + 1, n, i, m => do
    match ← peek with
    | none | some '\x7d' | some '#' => return (s, n, i, m)
    | some '\n' | some ';' =>
      discard take
      return (s, n, i, m)
    | some c =>
      if c.isDigit then
        if n.isSome then failBehind "multiple number options to \x60s' command"
        match ← number? with
        | some 0 => fail "number option to \x60s' command may not be zero"
        | count => substitutionFlags s bound count i m
      else if c == 'g' then
        if s.global then failBehind "multiple \x60g' options to \x60s' command"
        discard take
        substitutionFlags { s with global := true } bound n i m
      else if c == 'p' then
        if s.prints then failBehind "multiple \x60p' options to \x60s' command"
        discard take
        substitutionFlags { s with prints := true } bound n i m
      else if c == 'i' || c == 'I' then
        discard take
        substitutionFlags s bound n true m
      else if c == 'm' || c == 'M' then
        discard take
        substitutionFlags s bound n i true
      else if c == 'w' then
        discard take
        return ({ s with target := some (← fileName) }, n, i, m)
      else if isInnerBlank c then
        discard take
        substitutionFlags s bound n i m
      else failBehind "unknown option to \x60s'"

/-- A substitution, after its letter. -/
def substitution : EditReader Substitution := do
  let fault := "unterminated \x60s' command"
  match ← take with
  | none | some '\n' => fail fault
  | some delimiter =>
    let text ← delimited (splitExpression delimiter) fault
    let replacement ← delimited (replacementText delimiter) fault
    let parts := replacementParts (replacement.length + 1) replacement
    let s : Substitution := { pattern := ⟨none, false, false⟩, replacement := parts }
    let (s, n, i, m) ← substitutionFlags s ((← get).rest.length + 1) none false false
    let p ← pattern text i m
    let groups := (p.regular.map groupCount).getD 9
    let used := parts.filterMap fun
      | .group k => some k
      | _ => none
    match used.find? (groups < ·) with
    | some k =>
      fail ("invalid reference \\" ++ String.ofList (Nat.toDigits 10 k)
        ++ " on \x60s' command's RHS")
    | none => return { s with pattern := p, number := n.getD 1 }

/-- The characters of one half of a transliteration. -/
def transliterated : Nat → Raw → Raw
  | 0, _ => []
  | _, [] => []
  | bound + 1, '\\' :: c :: s =>
    match lettered? c, numbered? (c :: s) with
    | some d, _ => d :: transliterated bound s
    | none, some (d, rest) => d :: transliterated bound rest
    | none, none =>
      if c == '\\' then '\\' :: transliterated bound s
      else '\\' :: c :: transliterated bound s
  | bound + 1, c :: s => c :: transliterated bound s

/-- A transliteration, after its letter. -/
def transliteration : EditReader (List (Char × Char)) := do
  let fault := "unterminated \x60y' command"
  match ← take with
  | none => fail fault
  | some delimiter =>
    let half : EditReader Raw := do
      let text ← delimited (replacementText delimiter) fault
      return transliterated (text.length + 1) text
    let first ← half
    let second ← half
    if first.length != second.length then
      fail "strings for \x60y' command are different lengths"
    commandEnd
    return first.zip second

/-- The number behind a command, if there is one. -/
def commandNumber : EditReader (Option Nat) := do
  skipBlanks
  let n ← number?
  commandEnd
  return n

def letters : List (Char × EditAction) :=
  [('d', .delete), ('D', .deleteFirst), ('p', .print), ('P', .printFirst), ('n', .next),
    ('N', .joinNext), ('h', .hold), ('H', .holdMore), ('g', .restore), ('G', .restoreMore),
    ('x', .exchange), ('=', .number), ('z', .clear), ('F', .fileName)]

/-- A command with the letter it begins with. -/
def command (choice : LineChoice) (c : Char) : EditReader Unit := do
  let once : EditReader Unit :=
    if choice.last.isSome then fail "command only uses one address" else pure ()
  match letters.lookup c with
  | some action =>
    commandEnd
    add choice action
  | none =>
    match c with
    | '#' =>
      if choice.first.isSome then fail "comments don't accept any addresses"
      let r ← get
      let comment ← takeWhile (· != '\n')
      if r.whole.length = r.rest.length + 1 && comment == ['n'] then
        modify fun r => { r with silent := true }
    | 'v' => discard placeName
    | '\x7b' =>
      modify fun r => { r with blocks := r.steps.size :: r.blocks }
      add choice (.block 0)
    | '\x7d' =>
      match (← get).blocks with
      | [] => fail "unexpected \x60\x7d'"
      | start :: blocks =>
        if choice.first.isSome then fail "\x7d doesn't want any addresses"
        modify fun r =>
          let steps := match r.steps[start]? with
            | some opening =>
              r.steps.setIfInBounds start { opening with action := .block r.steps.size }
            | none => r.steps
          { r with blocks := blocks, steps := steps }
        commandEnd
    | 'a' => add choice (.append (← addedText))
    | 'i' => add choice (.insert (← addedText))
    | 'c' => add choice (.change (← addedText))
    | ':' =>
      if choice.first.isSome then fail ": doesn't want any addresses"
      skipBlanks
      let name ← takeWhile fun c => !isBlank c && c != ';'
      if name.isEmpty then fail "\":\" lacks a label"
      modify fun r => { r with names := (name, r.steps.size) :: r.names }
    | 'b' => jump .always
    | 't' => jump .replaced
    | 'T' => jump .notReplaced
    | 'q' | 'Q' =>
      once
      let status ← commandNumber
      add choice (.quit (c == 'q') (UInt8.ofNat (status.getD 0)))
    | 'l' | 'L' => add choice (.reveal (← commandNumber))
    | 'r' => add choice (.read (← fileName))
    | 'R' => add choice (.readLine (← fileName))
    | 'w' => add choice (.write (← fileName))
    | 'W' => add choice (.writeFirst (← fileName))
    | 's' => add choice (.substitute (← substitution))
    | 'y' => add choice (.transliterate (← transliteration))
    | c => fail ("unknown command: \x60" ++ String.ofList [c] ++ "'")
where
  /-- A jump. -/
  jump (time : JumpTime) : EditReader Unit := do
    let name ← placeName
    modify fun r => { r with jumps := (r.steps.size, name) :: r.jumps }
    add choice (.jump time none)

/-- Commands up to the end. The bound is the length of the text. -/
def commands : Nat → EditReader Unit
  | 0 => pure ()
  | bound + 1 => do
    discard (takeWhile fun c => isBlank c || c == ';')
    if (← peek).isNone then return
    let choice ← lineChoice
    skipBlanks
    let negated := (← peek) == some '!'
    if negated then
      discard take
      skipBlanks
      if (← peek) == some '!' then failBehind "multiple \x60!'s"
    match ← take with
    | none => fail "missing command"
    | some c =>
      if !LineChoice.isValid choice then fail "invalid usage of line address 0"
      command { choice with negated := negated } c
      commands bound

end EditReader

namespace EditScript

/-- Let the jumps of a script lead to the places they name. -/
def resolved (r : EditReading) : Except EditFault EditScript :=
  r.jumps.foldlM (fun (script : EditScript) (at_, name) =>
    if name.isEmpty then .ok script
    else
      match r.names.lookup name, script.steps[at_]? with
      | some place, some step =>
        let action := match step.action with
          | .jump time _ => .jump time (some place)
          | action => action
        .ok { script with steps := script.steps.setIfInBounds at_ { step with action := action } }
      | _, _ => .error ⟨"can't find label for jump to \x60".toList ++ name ++ ['\''], none⟩)
    { steps := r.steps, silent := r.silent }

def ofText (extended : Bool) (s : Raw) : Except EditFault EditScript := do
  let (_, r) ← (EditReader.commands (s.length + 1)).run
    { extended := extended, whole := s, rest := s }
  if !r.blocks.isEmpty then .error ⟨"unmatched \x60\x7b'".toList, some 0⟩
  resolved r

end EditScript

end LintRepair.Shell
