import LintRepair.Shell.Tool

/-!
Programs that show texts or parts of them, line by line or character by character.
-/

namespace LintRepair.Shell.Tool

open Working

/-! ### Whole texts -/

/-- A character as it is shown when characters without a shape are made visible. -/
def visible (tabs : Bool) (c : Char) : Raw :=
  let low (c : Char) : Raw :=
    if c == '\x7f' then ['^', '?']
    else if c < ' ' then ['^', Char.ofNat (c.toNat + 64)]
    else [c]
  if c == '\t' then if tabs then ['^', 'I'] else [c]
  else if c.toNat < 128 then low c
  else ['M', '-'] ++ low (Char.ofNat (c.toNat - 128))

/-- How a text is shown. -/
structure Showing where
  numbers : Bool
  numbersFilled : Bool
  squeezes : Bool
  ends : Bool
  tabs : Bool
  controls : Bool

/-- The lines of a text as they are shown, each with its end if it has one. The bound is the number
of lines. -/
def shownLines (how : Showing) : Nat → Nat → Bool → Raw → Raw
  | 0, _, _, _ => []
  | _, _, _, [] => []
  | bound + 1, number, afterEmpty, s =>
    let line := s.takeWhile (· != '\n')
    let hasEnd := line.length < s.length
    let rest := s.drop (line.length + 1)
    if line.isEmpty && afterEmpty && how.squeezes then shownLines how bound number true rest
    else
      let counts := if how.numbersFilled then !line.isEmpty else how.numbers
      let front := if counts then Raw.padLeft 6 (Raw.ofNat number) ++ ['\t'] else []
      let body := line.flatMap fun c =>
        if how.controls then visible how.tabs c
        else if how.tabs && c == '\t' then ['^', 'I']
        else [c]
      let tail := if hasEnd then if how.ends then ['$', '\n'] else ['\n'] else []
      front ++ body ++ tail ++
        shownLines how bound (if counts then number + 1 else number) line.isEmpty rest

/-- Write the content of files. -/
def cat : Tool := fun arguments => do
  let g ← given (plainRules [('A', "show-all"), ('b', "number-nonblank"), ('e', ""),
    ('E', "show-ends"), ('n', "number"), ('s', "squeeze-blank"), ('t', ""), ('T', "show-tabs"),
    ('u', ""), ('v', "show-nonprinting")]) 1 false (arguments.length + 1) arguments
  let how : Showing := {
    numbers := g.has 'n'
    numbersFilled := g.has 'b'
    squeezes := g.has 's'
    ends := g.has 'E' || g.has 'A' || g.has 'e'
    tabs := g.has 'T' || g.has 'A' || g.has 't'
    controls := g.has 'v' || g.has 'A' || g.has 'e' || g.has 't' }
  if g.options.all (·.1 == 'u') then
    eachContent g.operands (unreadable 1) fun path text => do
      let w ← get
      if w.isOwnOutput path && !text.isEmpty then
        warn 1 (path ++ ": input file is output file".toList)
      else print text
  else
    let whole ← (if g.operands.isEmpty then [['-']] else g.operands).foldlM (fun all path => do
      match ← content path with
      | .ok text => return all ++ text
      | .error cause =>
        unreadable 1 path cause
        return all) []
    print (shownLines how (whole.length + 1) 1 false whole)

/-- Write texts with their lines in reverse order. -/
def tac : Tool := fun arguments => do
  let g ← given [] 1 false (arguments.length + 1) arguments
  eachContent g.operands (fun path cause =>
    warn 1 ("failed to open ".toList ++ quoted path ++ " for reading".toList ++ because cause))
    fun _ text =>
      let parts := Raw.parts '\n' text
      let last := parts.getLastD []
      print (last ++ Raw.ofLines (parts.dropLast).reverse)

/-- Write texts with each line reversed. -/
def rev : Tool := fun arguments => do
  eachContent arguments (fun path cause => warn 1 ("cannot open ".toList ++ path ++ because cause))
    fun _ text => print (['\n'].intercalate ((Raw.parts '\n' text).map List.reverse))

/-- Write texts with numbered lines. -/
def nl : Tool := fun arguments => do
  let g ← given (valuedRules [('b', "body-numbering"), ('w', "number-width"),
    ('s', "number-separator"), ('v', "starting-line-number"), ('i', "line-increment")]) 1 false
    (arguments.length + 1) arguments
  let all := g.value? 'b' == some ['a']
  let width := ((g.value? 'w').bind Number.count?).getD 6
  let separator := (g.value? 's').getD ['\t']
  let start := ((g.value? 'v').bind Number.count?).getD 1
  eachContent g.operands (unreadable 1) fun _ text => do
    let (out, _) := (Raw.lines text).foldl (fun ((out, n) : Raw × Nat) line =>
      if all || !line.isEmpty then
        (out ++ Raw.padLeft width (Raw.ofNat n) ++ separator ++ line ++ ['\n'], n + 1)
      else (out ++ List.replicate (width + separator.length) ' ' ++ ['\n'], n)) ([], start)
    print out

/-- Write the input to files as well. -/
def tee : Tool := fun arguments => do
  let g ← given (plainRules [('a', "append"), ('i', "ignore-interrupts"), ('p', "")]) 1 false
    (arguments.length + 1) arguments
  let text := match ← takeInput with
    | .ok text => text
    | .error _ => []
  g.operands.forM fun path => do
    let old ← if g.has 'a' then content path else pure (.ok [])
    match ← write path ((old.toOption.getD []) ++ text) with
    | .ok () => pure ()
    | .error cause => warn 1 (path ++ because cause)
  print text

/-! ### Beginnings and ends -/

/-- A number of units with a letter for a multiple. -/
def amount? (s : Raw) : Option Nat :=
  let digits := s.takeWhile Char.isDigit
  let n := Number.value 10 digits
  if digits.isEmpty then none
  else
    match s.drop digits.length with
    | [] => some n
    | ['b'] => some (n * 512)
    | ['k'] | ['K'] => some (n * 1024)
    | ['k', 'B'] | ['K', 'B'] => some (n * 1000)
    | ['M'] => some (n * 1048576)
    | _ => none

/-- A selection of lines or characters at one end of a text. -/
structure Selection where
  characters : Bool
  amount : Nat
  turned : Bool

/-- The units of a text: its lines with their ends, or its characters. -/
def units (characters : Bool) (text : Raw) : List Raw :=
  if characters then text.map fun c => [c]
  else
    let parts := Raw.parts '\n' text
    let last := if parts.getLast? == some [] then [] else parts.drop (parts.length - 1)
    (parts.dropLast.map (· ++ ['\n'])) ++ last

/-- The selected part at the front: so many units, or all but so many at the end. -/
def atFront (s : Selection) (text : Raw) : Raw :=
  let all := units s.characters text
  (all.take (if s.turned then all.length - s.amount else s.amount)).flatten

/-- The selected part at the end: so many units, or all from one on. -/
def atEnd (s : Selection) (text : Raw) : Raw :=
  let all := units s.characters text
  (all.drop (if s.turned then s.amount - 1 else all.length - s.amount)).flatten

/-- The first lines of arguments in the old form, as options. -/
def modernized (sign : Char) : List Raw → List Raw
  | (c :: d :: s) :: rest =>
    if c == sign && d.isDigit then
      let digits := (d :: s).takeWhile Char.isDigit
      let unit := (d :: s).drop digits.length
      let letter := if unit.head? == some 'c' then 'c' else 'n'
      ['-', letter] :: (if sign == '+' then '+' :: digits else digits) :: rest
    else (c :: d :: s) :: rest
  | all => all

/-- Show a part of each file, with a title if there are several. -/
def showParts (g : Given) (unreadable : Raw → Files.Failure → Working Unit)
    (part : Raw → Raw) : Working Unit := do
  let titled := g.has 'v' || (1 < g.operands.length && !g.has 'q')
  let paths := if g.operands.isEmpty then [['-']] else g.operands
  let _ ← paths.foldlM (fun isFirst path => do
    match ← content path with
    | .error cause =>
      unreadable path cause
      if cause == .isDirectory && titled then
        title path isFirst
        return false
      return isFirst
    | .ok text =>
      if titled then title path isFirst
      print (part text)
      return false) true
where
  title (path : Raw) (isFirst : Bool) : Working Unit :=
    let name := if path == ['-'] then "standard input".toList else path
    print ((if isFirst then [] else ['\n']) ++ "==> ".toList ++ name ++ " <==\n".toList)

def selection (g : Given) (turn : Char) : Working Selection := do
  let characters := g.last? ['c', 'n'] == some 'c'
  let value := (g.value? (if characters then 'c' else 'n')).getD ['1', '0']
  let (turned, digits) := match value with
    | c :: s =>
      if c == turn then (true, s) else if c == '-' || c == '+' then (false, s) else (false, value)
    | [] => (false, [])
  match amount? digits with
  | some n => return ⟨characters, n, turned⟩
  | none =>
    let what := if characters then "invalid number of bytes: " else "invalid number of lines: "
    fail 1 (what.toList ++ quoted value)

/-- The complaint of programs that show parts of a file. -/
def unreadablePart (path : Raw) (cause : Files.Failure) : Working Unit :=
  if cause == .isDirectory then warn 1 ("error reading ".toList ++ quoted path ++ because cause)
  else warn 1 ("cannot open ".toList ++ quoted path ++ " for reading".toList ++ because cause)

/-- Write the first lines of files. -/
def head : Tool := fun arguments => do
  let arguments := modernized '-' arguments
  let g ← given (plainRules [('q', "quiet"), ('q', "silent"), ('v', "verbose")] ++
    valuedRules [('n', "lines"), ('c', "bytes")]) 1 false (arguments.length + 1) arguments
  let s ← selection g '-'
  let before := (← get).input
  showParts g unreadablePart (atFront s)
  modify fun w =>
    if w.inputIsFile && g.operands.isEmpty then
      { w with input := before.drop (atFront s before).length }
    else w

/-- Write the last lines of files. -/
def tail : Tool := fun arguments => do
  let arguments := modernized '+' (modernized '-' arguments)
  let g ← given (plainRules [('q', "quiet"), ('q', "silent"), ('v', "verbose"), ('f', "follow"),
    ('F', "")] ++ valuedRules [('n', "lines"), ('c', "bytes"), ('s', "sleep-interval")]) 1 false
    (arguments.length + 1) arguments
  let s ← selection g '+'
  showParts g unreadablePart (atEnd s)

/-! ### Counting -/

structure Counts where
  lines : Nat := 0
  words : Nat := 0
  characters : Nat := 0
  longest : Nat := 0

namespace Counts

/-- The sum of counts; the longest line is the longest of both. -/
def add (a b : Counts) : Counts :=
  ⟨a.lines + b.lines, a.words + b.words, a.characters + b.characters, a.longest.max b.longest⟩

def wordCount : Bool → Raw → Nat
  | _, [] => 0
  | inWord, c :: s =>
    if isBlank c then wordCount false s
    else if inWord then wordCount true s
    else wordCount true s + 1

def ofText (s : Raw) : Counts where
  lines := s.count '\n'
  words := wordCount false s
  characters := s.length
  longest := (Raw.parts '\n' s).foldl (fun n line => n.max line.length) 0

end Counts

/-- Count lines, words and characters. -/
def wc : Tool := fun arguments => do
  let g ← given (plainRules [('l', "lines"), ('w', "words"), ('c', "bytes"), ('m', "chars"),
    ('L', "max-line-length")]) 1 false (arguments.length + 1) arguments
  let all := g.options.isEmpty
  let numbers (c : Counts) : List Nat :=
    (if all || g.has 'l' then [c.lines] else []) ++ (if all || g.has 'w' then [c.words] else []) ++
      (if g.has 'm' then [c.characters] else []) ++
      (if all || g.has 'c' then [c.characters] else []) ++ (if g.has 'L' then [c.longest] else [])
  let paths := if g.operands.isEmpty then [['-']] else g.operands
  let w ← get
  let sizes : List (Option Nat) := paths.map fun path =>
    if path == ['-'] then if w.inputIsFile then some w.input.length else none
    else match w.tree.find w.directory (Raw.text path) with
      | .ok (_, .file content) => some content.size
      | .ok (_, .directory) => none
      | .error _ => some 0
  let total := sizes.foldl (fun n s => n + s.getD 0) 0
  let width :=
    if paths.length = 1 && (numbers {}).length = 1 then 1
    else
      let digits := (Raw.ofNat total).length
      if sizes.any Option.isNone then digits.max 7 else digits
  let line (c : Counts) (name : Raw) : Working Unit :=
    let shown := (numbers c).map fun n => Raw.padLeft width (Raw.ofNat n)
    printLine ([' '].intercalate shown ++ (if name.isEmpty then [] else ' ' :: name))
  let sum ← paths.foldlM (fun sum path => do
    match ← content path with
    | .ok text =>
      let c := Counts.ofText text
      line c (if g.operands.isEmpty then [] else path)
      return sum.add c
    | .error cause =>
      unreadable 1 path cause
      if cause == .isDirectory then line {} path
      return sum) ({} : Counts)
  if 1 < paths.length then line sum "total".toList

/-! ### Neighbouring lines -/

/-- Lines with how often each stands in a row; the key decides which lines are equal. -/
def runs (key : Raw → Raw) : List Raw → List (Raw × Nat)
  | [] => []
  | line :: rest =>
    match runs key rest with
    | (next, n) :: more =>
      if key line == key next then (line, n + 1) :: more else (line, 1) :: (next, n) :: more
    | [] => [(line, 1)]

/-- Write each of several equal lines in a row once. -/
def uniq : Tool := fun arguments => do
  let g ← given (plainRules [('c', "count"), ('d', "repeated"), ('u', "unique"),
    ('i', "ignore-case")] ++ valuedRules [('f', "skip-fields"), ('s', "skip-chars"),
    ('w', "check-chars")]) 1 false (arguments.length + 1) arguments
  let number (letter : Char) (fallback : Nat) : Nat :=
    ((g.value? letter).bind Number.count?).getD fallback
  let skipField (s : Raw) : Raw :=
    (s.dropWhile isBlank).dropWhile fun c => !isBlank c
  let key (line : Raw) : Raw :=
    let line := (List.range (number 'f' 0)).foldl (fun s _ => skipField s) line
    let line := line.drop (number 's' 0)
    let line := match g.value? 'w' with
      | some _ => line.take (number 'w' 0)
      | none => line
    if g.has 'i' then line.map Char.toLower else line
  match g.operands with
  | _ :: _ :: extra :: _ => misused 1 ("extra operand ".toList ++ quoted extra)
  | operands =>
    match ← content (operands.headD ['-']) with
    | .error cause => unreadable 1 (operands.headD ['-']) cause
    | .ok text =>
      let kept := (runs key (Raw.lines text)).filter fun (_, n) =>
        (!g.has 'd' || 1 < n) && (!g.has 'u' || n = 1)
      let out := kept.flatMap fun (line, n) =>
        (if g.has 'c' then Raw.padLeft 7 (Raw.ofNat n) ++ [' '] else []) ++ line ++ ['\n']
      match operands with
      | [_, target] =>
        match ← write target out with
        | .ok () => pure ()
        | .error cause => unreadable 1 target cause
      | _ => print out

/-! ### Parts of lines -/

/-- A list of places such as `1,3-5,7-`: the first and the last of each range. -/
def ranges? (s : Raw) : Option (List (Nat × Option Nat)) :=
  (Raw.parts ',' s).mapM fun part =>
    let low := part.takeWhile Char.isDigit
    match part.drop low.length with
    | [] => if low.isEmpty then none else some (Number.value 10 low, some (Number.value 10 low))
    | '-' :: high =>
      if !high.all Char.isDigit || (low.isEmpty && high.isEmpty) then none
      else
        let least := if low.isEmpty then 1 else Number.value 10 low
        let most := if high.isEmpty then none else some (Number.value 10 high)
        if most.any (· < least) then none else some (least, most)
    | _ => none

def isSelected (ranges : List (Nat × Option Nat)) (place : Nat) : Bool :=
  ranges.any fun (low, high) => low ≤ place && high.all (place ≤ ·)

/-- The selected ones of a list, which is numbered from one. -/
def selected {α : Type} (ranges : List (Nat × Option Nat)) (complement : Bool) (xs : List α) :
    List α :=
  (xs.zip (List.range xs.length)).filterMap fun (x, i) =>
    if isSelected ranges (i + 1) != complement then some x else none

/-- Write parts of each line. -/
def cut : Tool := fun arguments => do
  let g ← given (plainRules [('s', "only-delimited"), ('n', ""), ('C', "complement")] ++
    valuedRules [('b', "bytes"), ('c', "characters"), ('f', "fields"), ('d', "delimiter"),
      ('O', "output-delimiter")]) 1 false (arguments.length + 1) arguments
  let kind ← match g.last? ['b', 'c', 'f'] with
    | some kind => pure kind
    | none => misused 1 "you must specify a list of bytes, characters, or fields".toList
  let list := (g.value? kind).getD []
  let fields := kind == 'f'
  let delimiter ← match g.value? 'd' with
    | some [c] => pure c
    | some _ => misused 1 "the delimiter must be a single character".toList
    | none => pure '\t'
  if g.has 'd' && !fields then
    misused 1 "an input delimiter may be specified only when operating on fields".toList
  let ranges ← match ranges? list with
    | some ranges => pure ranges
    | none =>
      let what := if fields then "invalid field value " else "invalid byte/character position "
      misused 1 (what.toList ++ quoted list)
  if ranges.any (·.1 = 0) then
    misused 1 (if fields then "fields are numbered from 1"
      else "byte/character positions are numbered from 1").toList
  let between := (g.value? 'O').getD [delimiter]
  eachContent g.operands (unreadable 1) fun _ text =>
    let out := (Raw.lines text).flatMap fun line =>
      if fields then
        let parts := Raw.parts delimiter line
        if parts.length = 1 then if g.has 's' then [] else line ++ ['\n']
        else between.intercalate (selected ranges (g.has 'C') parts) ++ ['\n']
      else selected ranges (g.has 'C') line ++ ['\n']
    print out

/-- Put the lines of several texts side by side. -/
def sideBySide (between : Raw) : Nat → List (List Raw) → Raw
  | 0, _ => []
  | bound + 1, columns =>
    if columns.all List.isEmpty then []
    else
      let row := columns.map fun column => column.headD []
      joined between 0 row ++ '\n' :: sideBySide between bound (columns.map (·.drop 1))
where
  /-- Texts with the separators between them, which are used in turn. -/
  joined (between : Raw) : Nat → List Raw → Raw
    | _, [] => []
    | _, [s] => s
    | i, s :: rest =>
      let separator := if between.isEmpty then [] else [between.getD (i % between.length) '\t']
      s ++ separator ++ joined between (i + 1) rest

/-- Join lines of files. -/
def paste : Tool := fun arguments => do
  let g ← given (plainRules [('s', "serial")] ++ valuedRules [('d', "delimiters")]) 1 false
    (arguments.length + 1) arguments
  let between := ((g.value? 'd').getD ['\t']).foldr (fun c (s : Raw) =>
    match c, s with
    | '\\', 'n' :: s => '\n' :: s
    | '\\', 't' :: s => '\t' :: s
    | '\\', '\\' :: s => '\\' :: s
    | '\\', '0' :: s => s
    | c, s => c :: s) []
  let columns ← (if g.operands.isEmpty then [['-']] else g.operands).mapM fun path => do
    match ← content path with
    | .ok text => return Raw.lines text
    | .error cause => fail 1 (path ++ because cause)
  if g.has 's' then
    columns.forM fun lines => printLine (sideBySide.joined between 0 lines)
  else
    let longest := columns.foldl (fun n c => n.max c.length) 0
    print (sideBySide between (longest + 1) columns)

/-- Break lines that are too long. -/
def fold : Tool := fun arguments => do
  let g ← given (plainRules [('b', "bytes"), ('s', "spaces")] ++ valuedRules [('w', "width")]) 1
    false (arguments.length + 1) arguments
  let width := ((g.value? 'w').bind Number.count?).getD 80
  eachContent g.operands (unreadable 1) fun _ text =>
    let out := (Raw.parts '\n' text).map fun line => pieces width (g.has 's') (line.length + 1) line
    print (['\n'].intercalate out)
where
  /-- The pieces of a line, with line ends between them. -/
  pieces (width : Nat) (atBlanks : Bool) : Nat → Raw → Raw
    | 0, line => line
    | bound + 1, line =>
      if line.length ≤ width || width = 0 then line
      else
        let front := line.take width
        let kept := (front.reverse.dropWhile (· != ' ')).reverse
        let front := if atBlanks && !kept.isEmpty then kept else front
        front ++ '\n' :: pieces width atBlanks bound (line.drop front.length)

/-! ### Characters -/

/-- The characters that a set of them names: ranges, classes, escapes and repetitions. Repetitions
without a number are filled up to a length. -/
def characterSet (length : Nat) : Nat → Raw → Except Raw Raw
  | 0, _ => .ok []
  | _, [] => .ok []
  | bound + 1, '[' :: ':' :: s =>
    let name := s.takeWhile Char.isAlpha
    match s.drop name.length with
    | ':' :: ']' :: rest =>
      match CharacterClass.ofName? name with
      | some cls => do return cls.members ++ (← characterSet length bound rest)
      | none => .error ("invalid character class ".toList ++ quoted name)
    | _ => do return '[' :: (← characterSet length bound (':' :: s))
  | bound + 1, '[' :: c :: '*' :: s =>
    let digits := s.takeWhile Char.isDigit
    match s.drop digits.length with
    | ']' :: rest => do
      let more ← characterSet length bound rest
      let count := if digits.isEmpty then length - more.length else Number.value 10 digits
      return List.replicate count c ++ more
    | _ => do return '[' :: (← characterSet length bound (c :: '*' :: s))
  | bound + 1, s =>
    let (c, rest) := single s
    match rest with
    | '-' :: d :: more =>
      let (last, rest) := single (d :: more)
      if last < c then
        .error ("range-endpoints of '".toList ++ c :: '-' :: last ::
          "' are in reverse collating sequence order".toList)
      else do
        let range := (List.range (last.toNat + 1 - c.toNat)).map fun i => Char.ofNat (c.toNat + i)
        return range ++ (← characterSet length bound rest)
    | rest => do return c :: (← characterSet length bound rest)
where
  /-- One character, perhaps escaped, with what is left. -/
  single : Raw → Char × Raw
    | '\\' :: c :: rest =>
      let digits := ((c :: rest).take 3).takeWhile fun c => '0' ≤ c && c ≤ '7'
      if !digits.isEmpty then
        (Char.ofNat (Number.value 8 digits % 256), (c :: rest).drop digits.length)
      else
        match [('n', '\n'), ('t', '\t'), ('r', '\r'), ('a', '\x07'), ('b', '\x08'), ('f', '\x0c'),
          ('v', '\x0b')].lookup c with
        | some d => (d, rest)
        | none => (c, rest)
    | c :: rest => (c, rest)
    | [] => ('\\', [])

/-- Drop repetitions of characters of a set. -/
def squeezed (set : Raw) : Option Char → Raw → Raw
  | _, [] => []
  | before, c :: s =>
    if before == some c && set.contains c then squeezed set before s
    else c :: squeezed set (some c) s

/-- Replace, remove or squeeze characters. -/
def tr : Tool := fun arguments => do
  let g ← given (plainRules [('d', "delete"), ('s', "squeeze-repeats"), ('c', "complement"),
    ('C', ""), ('t', "truncate-set1")]) 1 true (arguments.length + 1) arguments
  let deletes := g.has 'd'
  let squeezes := g.has 's'
  let (first, second) ← match g.operands with
    | [] => misused 1 "missing operand".toList
    | [first] =>
      if deletes != squeezes then pure (first, none)
      else
        complain ("missing operand after ".toList ++ quoted first)
        let why :=
          if deletes then "Two strings must be given when both deleting and squeezing repeats."
          else "Two strings must be given when translating."
        modify fun w => { w with written := (.err, why.toList ++ ['\n']) :: w.written }
        hint
        throw 1
    | [first, second] =>
      if deletes && !squeezes then
        complain ("extra operand ".toList ++ quoted second)
        modify fun w => { w with written := (.err,
          "Only one string may be given when deleting without squeezing repeats.\n".toList) ::
            w.written }
        hint
        throw 1
      else pure (first, some second)
    | _ :: _ :: extra :: _ => misused 1 ("extra operand ".toList ++ quoted extra)
  let read (length : Nat) (s : Raw) : Working Raw :=
    match characterSet length (s.length + 1) s with
    | .ok set => pure set
    | .error reason => fail 1 reason
  let set ← read 0 first
  let set := if g.has 'c' || g.has 'C' then
      ((List.range 256).map Char.ofNat).filter fun c => !set.contains c
    else set
  let target ← match second with
    | some s => some <$> read set.length s
    | none => pure none
  let text ← match ← takeInput with
    | .ok text => pure text
    | .error cause => fail 1 ("read error".toList ++ because cause)
  let translates := !deletes && target.isSome
  if translates && (target.getD []).isEmpty then
    fail 1 "when not truncating set1, string2 must be non-empty".toList
  let map (c : Char) : Char :=
    if translates then
      let goal := target.getD []
      let pairs := (set.zip (List.range set.length)).reverse
      match pairs.lookup c with
      | some i =>
        if g.has 't' && goal.length ≤ i then c else goal.getD i (goal.getLastD c)
      | none => c
    else c
  let text := if deletes then text.filter fun c => !set.contains c else text.map map
  print (if squeezes then squeezed (target.getD set) none text else text)

end LintRepair.Shell.Tool
