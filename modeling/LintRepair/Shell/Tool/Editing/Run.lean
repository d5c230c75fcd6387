import LintRepair.Shell.Tool.Editing.Reader
import LintRepair.Shell.Tool

/-!
Carrying out scripts that edit texts. The line being edited and the text that is kept aside are
remembered with the information whether a line end belongs to them, because the last line of a file
need not have one.
-/

namespace LintRepair.Shell

/-- A text that is edited, and whether it has a line end. -/
structure EditLine where
  text : Raw := []
  ended : Bool := true

/-- A line of the input: where it comes from, and whether it is the last one that counts as such. -/
structure EditInput where
  line : EditLine
  file : Raw
  number : Nat
  isLast : Bool

/-- Something that is written after the line that is being edited. -/
inductive EditLater where
  | text (s : Raw)
  | file (path : Raw)
  | line (path : Raw)

/-- A text that is being written, in reverse order, and whether its last line lacks its end. -/
structure EditOutput where
  pieces : List Raw := []
  unended : Bool := false

namespace EditOutput

/-- Write a text as it is, behind the end of the line before it. -/
def push (o : EditOutput) (s : Raw) : EditOutput :=
  { pieces := s :: (if o.unended then ['\n'] :: o.pieces else o.pieces) }

def pushLine (o : EditOutput) (stop : Char) (l : EditLine) : EditOutput :=
  let o := o.push (if l.ended then l.text ++ [stop] else l.text)
  { o with unended := !l.ended }

def text (o : EditOutput) : Raw := o.pieces.reverse.flatten

end EditOutput

/-- A text being edited. Outputs are named by the path they go to; the one without a name is the
output of the program, or the file in whose place the result is put. `active` are the ranges that
have begun, by step, with the line they end at if it is known; `others` are files that lines are
taken from one by one. -/
structure Editing where
  silent : Bool
  stop : Char
  space : EditLine := {}
  kept : EditLine := {}
  current : Option EditInput := none
  coming : List EditInput
  outputs : List (Raw × EditOutput) := [([], {})]
  later : List EditLater := []
  replaced : Bool := false
  active : List (Nat × Option Nat) := []
  lastPattern : Option EditPattern := none
  others : List (Raw × List EditLine) := []

/-- How a step goes on. -/
inductive EditNext where
  | step (place : Nat)
  | lineEnd (prints : Bool)
  | again
  | quit (prints : Bool) (status : UInt8)
  | noPattern

/-- The files that a script may read. -/
abbrev EditFiles := Raw → Option Raw

namespace Editing

def linesOf (stop : Char) (text : Raw) : List EditLine :=
  let parts := Raw.parts stop text
  parts.dropLast.map (⟨·, true⟩) ++ (if parts.getLast? == some [] then []
    else (parts.drop (parts.length - 1)).map (⟨·, false⟩))

def toOutput (e : Editing) (path : Raw) (f : EditOutput → EditOutput) : Editing :=
  let path := if path == "/dev/stdout".toList then [] else path
  if e.outputs.any (·.1 == path) then
    { e with outputs := e.outputs.map fun (p, o) => if p == path then (p, f o) else (p, o) }
  else { e with outputs := e.outputs ++ [(path, f {})] }

def printSpace (e : Editing) : Editing := e.toOutput [] (·.pushLine e.stop e.space)

/-- Print what was to be printed later. -/
def flush (e : Editing) (files : EditFiles) : Editing :=
  let e := e.later.reverse.foldl (fun e later =>
    match later with
    | .text s => e.toOutput [] (·.push s)
    | .file path =>
      match files path with
      | some text => if text.isEmpty then e else e.toOutput [] (·.push text)
      | none => e
    | .line path =>
      let lines := (e.others.lookup path).getD (linesOf e.stop ((files path).getD []))
      match lines with
      | line :: rest =>
        let e := e.toOutput [] (·.push (if line.ended then line.text ++ [e.stop] else line.text))
        { e with others := (path, rest) :: e.others.filter (·.1 != path) }
      | [] => e) e
  { e with later := [] }

/-- Move on to the next line, whose text is joined to the one being edited if asked for. -/
def advance (e : Editing) (files : EditFiles) (joins : Bool) : Option Editing :=
  match e.coming with
  | [] => none
  | next :: coming =>
    let e := e.flush files
    let line := if joins then ⟨e.space.text ++ e.stop :: next.line.text, next.line.ended⟩
      else next.line
    some { e with space := line, current := some next, coming := coming, replaced := false }

def atLast (e : Editing) : Bool := e.coming.isEmpty || e.current.any (·.isLast)

def number (e : Editing) : Nat := (e.current.map (·.number)).getD 0

/-- The expression that a pattern stands for, which becomes the one used last. -/
def meant (e : Editing) (p : EditPattern) : Option (EditPattern × Editing) :=
  match p.regular with
  | some _ => some (p, { e with lastPattern := some p })
  | none => e.lastPattern.map fun p => (p, e)

/-- Whether a condition holds for the line; none if there is no expression to use. -/
def holds (e : Editing) : LineTest → Option (Bool × Editing)
  | .number n => some (e.number == n, e)
  | .every first step =>
    some (first ≤ e.number && (e.number - first) % step == 0, e)
  | .last => some (e.atLast, e)
  | .matching p => do
    let (p, e) ← e.meant p
    let r ← p.regular
    some ((r.search p.ignoresCase p.manyLines e.space.text).isSome, e)

def setActive (e : Editing) (place : Nat) (range : Option (Option Nat)) : Editing :=
  let others := e.active.filter (·.1 != place)
  { e with active := match range with
      | some last => (place, last) :: others
      | none => others }

/-- The line where a range ends that begins at the present one, if its number is known. -/
def lastNumber (e : Editing) : RangeEnd → Option Nat
  | .test (.number n) => some n
  | .test _ => none
  | .after count => some (e.number + count)
  | .multiple n => some (if n = 0 then e.number else (e.number / n + 1) * n)

/-- Whether the line belongs to a range that has begun before. -/
def inRange (e : Editing) (place : Nat) (last : RangeEnd) (known : Option Nat) :
    Option (Bool × Editing) :=
  match known with
  | some n =>
    let e := if n ≤ e.number then e.setActive place none else e
    some (e.number ≤ n, e)
  | none =>
    match last with
    | .test t => do
      let (ends, e) ← e.holds t
      some (true, if ends then e.setActive place none else e)
    | _ => some (true, e)

def chooses (e : Editing) (place : Nat) (c : LineChoice) : Option (Bool × Editing) := do
  let (found, e) ← match c.first, c.last with
    | none, _ => some (true, e)
    | some first, none => e.holds first
    | some first, some last =>
      match e.active.lookup place with
      | some known => e.inRange place last known
      | none => do
        let startsBefore : Bool := match first with
          | .number 0 => e.number == 1
          | _ => false
        if startsBefore then (e.setActive place (some none)).inRange place last none
        else
          let (begins, e) ← e.holds first
          if !begins then some (false, e)
          else
            match e.lastNumber last with
            | some n =>
              some (true, if n ≤ e.number then e else e.setActive place (some (some n)))
            | none => some (true, e.setActive place (some none))
  some (found != c.negated, e)
/-! ### Substitution -/

/-- A text with letters changed. -/
structure Lettering where
  text : Raw := []
  lasting : LetterCase := .plain
  once : LetterCase := .plain

namespace Lettering

/-- A text with its letters changed throughout. -/
def changed (change : LetterCase) (s : Raw) : Raw :=
  match change with
  | .upper | .nextUpper => s.map Char.toUpper
  | .lower | .nextLower => s.map Char.toLower
  | .plain => s

def push (l : Lettering) (s : Raw) : Lettering :=
  match s with
  | [] => l
  | c :: rest =>
    let first := if l.once == .plain then changed l.lasting [c] else changed l.once [c]
    { l with text := l.text ++ first ++ changed l.lasting rest, once := .plain }

def note (l : Lettering) (change : LetterCase) : Lettering :=
  match change with
  | .nextUpper | .nextLower => { l with once := change }
  | change => { l with lasting := change, once := .plain }

end Lettering

/-- What stands in the place of a match. -/
def replacementFor (parts : List ReplacementPart) (text : Raw) (found : Regular.Found) : Raw :=
  (parts.foldl (fun (l : Lettering) part =>
    match part with
    | .text s => l.push s
    | .group n => l.push (found.group text n)
    | .letters change => l.note change) {}).text

/-- Replace matches from a position on; whether one was replaced. `count` numbers the next match,
and `before` is where the one before it ended. The bound is the number of positions. -/
def substituted (s : Substitution) (p : EditPattern) (r : Regular) (text : Raw) :
    Nat → Nat → Option Nat → Nat → Raw × Bool
  | 0, position, _, _ => (text.drop position, false)
  | bound + 1, position, before, count =>
    if text.length < position then ([], false)
    else
      match r.search p.ignoresCase p.manyLines text position with
      | none => (text.drop position, false)
      | some found =>
        let skipped := (text.take found.first).drop position
        let isEmpty := found.last = found.first
        let single := (text.drop found.last).take 1
        if isEmpty && before == some found.first then
          let (rest, did) := substituted s p r text bound (found.last + 1) none count
          (skipped ++ single ++ rest, did)
        else
          let counts := s.number ≤ count
          let put := if counts then replacementFor s.replacement text found
            else (text.take found.last).drop found.first
          if counts && !s.global then (skipped ++ put ++ text.drop found.last, true)
          else
            let (position, after) := if isEmpty then (found.last + 1, single) else (found.last, [])
            let (rest, did) := substituted s p r text bound position (some found.last) (count + 1)
            (skipped ++ put ++ after ++ rest, did || counts)

/-! ### Showing -/

/-- A character as it is shown when characters without a shape are made visible. -/
def revealed (c : Char) : Raw :=
  let letters : List (Char × Raw) :=
    [('\\', ['\\', '\\']), ('\x07', ['\\', 'a']), ('\x08', ['\\', 'b']), ('\x0c', ['\\', 'f']),
      ('\n', ['\\', 'n']), ('\r', ['\\', 'r']), ('\t', ['\\', 't']), ('\x0b', ['\\', 'v'])]
  match letters.lookup c with
  | some s => s
  | none =>
    if ' ' ≤ c && c ≤ '~' then [c]
    else
      let digits := Nat.toDigits 8 c.toNat
      '\\' :: List.replicate (3 - digits.length) '0' ++ digits

/-- A text with all characters made visible, in lines of a width; zero for lines of any width. -/
def revealedText (width : Nat) (s : Raw) : Raw :=
  let (out, _) := s.foldl (fun ((out, column) : Raw × Nat) c =>
    let shown := revealed c
    if 0 < width && width - 1 < column + shown.length then
      (out ++ '\\' :: '\n' :: shown, shown.length)
    else (out ++ shown, column + shown.length)) ([], 0)
  out ++ ['$', '\n']

/-! ### Steps -/

def usualWidth : Nat := 70

/-- Carry out the action of a step for the line. -/
def act (files : EditFiles) (width : Nat) (place : Nat) (e : Editing) :
    EditAction → Editing × EditNext
  | .nothing => (e, .step (place + 1))
  | .block _ => (e, .step (place + 1))
  | .jump time target =>
    let goes := match time with
      | .always => true
      | .replaced => e.replaced
      | .notReplaced => !e.replaced
    let e := if time == .always then e else { e with replaced := false }
    if !goes then (e, .step (place + 1))
    else
      match target with
      | some target => (e, .step target)
      | none => (e, .lineEnd true)
  | .append text => ({ e with later := .text text :: e.later }, .step (place + 1))
  | .insert text => (e.toOutput [] (·.push text), .step (place + 1))
  | .change text =>
    let inside := (e.active.lookup place).isSome
    (if inside then e else e.toOutput [] (·.push text), .lineEnd false)
  | .delete => (e, .lineEnd false)
  | .deleteFirst =>
    match e.space.text.dropWhile (· != e.stop) with
    | _ :: rest => ({ e with space := { e.space with text := rest } }, .again)
    | [] => (e, .lineEnd false)
  | .print => (e.printSpace, .step (place + 1))
  | .printFirst =>
    let first := e.space.text.takeWhile (· != e.stop)
    let line : EditLine :=
      if first.length < e.space.text.length then ⟨first, true⟩ else { e.space with ended := true }
    (e.toOutput [] (·.pushLine e.stop line), .step (place + 1))
  | .next =>
    if e.coming.isEmpty then (e, .lineEnd true)
    else
      let e := if e.silent then e else e.printSpace
      ((e.advance files false).getD e, .step (place + 1))
  | .joinNext =>
    if e.coming.isEmpty then (e, .lineEnd true)
    else ((e.advance files true).getD e, .step (place + 1))
  | .hold => ({ e with kept := e.space }, .step (place + 1))
  | .holdMore => ({ e with kept := joined e.stop e.kept e.space }, .step (place + 1))
  | .restore => ({ e with space := e.kept }, .step (place + 1))
  | .restoreMore => ({ e with space := joined e.stop e.space e.kept }, .step (place + 1))
  | .exchange => ({ e with space := e.kept, kept := e.space }, .step (place + 1))
  | .number => (e.toOutput [] (·.push (Raw.ofNat e.number ++ ['\n'])), .step (place + 1))
  | .reveal n =>
    (e.toOutput [] (·.push (revealedText (n.getD width) e.space.text)), .step (place + 1))
  | .quit prints status => (e, .quit prints status)
  | .read path => ({ e with later := .file path :: e.later }, .step (place + 1))
  | .readLine path => ({ e with later := .line path :: e.later }, .step (place + 1))
  | .write path => (e.toOutput path (·.pushLine e.stop e.space), .step (place + 1))
  | .writeFirst path =>
    let first := e.space.text.takeWhile (· != e.stop)
    (e.toOutput path (·.pushLine e.stop ⟨first, true⟩), .step (place + 1))
  | .clear => ({ e with space := { e.space with text := [] } }, .step (place + 1))
  | .fileName =>
    let name := (e.current.map (·.file)).getD ['-']
    (e.toOutput [] (·.push (name ++ ['\n'])), .step (place + 1))
  | .transliterate pairs =>
    let text := e.space.text.map fun c => (pairs.lookup c).getD c
    ({ e with space := { e.space with text := text } }, .step (place + 1))
  | .substitute s =>
    match e.meant s.pattern with
    | none => (e, .noPattern)
    | some (p, e) =>
      match p.regular with
      | none => (e, .noPattern)
      | some r =>
        let text := e.space.text
        let p : EditPattern := { p with
          ignoresCase := p.ignoresCase || s.pattern.ignoresCase
          manyLines := p.manyLines || s.pattern.manyLines }
        let (text, did) := substituted s p r text (text.length + 2) 0 none 1
        if !did then (e, .step (place + 1))
        else
          let e := { e with space := { e.space with text := text }, replaced := true }
          let e := if s.prints then e.printSpace else e
          let e := match s.target with
            | some path => e.toOutput path (·.pushLine e.stop e.space)
            | none => e
          (e, .step (place + 1))
where
  /-- Two texts with a line end between them. -/
  joined (stop : Char) (a b : EditLine) : EditLine :=
    ⟨a.text ++ stop :: b.text, a.ended || b.ended⟩

/-- Carry out a script from a step on. The bound is the number of steps to be taken. -/
def steps (script : EditScript) (files : EditFiles) (width : Nat) :
    Nat → Nat → Editing → Editing × EditNext
  | 0, _, e => (e, .lineEnd true)
  | bound + 1, place, e =>
    match script.steps[place]? with
    | none => (e, .lineEnd true)
    | some step =>
      match e.chooses place step.choice with
      | none => (e, .noPattern)
      | some (false, e) =>
        match step.action with
        | .block behind => steps script files width bound behind e
        | _ => steps script files width bound (place + 1) e
      | some (true, e) =>
        match act files width place e step.action with
        | (e, .step next) => steps script files width bound next e
        | (e, next) => (e, next)

/-- The most steps that are taken for one line. -/
def mostSteps : Nat := 1000000

/-- Carry out a script for the line and those that follow: the status, if the script ends the
program, or none inside if an expression is missing. -/
def cycles (script : EditScript) (files : EditFiles) (width : Nat) :
    Nat → Bool → Editing → Editing × Option (Option UInt8)
  | 0, _, e => (e, none)
  | bound + 1, again, e =>
    match if again then some e else e.advance files false with
    | none => (e, none)
    | some e =>
      let finish (prints : Bool) (e : Editing) : Editing :=
        (if prints && !e.silent then e.printSpace else e).flush files
      match steps script files width mostSteps 0 e with
      | (e, .again) => cycles script files width bound true (finish false e)
      | (e, .quit prints status) => (finish prints e, some (some status))
      | (e, .noPattern) => (e, some none)
      | (e, .lineEnd prints) => cycles script files width bound false (finish prints e)
      | (e, .step _) => cycles script files width bound false (finish true e)

/-- The most lines that are edited, those that a script makes itself included. -/
def mostCycles : Nat := 1000000

end Editing

namespace Tool

open Working

def editRules : List OptionRule :=
  plainRules [('n', "quiet"), ('n', "silent"), ('E', "regexp-extended"), ('r', ""),
    ('s', "separate"), ('u', "unbuffered"), ('z', "null-data"), ('\xe0', "posix"),
    ('\xe1', "debug"), ('\xe2', "sandbox"), ('\xe3', "follow-symlinks")] ++
  valuedRules [('e', "expression"), ('f', "file"), ('l', "line-length")] ++
  [{ letter := 'i', name := "in-place", mayTakeValue := true }]

/-- Parts of a script: the text of each, and the file it comes from, if any. -/
abbrev EditParts := List (Option Raw × Raw)

/-- The place of a fault in one of several parts of a script. -/
def faultPlace : EditParts → Nat → Nat → Raw
  | [], _, _ => []
  | (file, text) :: rest, index, place =>
    if text.length < place && !rest.isEmpty then
      faultPlace rest (if file.isSome then index else index + 1) (place - (text.length + 1))
    else
      match file with
      | some path =>
        let line := (text.take (place - 1)).count '\n' + 1
        "file ".toList ++ path ++ " line ".toList ++ Raw.ofNat line ++ ": ".toList
      | none =>
        "-e expression #".toList ++ Raw.ofNat index ++ ", char ".toList ++ Raw.ofNat place ++
          ": ".toList

def writtenPaths (script : EditScript) : List Raw :=
  script.steps.toList.filterMap fun step =>
    match step.action with
    | .write path | .writeFirst path => some path
    | .substitute s => s.target
    | _ => none

/-- The lines of files, numbered from one. -/
def inputLines (stop : Char) (files : List (Raw × Raw)) : List EditInput :=
  let all := files.flatMap fun (path, text) => (Editing.linesOf stop text).map fun l => (path, l)
  all.zipIdx.map fun ((path, line), i) => ⟨line, path, i + 1, i + 1 = all.length⟩

/-- Edit texts line by line. -/
def sed : Tool := fun arguments => do
  modify fun w => { w with
    usage :=
      "Usage: sed [OPTION]... \x7bscript-only-if-no-other-script\x7d [input-file]...\n".toList }
  let g ← given editRules 1 false (arguments.length + 1) arguments
  let parts : EditParts ← (g.options.filter fun (c, _) => c == 'e' || c == 'f').mapM
    fun (c, value) => do
      if c == 'e' then return (none, value)
      match ← content value with
      | .ok text =>
        return (some value, if text.getLast? == some '\n' then text.dropLast else text)
      | .error cause => fail 4 ("couldn't open file ".toList ++ value ++ because cause)
  let (parts, paths) : EditParts × List Raw ← match parts, g.operands with
    | [], [] =>
      hint
      throw 1
    | [], script :: paths => pure ([(none, script)], paths)
    | parts, paths => pure (parts, paths)
  let extended := g.has 'E' || g.has 'r'
  let script ← match EditScript.ofText extended (['\n'].intercalate (parts.map (·.2))) with
    | .ok script => pure script
    | .error ⟨text, none⟩ => fail 4 text
    | .error ⟨text, some 0⟩ => fail 1 ("-e expression #1, char 0: ".toList ++ text)
    | .error ⟨text, some place⟩ => fail 1 (faultPlace parts 1 place ++ text)
  let devices := ["/dev/stdout".toList, "/dev/stderr".toList]
  let targets := (writtenPaths script).filter fun path => !devices.contains path
  targets.forM fun path => do
    match ← write path [] with
    | .ok () => pure ()
    | .error cause => fail 4 ("couldn't open file ".toList ++ path ++ because cause)
  let inPlace := g.has 'i'
  if inPlace && paths.isEmpty then fail 4 "no input files".toList
  let stop := if g.has 'z' then '\x00' else '\n'
  let read (path : Raw) : Working (Option (Raw × Raw)) := do
    match ← content path with
    | .ok text => return some (path, text)
    | .error .isDirectory =>
      if inPlace then
        warn 4 ("couldn't edit ".toList ++ path ++ ": not a regular file".toList)
        return none
      else fail 4 ("read error on ".toList ++ path ++ because .isDirectory)
    | .error cause =>
      warn 2 ("can't read ".toList ++ path ++ because cause)
      return none
  let found ← (if paths.isEmpty then [['-']] else paths).filterMapM read
  let groups := if inPlace || g.has 's' then found.map fun file => [file] else [found]
  let width := ((g.value? 'l').bind Number.count?).getD Editing.usualWidth
  let w ← get
  let files : EditFiles := fun path =>
    if path == "/dev/stdin".toList then some w.input
    else (w.tree.read w.directory (Raw.text path)).toOption.map Raw.ofBytes
  let start : Editing := { silent := g.has 'n' || script.silent, stop := stop, coming := [] }
  let (e, _) ← groups.foldlM (fun ((e, isDone) : Editing × Bool) group => do
    if isDone then return (e, true)
    let e := { e with coming := inputLines stop group }
    let (e, result) := e.cycles script files width Editing.mostCycles false
    match result with
    | some none => fail 1 "-e expression #1, char 0: no previous regular expression".toList
    | some (some status) => atLeast status
    | none => pure ()
    if inPlace then
      let path := (group.head?.map (·.1)).getD []
      let suffix := (g.value? 'i').getD []
      if !suffix.isEmpty then
        let old := (group.head?.map (·.2)).getD []
        discard (write (backupPath path suffix) old)
      discard (write path (((e.outputs.lookup []).getD {}).text))
      let others := e.outputs.filter (·.1 != [])
      return ({ e with outputs := ([], {}) :: others, coming := [] }, result.isSome)
    else return ({ e with coming := [] }, result.isSome)) (start, false)
  e.outputs.forM fun (path, o) => do
    if path.isEmpty then print o.text
    else if path == "/dev/stderr".toList then
      modify fun w => { w with written := (.err, o.text) :: w.written }
    else discard (write path o.text)
where
  /-- The path of a backup: stars in the suffix stand for the name. -/
  backupPath (path suffix : Raw) : Raw :=
    if suffix.contains '*' then suffix.flatMap fun c => if c == '*' then path else [c]
    else path ++ suffix

end Tool

end LintRepair.Shell
