import LintRepair.Shell.Formatted
import LintRepair.Shell.Tool

/-!
Programs that put lines in order or rely on their order. What lines are compared by is a list of
keys, each a part of the line and a way of comparing such parts.
-/

namespace LintRepair.Shell.Tool

open Working

/-- A way of comparing parts of lines. -/
inductive Comparison where
  | text
  | number
  | general
  | human
  | version
  | month
deriving DecidableEq, Repr

/-- A place in a line: how many fields and then how many characters stand before it. -/
structure FieldPlace where
  fields : Nat
  characters : Nat
  skipsBlanks : Bool := false

/-- What lines are compared by. -/
structure SortKey where
  first : FieldPlace := ⟨0, 0, false⟩
  last : Option FieldPlace := none
  comparison : Comparison := .text
  reversed : Bool := false
  foldsCase : Bool := false
  onlyWords : Bool := false
  onlyPrintable : Bool := false

namespace SortKey

/-- The letters that say how parts are compared. -/
def comparisons : List (Char × Comparison) :=
  [('n', .number), ('g', .general), ('h', .human), ('V', .version), ('M', .month)]

/-- A key with what a letter asks for; none if the letter means nothing. `isStart` tells whether the
letter stands behind the place where the part begins. -/
def withLetter? (k : SortKey) (isStart : Bool) (letter : Char) : Option SortKey :=
  match comparisons.lookup letter with
  | some c => some { k with comparison := c }
  | none =>
    match letter with
    | 'b' =>
      if isStart then some { k with first := { k.first with skipsBlanks := true } }
      else some { k with last := k.last.map fun place => { place with skipsBlanks := true } }
    | 'd' => some { k with onlyWords := true }
    | 'i' => some { k with onlyPrintable := true }
    | 'f' => some { k with foldsCase := true }
    | 'r' => some { k with reversed := true }
    | 'R' => some k
    | _ => none

/-- Whether nothing was asked for but a part of the line. -/
def isPlain (k : SortKey) : Bool :=
  k.comparison == .text && !k.foldsCase && !k.onlyWords && !k.onlyPrintable &&
    !k.first.skipsBlanks && !(k.last.any (·.skipsBlanks))

/-- What is left of a line behind a number of fields. -/
def afterFields (separator : Option Char) : Nat → Raw → Raw
  | 0, s => s
  | n + 1, s =>
    match separator with
    | some c =>
      match s.dropWhile (· != c) with
      | _ :: rest => afterFields separator n rest
      | [] => []
    | none =>
      afterFields separator n ((s.dropWhile isFieldBlank).dropWhile fun c => !isFieldBlank c)
where
  /-- A blank between fields. -/
  isFieldBlank (c : Char) : Bool := c == ' ' || c == '\t' || c == '\n'

/-- How many characters of a line stand before a place where a part begins. -/
def startOf (separator : Option Char) (place : FieldPlace) (line : Raw) : Nat :=
  let s := afterFields separator place.fields line
  let s := if place.skipsBlanks then s.dropWhile afterFields.isFieldBlank else s
  line.length - (s.drop place.characters).length

/-- How many characters of a line stand before the end of a part. -/
def endOf (separator : Option Char) (place : FieldPlace) (line : Raw) : Nat :=
  if place.characters = 0 then
    match separator with
    | some c =>
      let before := line.length - (afterFields separator place.fields line).length
      let field := (line.drop before).takeWhile (· != c)
      before + field.length
    | none => line.length - (afterFields separator (place.fields + 1) line).length
  else startOf separator place line

def partOf (k : SortKey) (separator : Option Char) (line : Raw) : Raw :=
  let start := startOf separator k.first line
  let stop := match k.last with
    | some place => endOf separator place line
    | none => line.length
  (line.take stop).drop start

end SortKey

/-! ### Comparing parts -/

def compareTexts : Raw → Raw → Ordering
  | [], [] => .eq
  | [], _ :: _ => .lt
  | _ :: _, [] => .gt
  | c :: s, d :: t => if c < d then .lt else if d < c then .gt else compareTexts s t

/-- The decimal number at the front of a text: its digits before and behind the point, with its
sign; text without digits counts as zero. -/
structure LeadingNumber where
  negative : Bool
  whole : Nat
  part : Raw
  rest : Raw

namespace LeadingNumber

def ofText (s : Raw) : LeadingNumber :=
  let s := s.dropWhile isBlank
  let (negative, s) := match s with
    | '-' :: s => (true, s)
    | s => (false, s)
  let whole := s.takeWhile Char.isDigit
  let (part, rest) : Raw × Raw := match s.drop whole.length with
    | '.' :: t => let part := t.takeWhile Char.isDigit; (part, t.drop part.length)
    | t => ([], t)
  ⟨negative, Number.value 10 whole, part, rest⟩

def scaled (n : LeadingNumber) (places : Nat) : Int :=
  let digits := n.part ++ List.replicate (places - n.part.length) '0'
  let magnitude : Int := (n.whole * Nat.pow 10 digits.length + Number.value 10 digits : Nat)
  if n.negative then -magnitude else magnitude

def compare (a b : LeadingNumber) : Ordering :=
  let places := a.part.length.max b.part.length
  Ord.compare (a.scaled places) (b.scaled places)

def unit (n : LeadingNumber) : Nat :=
  if n.whole = 0 && n.part.all (· == '0') then 0
  else
    match n.rest with
    | c :: _ => (("KMGTPEZY".toList.idxOf? c.toUpper).map (· + 1)).getD 0
    | [] => 0

/-- Compare numbers with units: first by unit, then by value. -/
def compareWithUnits (a b : LeadingNumber) : Ordering :=
  let order (n : LeadingNumber) : Int := if n.negative then -(n.unit : Int) else n.unit
  (Ord.compare (order a) (order b)).then (compare a b)

end LeadingNumber

/-- Compare numbers that may have exponents; text that is no number stands first. -/
def compareGenerally (a b : Raw) : Ordering :=
  let read (s : Raw) : Option (Int × Nat) :=
    let (negative, s) := match s.dropWhile isBlank with
      | '-' :: s => (true, s)
      | '+' :: s => (false, s)
      | s => (false, s)
    (Formatting.pointedDigits 10 s).map fun (digits, places, rest) =>
      let (exponent, _) := Formatting.exponentAt 'e' rest
      let exponent := max (exponent - places) (-Formatting.exponentLimit)
      let exponent := min exponent Formatting.exponentLimit
      let up : Nat := if 0 ≤ exponent then digits * Nat.pow 10 exponent.toNat else digits
      let down := if exponent < 0 then Nat.pow 10 (-exponent).toNat else 1
      (if negative then -(up : Int) else up, down)
  match read a, read b with
  | none, none => .eq
  | none, some _ => .lt
  | some _, none => .gt
  | some (m, d), some (n, e) => Ord.compare (m * e) (n * d)

/-- The place of a character in versions: a tilde stands first, then letters, then the others. -/
def versionWeight (c : Option Char) : Int :=
  match c with
  | none => 0
  | some c =>
    if c == '~' then -1
    else if c.isDigit then 0
    else if c.isAlpha then c.toNat
    else c.toNat + 256

/-- Compare versions: digits by value, what is between them character by character. The bound is the
sum of the lengths. -/
def compareVersions : Nat → Raw → Raw → Ordering
  | 0, _, _ => .eq
  | bound + 1, a, b =>
    let isPlace (c : Option Char) : Bool := c.any fun c => !c.isDigit
    if isPlace a.head? || isPlace b.head? then
      (Ord.compare (versionWeight a.head?) (versionWeight b.head?)).then
        (compareVersions bound (if isPlace a.head? then a.drop 1 else a)
          (if isPlace b.head? then b.drop 1 else b))
    else if a.isEmpty && b.isEmpty then .eq
    else
      let m := a.takeWhile Char.isDigit
      let n := b.takeWhile Char.isDigit
      (Ord.compare (Number.value 10 m) (Number.value 10 n)).then
        (compareVersions bound (a.drop m.length) (b.drop n.length))

/-- The number of a month by the letters its name begins with. -/
def monthOf (s : Raw) : Nat :=
  let name := ((s.dropWhile isBlank).take 3).map Char.toUpper
  let months := ["JAN", "FEB", "MAR", "APR", "MAY", "JUN", "JUL", "AUG", "SEP", "OCT", "NOV", "DEC"]
  ((months.findIdx? (·.toList == name)).map (· + 1)).getD 0

namespace SortKey

def compareParts (k : SortKey) (a b : Raw) : Ordering :=
  let prepared (s : Raw) : Raw :=
    let s := if k.onlyWords then s.filter fun c => c.isAlphanum || c == ' ' || c == '\t' else s
    let s := if k.onlyPrintable then s.filter fun c => ' ' ≤ c && c ≤ '~' else s
    if k.foldsCase then s.map Char.toUpper else s
  let order := match k.comparison with
    | .text => compareTexts (prepared a) (prepared b)
    | .number => LeadingNumber.compare (.ofText a) (.ofText b)
    | .general => compareGenerally a b
    | .human => LeadingNumber.compareWithUnits (.ofText a) (.ofText b)
    | .version =>
      (compareVersions (a.length + b.length + 1) a b).then (compareTexts a b)
    | .month => Ord.compare (monthOf a) (monthOf b)
  if k.reversed then order.swap else order

end SortKey

/-! ### Orders of lines -/

/-- An order of lines: keys, and what decides when none of them does. -/
structure LineOrder where
  keys : List SortKey
  separator : Option Char
  reversed : Bool
  lastResort : Bool

namespace LineOrder

def compareKeys (o : LineOrder) (a b : Raw) : Ordering :=
  o.keys.foldl (fun found k =>
    found.then (k.compareParts (k.partOf o.separator a) (k.partOf o.separator b))) .eq

def compare (o : LineOrder) (a b : Raw) : Ordering :=
  let byKeys := o.compareKeys a b
  if !o.keys.isEmpty && (byKeys != .eq || !o.lastResort) then byKeys
  else
    let order := compareTexts a b
    if o.reversed then order.swap else order

/-- Merge lists of lines that are in order. The bound is the number of lines. -/
def merged (o : LineOrder) : Nat → List (List Raw) → List Raw
  | 0, _ => []
  | bound + 1, lists =>
    let heads := lists.filterMap List.head?
    match heads with
    | [] => []
    | first :: others =>
      let least := others.foldl (fun least line =>
        if o.compare line least == .lt then line else least) first
      least :: merged o bound (dropFirst least lists)
where
  /-- The lists without the first line of the first one that begins with it. -/
  dropFirst (line : Raw) : List (List Raw) → List (List Raw)
    | [] => []
    | (first :: rest) :: lists =>
      if first == line then rest :: lists else (first :: rest) :: dropFirst line lists
    | [] :: lists => [] :: dropFirst line lists

/-- The first of each run of lines that compare as equal. -/
def withoutEquals (o : LineOrder) : List Raw → List Raw
  | [] => []
  | line :: lines =>
    line :: (withoutEquals o lines).dropWhile fun next => o.compare line next == .eq

/-- The first line that stands in the wrong place, with its number. -/
def disorder? (o : LineOrder) (strict : Bool) : Nat → List Raw → Option (Nat × Raw)
  | n, a :: b :: rest =>
    let order := o.compare a b
    if order == .gt || (strict && order == .eq) then some (n + 1, b)
    else disorder? o strict (n + 1) (b :: rest)
  | _, _ => none

end LineOrder

/-- A number at the front of a key, with what is left. -/
def countAt (s : Raw) : Option (Nat × Raw) :=
  let digits := s.takeWhile Char.isDigit
  if digits.isEmpty then none else some (Number.value 10 digits, s.drop digits.length)

def sortKey (whole : Raw) : Working SortKey := do
  let refuse {α : Type} (what : String) : Working α :=
    fail 2 (what.toList ++ ": invalid field specification ".toList ++ quoted whole)
  let noNumber {α : Type} (what : String) (s : Raw) : Working α :=
    fail 2 (what.toList ++ ": invalid count at start of ".toList ++ quoted s)
  let characters (s : Raw) (what : String) : Working (Option Nat × Raw) := do
    match s with
    | '.' :: t =>
      match countAt t with
      | some (n, t) => return (some n, t)
      | none => noNumber what t
    | s => return (none, s)
  let letters (isStart : Bool) (k : SortKey) (s : Raw) : SortKey × Raw :=
    s.foldl (fun ((k, left) : SortKey × Raw) c =>
      if !left.isEmpty then (k, left ++ [c])
      else
        match k.withLetter? isStart c with
        | some k => (k, [])
        | none => (k, [c])) (k, [])
  let (field, s) ← match countAt whole with
    | some found => pure found
    | none => noNumber "invalid number at field start" whole
  if field = 0 then refuse "field number is zero"
  let (character, s) ← characters s "invalid number after '.'"
  if character == some 0 then refuse "character offset is zero"
  let k : SortKey := { first := ⟨field - 1, character.getD 1 - 1, false⟩ }
  let (k, s) := letters true k s
  match s with
  | [] => return k
  | ',' :: t =>
    let (field, t) ← match countAt t with
      | some found => pure found
      | none => noNumber "invalid number after ','" t
    if field = 0 then refuse "field number is zero"
    let (character, t) ← characters t "invalid number after '.'"
    let (k, t) := letters false { k with last := some ⟨field - 1, character.getD 0, false⟩ } t
    if t.isEmpty then return k else refuse "stray character in field spec"
  | _ => refuse "stray character in field spec"

def sort : Tool := fun arguments => do
  let g ← given (plainRules [('b', "ignore-leading-blanks"), ('d', "dictionary-order"),
    ('f', "ignore-case"), ('g', "general-numeric-sort"), ('i', "ignore-nonprinting"),
    ('M', "month-sort"), ('h', "human-numeric-sort"), ('n', "numeric-sort"), ('R', "random-sort"),
    ('r', "reverse"), ('V', "version-sort"), ('c', "check"), ('C', ""), ('m', "merge"),
    ('s', "stable"), ('u', "unique"), ('z', "zero-terminated")] ++
    valuedRules [('k', "key"), ('o', "output"), ('t', "field-separator"), ('S', "buffer-size"),
      ('T', "temporary-directory"), ('y', "")]) 2 false (arguments.length + 1) arguments
  let keys ← (g.values 'k').mapM sortKey
  let separator ← match g.value? 't' with
    | none => pure none
    | some [] => fail 2 "empty tab".toList
    | some [c] => pure (some c)
    | some ['\\', '0'] => pure (some '\x00')
    | some s => fail 2 ("multi-character tab ".toList ++ quoted s)
  let general := g.options.foldl (fun (k : SortKey) (letter, _) =>
    if letter == 'k' then k else (k.withLetter? true letter).getD k) ({} : SortKey)
  let keys := keys.map fun k =>
    if k.isPlain && !k.reversed then
      { general with
        first := { k.first with skipsBlanks := general.first.skipsBlanks }
        last := k.last.map fun place => { place with skipsBlanks := general.first.skipsBlanks } }
    else k
  let keys := if keys.isEmpty && !general.isPlain then [general] else keys
  let order : LineOrder := {
    keys := keys
    separator := separator
    reversed := g.has 'r'
    lastResort := !g.has 's' && !g.has 'u' }
  let stop := if g.has 'z' then '\x00' else '\n'
  let paths := if g.operands.isEmpty then [['-']] else g.operands
  let texts ← paths.mapM fun path => do
    match ← content path with
    | .ok text =>
      let parts := Raw.parts stop text
      return if parts.getLast? == some [] then parts.dropLast else parts
    | .error cause =>
      let what := if cause == .isDirectory then "read failed: " else "cannot read: "
      fail 2 (what.toList ++ path ++ because cause)
  if g.has 'c' || g.has 'C' then
    match paths with
    | _ :: extra :: _ =>
      fail 2 ("extra operand ".toList ++ quoted extra ++ " not allowed with -c".toList)
    | _ => pure ()
    match order.disorder? (g.has 'u') 1 texts.flatten with
    | some (n, line) =>
      if !g.has 'C' then
        complain (paths.headD [] ++ ':' :: Raw.ofNat n ++ ": disorder: ".toList ++ line)
      atLeast 1
    | none => pure ()
  else
    let all := texts.flatten
    let lines := if g.has 'm' then order.merged (all.length + 1) texts
      else all.mergeSort fun a b => order.compare a b != .gt
    let lines := if g.has 'u' then order.withoutEquals lines else lines
    let out := lines.flatMap (· ++ [stop])
    match g.value? 'o' with
    | none => print out
    | some path =>
      match ← write path out with
      | .ok () => pure ()
      | .error cause => fail 2 ("open failed: ".toList ++ path ++ because cause)

/-! ### Lines in common -/

/-- The lines of two ordered texts, each with the column it belongs to: only in the first text, only
in the second one, or in both. The bound is the number of lines. -/
def columns : Nat → List Raw → List Raw → List (Nat × Raw)
  | 0, _, _ => []
  | bound + 1, a :: as, b :: bs =>
    match compareTexts a b with
    | .lt => (0, a) :: columns bound as (b :: bs)
    | .gt => (1, b) :: columns bound (a :: as) bs
    | .eq => (2, a) :: columns bound as bs
  | bound + 1, a :: as, [] => (0, a) :: columns bound as []
  | bound + 1, [], b :: bs => (1, b) :: columns bound [] bs
  | _, [], [] => []

/-- Compare two files whose lines are in order. -/
def comm : Tool := fun arguments => do
  let g ← given (plainRules [('1', ""), ('2', ""), ('3', ""), ('z', "zero-terminated")]) 1 false
    (arguments.length + 1) arguments
  let (first, second) ← match g.operands with
    | [] => misused 1 "missing operand".toList
    | [only] => misused 1 ("missing operand after ".toList ++ quoted only)
    | [first, second] => pure (first, second)
    | _ :: _ :: extra :: _ => misused 1 ("extra operand ".toList ++ quoted extra)
  let linesOf (path : Raw) : Working (List Raw) := do
    match ← content path with
    | .ok text => return Raw.lines text
    | .error cause => fail 1 (path ++ because cause)
  let as ← linesOf first
  let bs ← linesOf second
  let hidden := [g.has '1', g.has '2', g.has '3']
  let all := columns (as.length + bs.length + 1) as bs
  all.forM fun (column, line) => do
    if hidden.getD column false then pure ()
    else
      let tabs := ((hidden.take column).filter (!·)).length
      printLine (List.replicate tabs '\t' ++ line)
  let inOrder (lines : List Raw) : Bool :=
    all.all (·.1 == 2) || ((⟨[], none, false, true⟩ : LineOrder).disorder? false 1 lines).isNone
  if !inOrder as then complain "file 1 is not in sorted order".toList
  if !inOrder bs then complain "file 2 is not in sorted order".toList
  if !inOrder as || !inOrder bs then
    complain "input is not in sorted order".toList
    atLeast 1

end LintRepair.Shell.Tool
