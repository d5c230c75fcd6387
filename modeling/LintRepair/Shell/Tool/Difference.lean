import LintRepair.Shell.Tool

/-!
Programs that compare two files.
-/

namespace LintRepair.Shell.Tool

open Working

/-- The place of the first difference of two texts: how many characters and how many lines lie
before it, and the characters there; none for one text that ends. -/
def firstDifference : Nat → Nat → Raw → Raw → Option (Nat × Nat × Option Char × Option Char)
  | _, _, [], [] => none
  | place, line, c :: _, [] => some (place, line, some c, none)
  | place, line, [], d :: _ => some (place, line, none, some d)
  | place, line, c :: s, d :: t =>
    if c == d then firstDifference (place + 1) (if c == '\n' then line + 1 else line) s t
    else some (place, line, some c, some d)

/-- Compare two files byte by byte. -/
def cmp : Tool := fun arguments => do
  modify fun w => { w with usage := "cmp: ".toList }
  let g ← given (plainRules [('s', "quiet"), ('s', "silent"), ('l', "verbose"),
    ('b', "print-bytes")] ++ valuedRules [('n', "bytes"), ('i', "ignore-initial")]) 2 false
    (arguments.length + 1) arguments
  let read (path : Raw) : Working Raw := do
    match ← content path with
    | .ok text =>
      match (g.value? 'n').bind Number.count? with
      | some n => return text.take n
      | none => return text
    | .error cause =>
      if g.has 's' then throw 2
      fail 2 (path ++ because cause)
  let (first, second) ← match g.operands with
    | [] => misused 2 "missing operand after 'cmp'".toList
    | [first] => pure (first, ['-'])
    | first :: second :: _ => pure (first, second)
  let a ← read first
  let b ← read second
  match firstDifference 0 0 a b with
  | none => pure ()
  | some (place, line, c, d) =>
    let ended (path : Raw) (text : Raw) : Working Unit :=
      let behind :=
        if text.isEmpty then " which is empty".toList
        else
          let lines := if text.getLast? == some '\n' then ", line ".toList ++ Raw.ofNat line
            else ", in line ".toList ++ Raw.ofNat (line + 1)
          " after byte ".toList ++ Raw.ofNat place ++ lines
      complain ("EOF on ".toList ++ path ++ behind)
    if !g.has 's' then
      match c, d with
      | some _, some _ =>
        printLine (first ++ ' ' :: second ++ " differ: char ".toList ++ Raw.ofNat (place + 1) ++
          ", line ".toList ++ Raw.ofNat (line + 1))
      | none, _ => ended first a
      | _, none => ended second b
    atLeast 1

/-! ### Differences by line -/

/-- A line of a text; the last one may have no end. -/
structure TextLine where
  text : Raw
  ended : Bool
deriving DecidableEq, Repr

def textLines (s : Raw) : List TextLine :=
  let parts := Raw.parts '\n' s
  parts.dropLast.map (⟨·, true⟩) ++
    (if parts.getLast? == some [] then [] else (parts.drop (parts.length - 1)).map (⟨·, false⟩))

/-- The lengths of the longest common parts of a list with each end of another one. -/
def commonLengths (a : TextLine) (bs : List TextLine) (below : List Nat) : List Nat :=
  match bs, below with
  | b :: bs, here :: rest =>
    let later := commonLengths a bs rest
    (if a == b then rest.headD 0 + 1 else here.max (later.headD 0)) :: later
  | _, _ => [0]

/-- The lengths of the longest common parts of all ends of two lists. -/
def commonTable (bs : List TextLine) : List TextLine → List (List Nat)
  | [] => [List.replicate (bs.length + 1) 0]
  | a :: as =>
    let below := commonTable bs as
    commonLengths a bs (below.headD []) :: below

/-- How lines of two texts correspond. -/
inductive Edit where
  | same (a b : TextLine)
  | removed (a : TextLine)
  | added (b : TextLine)

/-- The edits that make one list of lines into another one. -/
def edits : List (List Nat) → List TextLine → List TextLine → List Edit
  | _, [], bs => bs.map .added
  | table, a :: as, bs =>
    go table a as bs
where
  /-- The edits at a line of the first list. -/
  go (table : List (List Nat)) (a : TextLine) (as : List TextLine) : List TextLine → List Edit
    | [] => (a :: as).map .removed
    | b :: bs =>
      let here := table.headD []
      let below := table.drop 1
      if a == b then .same a b :: edits (below.map (·.drop 1)) as bs
      else if (below.headD []).headD 0 ≥ (here.drop 1).headD 0 then
        .removed a :: edits below as (b :: bs)
      else .added b :: go (table.map (·.drop 1)) a as bs

/-- Lines that were removed or added at one place: how many lines of each text stand before it. -/
structure Hunk where
  beforeFirst : Nat
  beforeSecond : Nat
  removed : List TextLine
  added : List TextLine

/-- The places where texts differ. -/
def hunks : Nat → Nat → Option Hunk → List Edit → List Hunk
  | _, _, current, [] => current.toList
  | i, j, current, .same _ _ :: rest => current.toList ++ hunks (i + 1) (j + 1) none rest
  | i, j, current, .removed a :: rest =>
    let h := current.getD ⟨i, j, [], []⟩
    hunks (i + 1) j (some { h with removed := h.removed ++ [a] }) rest
  | i, j, current, .added b :: rest =>
    let h := current.getD ⟨i, j, [], []⟩
    hunks i (j + 1) (some { h with added := h.added ++ [b] }) rest

namespace Hunk

/-- The numbers of lines, as a range. -/
def range (before count : Nat) : Raw :=
  if count = 0 then Raw.ofNat before
  else if count = 1 then Raw.ofNat (before + 1)
  else Raw.ofNat (before + 1) ++ ',' :: Raw.ofNat (before + count)

def marked (mark : Raw) (l : TextLine) : Raw :=
  mark ++ l.text ++ ['\n'] ++ (if l.ended then [] else "\\ No newline at end of file\n".toList)

def text (h : Hunk) : Raw :=
  let letter := if h.removed.isEmpty then 'a' else if h.added.isEmpty then 'd' else 'c'
  range h.beforeFirst h.removed.length ++ letter :: range h.beforeSecond h.added.length ++ ['\n'] ++
    h.removed.flatMap (marked "< ".toList) ++
    (if letter == 'c' then "---\n".toList else []) ++ h.added.flatMap (marked "> ".toList)

end Hunk

/-- A unified list of the differences, with lines around them. -/
def unified (context : Nat) (es : List Edit) : Raw :=
  let numbered := (number 0 0 es).zipIdx.map fun ((first, second, e), i) => (i, first, second, e)
  let changed := numbered.filterMap fun (i, _, _, e) =>
    match e with
    | .same _ _ => none
    | _ => some i
  let shown := numbered.filter fun (i, _, _, _) =>
    changed.any fun c => c ≤ i + context && i ≤ c + context
  (groups shown).flatMap fun group =>
    match group with
    | [] => []
    | (_, first, second, _) :: _ =>
      let olds := (group.filter fun (_, _, _, e) => isOld e).length
      let news := (group.filter fun (_, _, _, e) => isNew e).length
      "@@ -".toList ++ span first olds ++ " +".toList ++ span second news ++ " @@\n".toList ++
        group.flatMap fun (_, _, _, e) => line e
where
  /-- Edits with the numbers of the lines before them. -/
  number : Nat → Nat → List Edit → List (Nat × Nat × Edit)
    | _, _, [] => []
    | i, j, e :: rest =>
      let (i', j') := match e with
        | .same _ _ => (i + 1, j + 1)
        | .removed _ => (i + 1, j)
        | .added _ => (i, j + 1)
      (i, j, e) :: number i' j' rest
  /-- Whether an edit shows a line of the first text. -/
  isOld : Edit → Bool
    | .added _ => false
    | _ => true
  /-- Whether an edit shows a line of the second text. -/
  isNew : Edit → Bool
    | .removed _ => false
    | _ => true
  /-- The numbers of lines in a head. -/
  span (before count : Nat) : Raw :=
    if count = 1 then Raw.ofNat (before + 1)
    else Raw.ofNat (if count = 0 then before else before + 1) ++ ',' :: Raw.ofNat count
  /-- The text of an edit. -/
  line : Edit → Raw
    | .same a _ => Hunk.marked [' '] a
    | .removed a => Hunk.marked ['-'] a
    | .added b => Hunk.marked ['+'] b
  /-- Edits that follow one another, in groups. -/
  groups : List (Nat × Nat × Nat × Edit) → List (List (Nat × Nat × Nat × Edit))
    | [] => []
    | x :: rest =>
      match groups rest with
      | (y :: ys) :: more =>
        if x.1 + 1 = y.1 then (x :: y :: ys) :: more else [x] :: (y :: ys) :: more
      | more => [x] :: more

/-- Compare two files line by line. -/
def diff : Tool := fun arguments => do
  modify fun w => { w with usage := "diff: ".toList }
  let g ← given (plainRules [('q', "brief"), ('s', "report-identical-files"), ('u', ""),
    ('i', "ignore-case"), ('w', "ignore-all-space"), ('b', "ignore-space-change"),
    ('B', "ignore-blank-lines"), ('r', "recursive"), ('N', "new-file"), ('a', "text"),
    ('\xe0', "normal"), ('\xe1', "strip-trailing-cr")] ++
    valuedRules [('U', "unified"), ('L', "label")]) 2 false (arguments.length + 1) arguments
  let (first, second) ← match g.operands with
    | [] => misused 2 "missing operand after 'diff'".toList
    | [first] => misused 2 ("missing operand after ".toList ++ quoted first)
    | [first, second] => pure (first, second)
    | _ :: _ :: extra :: _ => misused 2 ("extra operand ".toList ++ quoted extra)
  let read (path : Raw) : Working (Option Raw) := do
    match ← content path with
    | .ok text => return some text
    | .error cause =>
      if g.has 'N' && cause == .notFound then return some []
      warn 2 (path ++ because cause)
      return none
  let a ← read first
  let b ← read second
  match a, b with
  | some a, some b =>
    let prepared (l : TextLine) : TextLine :=
      let s := if g.has 'i' then l.text.map Char.toLower else l.text
      let s := if g.has 'w' then s.filter fun c => !isBlank c else s
      { l with text := s }
    let as := textLines a
    let bs := textLines b
    let as' := as.map prepared
    let bs' := bs.map prepared
    if as' == bs' then
      if g.has 's' then
        printLine ("Files ".toList ++ first ++ " and ".toList ++ second ++ " are identical".toList)
    else
      atLeast 1
      if g.has 'q' then
        printLine ("Files ".toList ++ first ++ " and ".toList ++ second ++ " differ".toList)
      else
        let es := edits (commonTable bs' as') as' bs'
        if g.has 'u' || g.has 'U' then
          let labels := g.values 'L'
          printLine ("--- ".toList ++ labels.headD first)
          printLine ("+++ ".toList ++ labels.getD 1 second)
          print (unified (((g.value? 'U').bind Number.count?).getD 3) es)
        else (hunks 0 0 none es).forM fun h => print h.text
  | _, _ => pure ()

end LintRepair.Shell.Tool
