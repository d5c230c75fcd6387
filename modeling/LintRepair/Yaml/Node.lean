import LintRepair.Yaml.Lexer

/-!
YAML documents as trees. Anchored nodes are numbered, and a reference to one is kept as its number,
so a tree stays finite even if a node refers to what contains it.
-/

namespace LintRepair.Yaml

/-- A node of a document. -/
inductive Node where
  | reference (number : Nat)
  | scalar (tag : Option (List UInt8)) (style : Style) (text : String)
  | sequence (tag : Option (List UInt8)) (items : List Node)
  | mapping (tag : Option (List UInt8)) (entries : List (Node × Node))
deriving Repr

def Node.empty (tag : Option (List UInt8)) : Node := .scalar tag .plain ""

/-- A document: its root, and the numbered nodes in the order in which they begin. -/
structure Document where
  root : Node
  anchored : List (Nat × Node)
deriving Repr

/-- The node that a reference stands for. A number that is given again stands for the later node. -/
def Document.resolve (d : Document) : Node → Option Node
  | .reference number => d.anchored.reverse.lookup number
  | node => some node

/-- A document under construction: the tokens that are left, what the tag handles stand for, the
anchors' numbers, and the nodes that have begun. -/
structure Draft where
  tokens : List Token
  handles : List (String × List UInt8)
  numbers : List (String × Nat)
  anchored : List (Nat × Node)

abbrev Build (α : Type) := StateT Draft Option α

namespace Build

def peek : Build (Option Token) := return (← get).tokens.head?

def pass : Build Unit := modify fun d => { d with tokens := d.tokens.tail }

/-- Pass over the given token, and tell whether it was there. -/
def passIf (t : Token) : Build Bool := do
  if (← peek) == some t then
    pass
    return true
  else return false

/-- Pass over the given token, which has to be there. -/
def require (t : Token) : Build Unit := do
  unless ← passIf t do failure

/-- Whether the next token is one of those given, or missing. -/
def nextIn (ts : List Token) : Build Bool := do
  match ← peek with
  | some t => return ts.contains t
  | none => return true

/-- Give the next node an anchor, and tell its place among the anchored nodes. Its number is the
count of the names in use before. -/
def anchor (name : String) : Build Nat :=
  modifyGet fun d =>
    let number := d.numbers.length
    (d.anchored.length,
      { d with
        numbers := (name, number) :: d.numbers.filter (·.1 != name)
        anchored := d.anchored ++ [(number, .empty none)] })

/-- Put a finished node at its place among the anchored ones. -/
def place (slot : Option Nat) (node : Node) : Build Node := do
  match slot with
  | some i => modify fun d =>
    { d with anchored := d.anchored.modify i fun (number, _) => (number, node) }
  | none => pure ()
  return node

/-- The tag that a handle and a suffix write. -/
def expand (handle : String) (suffix : List UInt8) : Build (List UInt8) := do
  if handle.isEmpty then return suffix
  else
    match (← get).handles.lookup handle with
    | some expansion => return expansion ++ suffix
    | none => failure

/-- The anchor before a node, if there is one. -/
def anchor? : Build (Option Nat) := do
  match ← peek with
  | some (.anchor name) =>
    pass
    return some (← anchor name)
  | _ => return none

/-- The tag before a node, if there is one. -/
def tag? : Build (Option (List UInt8)) := do
  match ← peek with
  | some (.tag handle suffix) =>
    pass
    return some (← expand handle suffix)
  | _ => return none

/-- The anchor and the tag before a node, in either order. -/
def properties : Build (Option Nat × Option (List UInt8)) := do
  let first ← anchor?
  let tag ← tag?
  let place ← if first.isSome then pure first else anchor?
  return (place, tag)

/-! Every construction below takes a bound that the number of tokens satisfies. -/

mutual

/-- A node. Blocks may stand in blocks only; as a key or a value of a block, items may stand without
deeper indentation. -/
def node (inBlock asEntry : Bool) : Nat → Build Node
  | 0 => failure
  | bound + 1 => do
    match ← peek with
    | some (.reference name) =>
      pass
      match (← get).numbers.lookup name with
      | some number => return .reference number
      | none => failure
    | _ =>
      let (slot, tag) ← properties
      let next ← peek
      if asEntry && next == some .blockEntry then
        place slot (.sequence tag (← items bound))
      else
        match next with
        | some (.scalar style text) =>
          pass
          place slot (.scalar tag style text)
        | some .flowSequenceStart =>
          pass
          if ← passIf .flowSequenceEnd then place slot (.sequence tag [])
          else place slot (.sequence tag (← flowItems bound))
        | some .flowMappingStart =>
          pass
          if ← passIf .flowMappingEnd then place slot (.mapping tag [])
          else place slot (.mapping tag (← flowEntries bound))
        | some .blockSequenceStart =>
          if inBlock then
            pass
            place slot (.sequence tag (← blockItems bound))
          else failure
        | some .blockMappingStart =>
          if inBlock then
            pass
            place slot (.mapping tag (← blockEntries bound))
          else failure
        | _ => if slot.isSome || tag.isSome then place slot (.empty tag) else failure

/-- A node, or an empty scalar before one of the given tokens. -/
def nodeUnless (inBlock asEntry : Bool) (ends : List Token) : Nat → Build Node
  | 0 => failure
  | bound + 1 => do
    if ← nextIn ends then return .empty none else node inBlock asEntry bound

/-- The items of a sequence without a block of its own. -/
def items : Nat → Build (List Node)
  | 0 => failure
  | bound + 1 => do
    if ← passIf .blockEntry then
      let item ← nodeUnless true false [.blockEntry, .key, .value, .blockEnd] bound
      return item :: (← items bound)
    else return []

/-- The items of a block, to its end. -/
def blockItems : Nat → Build (List Node)
  | 0 => failure
  | bound + 1 => do
    if ← passIf .blockEntry then
      let item ← nodeUnless true false [.blockEntry, .blockEnd] bound
      return item :: (← blockItems bound)
    else
      require .blockEnd
      return []

/-- The entries of a block, to its end. -/
def blockEntries : Nat → Build (List (Node × Node))
  | 0 => failure
  | bound + 1 => do
    if ← passIf .key then
      let ends : List Token := [.key, .value, .blockEnd]
      let key ← nodeUnless true true ends bound
      let value ←
        if ← passIf .value then nodeUnless true true ends bound else pure (.empty none)
      return (key, value) :: (← blockEntries bound)
    else
      require .blockEnd
      return []

/-- The items between square brackets, before an item. A key begins a mapping of one entry; if it is
empty, the token after it is passed over with it. -/
def flowItems : Nat → Build (List Node)
  | 0 => failure
  | bound + 1 => do
    let item ←
      if ← passIf .key then
        let ends : List Token := [.flowEntry, .flowSequenceEnd]
        let key ←
          if ← nextIn (.value :: ends) then
            pass
            pure (.empty none)
          else node false false bound
        let value ←
          if ← passIf .value then nodeUnless false false ends bound else pure (.empty none)
        pure (.mapping none [(key, value)])
      else node false false bound
    if ← passIf .flowSequenceEnd then return [item]
    else
      require .flowEntry
      if ← passIf .flowSequenceEnd then return [item]
      else return item :: (← flowItems bound)

/-- The entries between braces, before an entry. A node that is no key has an empty value. -/
def flowEntries : Nat → Build (List (Node × Node))
  | 0 => failure
  | bound + 1 => do
    let ends : List Token := [.flowEntry, .flowMappingEnd]
    let entry ←
      if ← passIf .key then
        let key ← nodeUnless false false (.value :: ends) bound
        let value ←
          if ← passIf .value then nodeUnless false false ends bound else pure (.empty none)
        pure (key, value)
      else
        let key ← node false false bound
        pure (key, .empty none)
    if ← passIf .flowMappingEnd then return [entry]
    else
      require .flowEntry
      if ← passIf .flowMappingEnd then return [entry]
      else return entry :: (← flowEntries bound)

end

/-- The directives before a document: at most one version, 1.1 or 1.2, and each handle once. Tells
whether there are any. -/
def directives : Nat → Bool → List (String × List UInt8) →
    Build (Bool × List (String × List UInt8))
  | 0, _, _ => failure
  | bound + 1, hasVersion, handles => do
    match ← peek with
    | some (.version major minor) =>
      if !hasVersion && major == 1 && (minor == 1 || minor == 2) then
        pass
        directives bound true handles
      else failure
    | some (.tagHandle handle expansion) =>
      if (handles.lookup handle).isSome then failure
      else
        pass
        directives bound hasVersion ((handle, expansion) :: handles)
    | _ => return (hasVersion || !handles.isEmpty, handles)

/-- What the handles stand for that need no directive. -/
def standardHandles : List (String × List UInt8) :=
  [("!", Text.utf8 ['!']), ("!!", Text.utf8 "tag:yaml.org,2002:".toList)]

/-- The only document of a text. Without directives its first line may be missing. -/
def document : Build Node := do
  let bound := 4 * ((← get).tokens.length + 1)
  let (declared, handles) ← directives bound false []
  modify fun d => { d with handles := handles ++ standardHandles }
  let marked ← passIf .documentStart
  if declared && !marked then failure
  let root ←
    if marked && (← nextIn [.documentStart, .documentEnd]) then pure (.empty none)
    else node true false bound
  if (← get).tokens.all (· == .documentEnd) then return root else failure

end Build

/-- The document that a text holds, if it holds exactly one. -/
def Document.parse (text : List Char) : Option Document := do
  let tokens ← tokens? text
  let (root, d) ← Build.document ⟨tokens, [], [], []⟩
  some ⟨root, d.anchored⟩

end LintRepair.Yaml
