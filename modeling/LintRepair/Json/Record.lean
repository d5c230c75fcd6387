import LintRepair.Json.Reader

/-!
Reading values of known shape. A record is written as an object, with its members in any order, or
as an array of its fields in order; members with other names are skipped, and a repeated field is
refused. Each reader checks the kind of the value before anything inside it.
-/

namespace LintRepair.Json

/-- The fault of a value of another kind than the one expected. A scalar is consumed before it is
refused; an array or object is refused at its first byte. -/
def wrongKind {α : Type} (expected : List Char) (s : List Char) : Except Fault α :=
  match s with
  | [] => failPeek .expectedValue []
  | '[' :: _ => failAt (.wrongType .sequence expected) s
  | '\x7b' :: _ => failAt (.wrongType .map expected) s
  | 'n' :: r => do
    let (_, r) ← word ['u', 'l', 'l'] r
    failAt (.wrongType .null expected) r
  | 't' :: r => do
    let (_, r) ← word ['r', 'u', 'e'] r
    failAt (.wrongType (.bool true) expected) r
  | 'f' :: r => do
    let (_, r) ← word ['a', 'l', 's', 'e'] r
    failAt (.wrongType (.bool false) expected) r
  | '"' :: r => do
    let (cs, r) ← stringBody .read r
    failAt (.wrongType (.string cs) expected) r
  | c :: t =>
    if c = '-' ∨ c.isDigit then do
      let (v, r) ← if c = '-' then number true t else number false s
      match v with
      | .int i => failAt (.wrongType (.int i) expected) r
      | .float negative m => failAt (.wrongType (.float negative m) expected) r
      | _ => failAt .invalidNumber r
    else failPeek .expectedValue s

/-- The text from the next token on, which must exist. -/
def nextToken (s : List Char) : Except Fault (List Char) :=
  match skipSpace s with
  | [] => failAt .eofInValue []
  | t => .ok t

def text : Reader String := fun s => do
  match ← nextToken s with
  | '"' :: r => (stringBody .read r).map fun (cs, r) => (String.ofList cs, r)
  | t => wrongKind "a string".toList t

def boolean : Reader Bool := fun s => do
  match ← nextToken s with
  | 't' :: r => (word ['r', 'u', 'e'] r).map fun (_, r) => (true, r)
  | 'f' :: r => (word ['a', 'l', 's', 'e'] r).map fun (_, r) => (false, r)
  | t => wrongKind "a boolean".toList t

/-- A whole number between two bounds. -/
def whole (low high : Int) (expected : List Char) : Reader Int := fun s => do
  let t ← nextToken s
  let (v, r) ← match t with
    | '-' :: r => number true r
    | c :: r => if c.isDigit then number false (c :: r) else wrongKind expected t
    | [] => wrongKind expected t
  match v with
  | .int i => if low ≤ i ∧ i ≤ high then .ok (i, r) else failAt (.wrongValue i expected) r
  | .float negative m => failAt (.wrongType (.float negative m) expected) r
  | _ => failAt .invalidNumber r

def word32 : Reader UInt32 := fun s =>
  (whole 0 (UInt32.size - 1 : Nat) "u32".toList s).map fun (i, r) => (UInt32.ofNat i.toNat, r)

def signed64 : Reader Int := whole Int64.minValue.toInt Int64.maxValue.toInt "i64".toList

/-- A value or `null`. -/
def optional {α : Type} (read : Reader α) : Reader (Option α) := fun s =>
  match skipSpace s with
  | 'n' :: r => (word ['u', 'l', 'l'] r).map fun (_, r) => (none, r)
  | t => (read t).map fun (a, r) => (some a, r)

/-- An array of values of one shape. -/
def list {α : Type} (item : Reader α) : Reader (List α) := fun s => do
  match ← nextToken s with
  | '[' :: r => arrayBody .read item (r.length + 1) true r
  | t => wrongKind "a sequence".toList t

/-- One of some names, written as a string or as an object that gives the name the value
`null`. -/
def variant {α : Type} (names : List (String × α)) : Reader α := fun s => do
  let find (name : List Char) (r : List Char) : Except Fault (α × List Char) :=
    match names.lookup (String.ofList name) with
    | some a => .ok (a, r)
    | none => failAt (.unknownVariant name (names.map Prod.fst)) r
  match ← nextToken s with
  | '"' :: r => do
    let (name, r) ← stringBody .read r
    find name r
  | '\x7b' :: r =>
    match skipSpace r with
    | '"' :: r => do
      let (name, r) ← stringBody .read r
      let (a, r) ← find name r
      let (_, r) ← colon r
      let r ← match ← nextToken r with
        | 'n' :: r => (word ['u', 'l', 'l'] r).map Prod.snd
        | t => wrongKind "unit".toList t
      match skipSpace r with
      | '\x7d' :: r => .ok (a, r)
      | [] => failAt .eofInObject []
      | t => failAt .expectedValue t
    | [] => failAt .eofInObject []
    | '\x7d' :: r => failPeek .expectedValue ('\x7d' :: r)
    | t => failPeek .keyNotString t
  | t => failPeek .expectedValue t

/-- One field of a record under construction, whose state is `σ`. -/
structure Field (σ : Type) where
  name : String
  required : Bool
  isSet : σ → Bool
  read : σ → Reader σ

/-- A field that is kept as an optional component of the state. -/
def Field.of {σ α : Type} (name : String) (required : Bool) (get : σ → Option α)
    (set : σ → α → σ) (read : Reader α) : Field σ where
  name := name
  required := required
  isSet state := (get state).isSome
  read state := fun s => (read s).map fun (a, r) => (set state a, r)

/-- The shape of a record: its fields in order, the empty state, and the finished record, or the
name of the first field that is missing. -/
structure Shape (σ α : Type) where
  name : String
  fields : List (Field σ)
  blank : σ
  build : σ → Except String α

def Shape.title {σ α : Type} (shape : Shape σ α) : List Char :=
  "struct ".toList ++ shape.name.toList

/-- The record with its number of fields. -/
def Shape.measure {σ α : Type} (shape : Shape σ α) : List Char :=
  let n := shape.fields.length
  shape.title ++ " with ".toList ++ digits n ++
    (if n = 1 then " element".toList else " elements".toList)

/-- A closing brace, if it is what comes next. -/
def passBrace (s : List Char) : List Char :=
  match skipSpace s with
  | '\x7d' :: r => r
  | t => t

/-- Read one member of a record written as an object. -/
def Shape.member {σ α : Type} (shape : Shape σ α) (name : List Char) (state : σ) : Reader σ :=
  fun s =>
    match shape.fields.find? fun f => f.name.toList == name with
    | some f =>
      if f.isSet state then failAt (.repeatedField f.name) (passBrace s)
      else do
        let (_, s) ← colon s
        f.read state s
    | none => do
      let (_, s) ← colon s
      let (_, s) ← skipValue s
      return (state, s)

/-- The end of an array whose expected items have all been read. -/
def closeArray (s : List Char) : Except Fault (List Char) :=
  match skipSpace s with
  | [] => failAt .eofInList []
  | ']' :: r => .ok r
  | ',' :: r =>
    match skipSpace r with
    | ']' :: t => failPeek .trailingComma (']' :: t)
    | t => failPeek .trailingCharacters t
  | t => failPeek .trailingCharacters t

/-- Read the fields of a record written as an array, from the field at `index` on. A field that is
not required may be missing at the end. -/
def Shape.elements {σ α : Type} (shape : Shape σ α) :
    List (Field σ) → Nat → Bool → σ → Reader σ
  | [], _, _, state, s => do
    let r ← closeArray s
    return (state, r)
  | f :: fields, index, first, state, s =>
    match skipSpace s with
    | [] => failAt .eofInList []
    | ']' :: r =>
      if f.required then failAt (.wrongLength index shape.measure) r
      else shape.elements fields (index + 1) first state (']' :: r)
    | c :: r =>
      if first then do
        let (state, r) ← f.read state (c :: r)
        shape.elements fields (index + 1) false state r
      else if c = ',' then
        match skipSpace r with
        | [] => failAt .eofInValue []
        | ']' :: t => failPeek .trailingComma (']' :: t)
        | t => do
          let (state, r) ← f.read state t
          shape.elements fields (index + 1) false state r
      else failPeek .expectedListEnd (c :: r)

def record {σ α : Type} (shape : Shape σ α) : Reader α := fun s => do
  let (state, r) ← match ← nextToken s with
    | '\x7b' :: r => objectBody .read shape.member (r.length + 1) true shape.blank r
    | '[' :: r => shape.elements shape.fields 0 true shape.blank r
    | t => wrongKind shape.title t
  match shape.build state with
  | .ok a => .ok (a, r)
  | .error name => failAt (.missingField name) r

end LintRepair.Json
