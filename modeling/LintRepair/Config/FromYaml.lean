import LintRepair.Config.Basic
import LintRepair.Yaml.Node

/-!
Configurations written in YAML. Every scalar can be read as a string; numbers and truth values have
to be plain, or literal blocks with the tag of their kind. Entries without a known key are ignored.
-/

namespace LintRepair.Yaml

/-- The digits of a number in a base, none of them missing. -/
def numeral? (base : Nat) (digits : List Char) : Option Nat := do
  let ds ← digits.mapM hexValue?
  if ds.isEmpty || ds.any (base ≤ ·) then none
  else some (ds.foldl (fun n d => n * base + d) 0)

/-- A natural number: decimal without leading zeros, or with a mark for another base; a plus sign
may stand before it. -/
def natural? (text : List Char) : Option Nat :=
  let unsigned := match text with
    | '+' :: t => t
    | t => t
  match unsigned with
  | '0' :: 'x' :: digits => numeral? 16 digits
  | '0' :: 'o' :: digits => numeral? 8 digits
  | '0' :: 'b' :: digits => numeral? 2 digits
  | '0' :: _ :: _ => none
  | digits => numeral? 10 digits

namespace Document

/-- The text of a scalar that may be more than a string: a plain one, or a literal block with a
tag. -/
def untyped? (d : Document) (tag : String) (node : Node) : Option String := do
  match ← d.resolve node with
  | .scalar _ .plain text => some text
  | .scalar (some given) .literal text => if given = Text.utf8 tag.toList then some text else none
  | _ => none

def word32? (d : Document) (node : Node) : Option UInt32 := do
  let n ← natural? (← d.untyped? "tag:yaml.org,2002:int" node).toList
  if n < UInt32.size then some (UInt32.ofNat n) else none

def boolean? (d : Document) (node : Node) : Option Bool := do
  let text ← d.untyped? "tag:yaml.org,2002:bool" node
  if text ∈ ["true", "True", "TRUE"] then some true
  else if text ∈ ["false", "False", "FALSE"] then some false
  else none

def string? (d : Document) (node : Node) : Option String := do
  match ← d.resolve node with
  | .scalar _ _ text => some text
  | _ => none

/-- The items of a sequence; nothing at all is an empty one. -/
def items? (d : Document) (node : Node) : Option (List Node) := do
  match ← d.resolve node with
  | .sequence _ items => some items
  | .scalar _ .plain "" => some []
  | _ => none

/-- The values of the named entries of a mapping. Each may stand once, and all keys are scalars. -/
def row? (d : Document) (names : List String) (node : Node) : Option (List (Option Node)) := do
  match ← d.resolve node with
  | .mapping _ entries =>
    let entries ← entries.mapM fun (key, value) => (d.string? key).map fun name => (name, value)
    names.mapM fun name =>
      match entries.filter (·.1 == name) with
      | [] => some none
      | [(_, value)] => some (some value)
      | _ => none
  | _ => none

/-- Whether a text is a way to write nothing. -/
def isNull (text : String) : Bool := ["", "~", "null", "Null", "NULL"].contains text

/-- The name that a local tag gives, if it is text. -/
def localName? : Option (List UInt8) → Option String
  | some (0x21 :: name) => (Text.decode? name).map String.ofList
  | _ => none

/-- An ecosystem: its tag as a scalar, or as the local tag of an empty node. -/
def ecosystem? (d : Document) (node : Node) : Option Ecosystem := do
  match ← d.resolve node with
  | .scalar tag style text =>
    match localName? tag with
    | some name => if style = .plain ∧ isNull text then Ecosystem.ofTag? name else none
    | none => Ecosystem.ofTag? text
  | _ => none

def target? (d : Document) (node : Node) : Option Target := do
  match ← d.row? ["pattern", "ecosystem", "check", "fix"] node with
  | [some pattern, some ecosystem, some check, some fix] =>
    return ⟨← d.string? pattern, ← d.ecosystem? ecosystem, ← d.string? check, ← d.string? fix⟩
  | _ => none

def config? (d : Document) : Option Config := do
  match ← d.row? ["maxIterations", "parallel", "targets"] d.root with
  | [maxIterations, parallel, some targets] =>
    let maxIterations ← match maxIterations with
      | some node => d.word32? node
      | none => some Config.defaultMaxIterations
    let parallel ← match parallel with
      | some node => d.boolean? node
      | none => some false
    return ⟨maxIterations, parallel, ← (← d.items? targets).mapM d.target?⟩
  | _ => none

end Document

def parseConfig (text : List Char) : Option Config :=
  (Document.parse text).bind Document.config?

end LintRepair.Yaml
