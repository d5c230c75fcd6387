import LintRepair.Json.Value

/-!
Records inside a value that has already been read. The fields are looked up by name in an object and
by place in an array; the outcome is one row with a cell for each expected field.
-/

namespace LintRepair.Json

/-- The only member of a name; `none` inside when there is none, and a failure when there are
several. -/
def member? (name : String) (members : List (String × Json)) : Option (Option Json) :=
  match members.filter fun (n, _) => n == name with
  | [] => some none
  | [(_, v)] => some (some v)
  | _ => none

/-- The cells of an array row, padded at the end; an array that is too long has none. -/
def cells? : Nat → List Json → Option (List (Option Json))
  | 0, [] => some []
  | 0, _ :: _ => none
  | n + 1, [] => (cells? n []).map (none :: ·)
  | n + 1, v :: rest => (cells? n rest).map (some v :: ·)

/-- The cells of the named fields, from an object or from an array. -/
def row? (names : List String) : Json → Option (List (Option Json))
  | .object members => names.mapM fun name => member? name members
  | .array items => cells? names.length items
  | _ => none

def string? : Json → Option String
  | .string s => some s
  | _ => none

def bool? : Json → Option Bool
  | .bool b => some b
  | _ => none

def word32? : Json → Option UInt32
  | .int i => if 0 ≤ i ∧ i < UInt32.size then some (UInt32.ofNat i.toNat) else none
  | _ => none

/-- A list of values of one shape. -/
def list? {α : Type} (item : Json → Option α) : Json → Option (List α)
  | .array items => items.mapM item
  | _ => none

/-- A cell that may be missing; a missing one has the given value. -/
def orElse? {α : Type} (missing : α) (item : Json → Option α) : Option Json → Option α
  | none => some missing
  | some v => item v

end LintRepair.Json
