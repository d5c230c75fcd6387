/-!
Sets of places in a path. A path has a place before each byte and one after the last; a set tells of
each of them, from the first on, whether it belongs. Moving a set forward takes one pass over the
path, no matter how many places belong to it.
-/

namespace LintRepair.Glob

/-- A set of places, one truth value for each place of the path. -/
abbrev Places := List Bool

namespace Places

def none (bytes : List UInt8) : Places := false :: bytes.map fun _ => false

/-- The first place of a path alone. -/
def start (bytes : List UInt8) : Places := true :: bytes.map fun _ => false

/-- Whether the last place belongs to a set. -/
def reachesEnd (places : Places) : Bool := places.getLastD false

def union (p q : Places) : Places := List.zipWith (· || ·) p q

/-- The places after one byte of a kind. -/
def advance (kind : UInt8 → Bool) (bytes : List UInt8) (places : Places) : Places :=
  false :: List.zipWith (fun b here => here && kind b) bytes places

/-- The places after any number of bytes of a kind, when the first place has been reached or not. -/
def spreadFrom (kind : UInt8 → Bool) : Bool → List UInt8 → Places → Places
  | reached, b :: bytes, here :: places =>
    let here := here || reached
    here :: spreadFrom kind (here && kind b) bytes places
  | reached, [], here :: _ => [here || reached]
  | _, _, [] => []

/-- The places after any number of bytes of a kind, those of the set included. -/
def spread (kind : UInt8 → Bool) (bytes : List UInt8) (places : Places) : Places :=
  spreadFrom kind false bytes places

end Places

end LintRepair.Glob
