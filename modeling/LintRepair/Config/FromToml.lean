import LintRepair.Config.Basic
import LintRepair.Toml.Reader

/-!
Configurations written in TOML. A record is a table or an array of its fields; other entries are
ignored as long as their numbers are within range.
-/

namespace LintRepair.Toml

/-- Half of the range of whole numbers of 128 bits. -/
def halfRange : Nat := Nat.pow 2 127

mutual

/-- Whether the numbers in an ignored value are within range. -/
def isReadable : Toml → Bool
  | .integer i => decide (-(halfRange : Int) ≤ i) && decide (i < 2 * halfRange)
  | .float finite => finite
  | .array _ items => areReadable items
  | .table _ entries => entriesReadable entries
  | _ => true

/-- Whether the numbers in ignored items are within range. -/
def areReadable : List Toml → Bool
  | [] => true
  | v :: rest => v.isReadable && areReadable rest

/-- Whether the numbers in ignored entries are within range. -/
def entriesReadable : List (String × Toml) → Bool
  | [] => true
  | (_, v) :: rest => v.isReadable && entriesReadable rest

end

/-- The cells of the named fields, from a table or from an array. -/
def row? (names : List String) : Toml → Option (List (Option Toml))
  | .table _ entries =>
    if entriesReadable (entries.filter fun (k, _) => !names.contains k) then
      some (names.map fun name => entries.lookup name)
    else none
  | .array _ items => some ((List.range names.length).map fun i => items[i]?)
  | _ => none

def string? : Toml → Option String
  | .string s => some s
  | _ => none

def boolean? : Toml → Option Bool
  | .boolean b => some b
  | _ => none

def word32? : Toml → Option UInt32
  | .integer i => if 0 ≤ i ∧ i < UInt32.size then some (UInt32.ofNat i.toNat) else none
  | _ => none

/-- A tag, written as a string or as a table that gives the tag an empty table or array. -/
def ecosystem? : Toml → Option Ecosystem
  | .string tag => Ecosystem.ofTag? tag
  | .table _ [(tag, .table _ [])] => Ecosystem.ofTag? tag
  | .table _ [(tag, .array _ [])] => Ecosystem.ofTag? tag
  | _ => none

def target? (v : Toml) : Option Target := do
  match ← v.row? ["pattern", "ecosystem", "check", "fix"] with
  | [some pattern, some ecosystem, some check, some fix] =>
    return ⟨← pattern.string?, ← ecosystem.ecosystem?, ← check.string?, ← fix.string?⟩
  | _ => none

def targets? : Toml → Option (List Target)
  | .array _ items => items.mapM target?
  | _ => none

def config? (v : Toml) : Option Config := do
  match ← v.row? ["maxIterations", "parallel", "targets"] with
  | [maxIterations, parallel, some targets] =>
    let maxIterations ← match maxIterations with
      | some v => v.word32?
      | none => some Config.defaultMaxIterations
    let parallel ← match parallel with
      | some v => v.boolean?
      | none => some false
    return ⟨maxIterations, parallel, ← targets.targets?⟩
  | _ => none

/-- The configuration that a document writes. -/
def parseConfig (text : List Char) : Option Config :=
  (parse text).bind fun entries => config? (.table .header entries)

end LintRepair.Toml
