import LintRepair.Decimal.Binary64

/-!
TOML values. A table remembers how it came about, because that decides how it may still be extended:
by a header of its own, by standing on the way to another header, by dotted keys, or written inline.
-/

namespace LintRepair

/-- How a table came about. -/
inductive Toml.Origin where
  | header
  | implied
  | dotted
  | inline
deriving DecidableEq, Repr

/-- A TOML value. `finite` tells whether a floating-point number that is not written as infinite
or undefined is within range; dates and times carry no value here. An array is `ofTables` when
headers in double brackets built it. -/
inductive Toml where
  | string (text : String)
  | integer (value : Int)
  | float (finite : Bool)
  | boolean (value : Bool)
  | datetime
  | array (ofTables : Bool) (items : List Toml)
  | table (origin : Toml.Origin) (entries : List (String × Toml))

namespace Toml

abbrev Entries := List (String × Toml)

/-- Replace the value of a key, or add the key at the end. -/
def Entries.set (key : String) (v : Toml) : Entries → Entries
  | [] => [(key, v)]
  | (k, w) :: rest => if k = key then (k, v) :: rest else (k, w) :: Entries.set key v rest

def setLast (v : Toml) : List Toml → List Toml
  | [] => [v]
  | [_] => [v]
  | w :: rest => w :: setLast v rest

/-- Change the table at the end of a path, and create the tables on the way that do not exist yet.
An array of tables is entered at its last table. Inline tables and plain values cannot be
entered, and dotted keys cannot enter a table that has a header. -/
def descend (dotted : Bool) (change : Origin → Entries → Option Entries) :
    List String → Origin → Entries → Option Entries
  | [], origin, entries => change origin entries
  | key :: path, _, entries =>
    match entries.lookup key with
    | none =>
      let origin := if dotted then .dotted else .implied
      (descend dotted change path origin []).map fun inner =>
        Entries.set key (.table origin inner) entries
    | some (.table origin inner) =>
      if origin = .inline ∨ (dotted ∧ origin = .header) then none
      else (descend dotted change path origin inner).map fun inner =>
        Entries.set key (.table origin inner) entries
    | some (.array true items) =>
      match items.getLast? with
      | some (.table origin inner) =>
        (descend dotted change path origin inner).map fun inner =>
          Entries.set key (.array true (setLast (.table origin inner) items)) entries
      | _ => none
    | some _ => none

/-- Add the value of a key, dotted or not, to a table. A key is given once, and dotted keys extend
only tables that dotted keys have made. -/
def addEntry (path : List String) (key : String) (v : Toml) (entries : Entries) :
    Option Entries :=
  descend true (fun origin inner =>
    if (origin == .dotted) == path.isEmpty then none
    else if (inner.lookup key).isSome then none
    else some (inner ++ [(key, v)])) path .header entries

/-- Begin a table with a header of its own. A table that so far only stood on the way to others
keeps its entries; any other value is in the way. -/
def openTable (path : List String) (key : String) (root : Entries) : Option Entries :=
  descend false (fun _ inner =>
    match inner.lookup key with
    | none => some (inner ++ [(key, .table .header [])])
    | some (.table .implied entries) => some (Entries.set key (.table .header entries) inner)
    | some _ => none) path .header root

/-- Begin a further table of an array of tables. -/
def appendTable (path : List String) (key : String) (root : Entries) : Option Entries :=
  descend false (fun _ inner =>
    match inner.lookup key with
    | none => some (inner ++ [(key, .array true [.table .header []])])
    | some (.array true items) =>
      some (Entries.set key (.array true (items ++ [.table .header []])) inner)
    | some _ => none) path .header root

/-- Add a value to the table that the last header began. The empty path is the document itself. -/
def addUnder (header path : List String) (key : String) (v : Toml) (root : Entries) :
    Option Entries :=
  descend false (fun _ inner => addEntry path key v inner) header .header root

end Toml

end LintRepair
