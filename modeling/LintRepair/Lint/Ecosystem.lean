import LintRepair.Json.Record

/-!
Ecosystems. Each has a linter whose report has a format of its own; a configuration names it by a
fixed tag.
-/

namespace LintRepair

/-- A family of tools with one report format. -/
inductive Ecosystem where
  | js
  | go
  | rust
deriving DecidableEq, Repr

namespace Ecosystem

def tag : Ecosystem → String
  | .js => "js"
  | .go => "go"
  | .rust => "rust"

/-- The ecosystem with a tag; tags are exact. -/
def ofTag? (tag : String) : Option Ecosystem :=
  if tag = "js" then some .js
  else if tag = "go" then some .go
  else if tag = "rust" then some .rust
  else none

def tags : List (String × Ecosystem) := [("js", .js), ("go", .go), ("rust", .rust)]

def reader : Json.Reader Ecosystem := Json.variant tags

def toJson (e : Ecosystem) : Json := .string e.tag

end Ecosystem

end LintRepair
