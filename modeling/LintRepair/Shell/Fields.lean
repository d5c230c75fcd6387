import LintRepair.Shell.Pattern

/-!
Splitting into fields. An expanded word is a sequence of segments: text as it was written, which is
never split, and text that a substitution has brought in, which is split at separators.
-/

namespace LintRepair.Shell

open Pattern (parameterEnd)

/-- A character of an expanded word, or the trace of a pair of quotes, which keeps a field alive
that has nothing else. -/
inductive Cell where
  | glyph (glyph : Glyph)
  | mark
deriving DecidableEq, Repr

namespace Cell

def glyphs (cells : List Cell) : List Glyph :=
  cells.filterMap fun
    | .glyph g => some g
    | .mark => none

def text (cells : List Cell) : Raw := (glyphs cells).map (·.char)

/-- Text that stands for itself, or that may act as a pattern. -/
def ofText (literal : Bool) (s : Raw) : List Cell := s.map fun c => .glyph ⟨c, literal⟩

end Cell

/-- How a segment is split: not at all, at separators, or only between positional parameters. -/
inductive Splitting where
  | none
  | separators
  | parameters
deriving DecidableEq, Repr

/-- A part of an expanded word. -/
structure Segment where
  cells : List Cell
  splitting : Splitting := .none

/-- The fields of a word while it is split: those that are complete and the one that is open, both
in reverse order. `absorbs` tells that one more separator belongs to the blanks just met. -/
structure Splitter where
  complete : List (List Cell) := []
  current : List Cell := []
  absorbs : Bool := false
  onlyParameters : Bool := false

namespace Splitter

def close (s : Splitter) : Splitter :=
  { s with complete := s.current.reverse :: s.complete, current := [] }

def isBlankSeparator (c : Char) : Bool :=
  c == ' ' || c == '\t' || c == '\n' || c == parameterEnd

/-- The cells of a segment after a separator that ended a field: blanks belong to it, and among
blanks one separator of another kind. -/
def skipSeparators (separates : Char → Bool) : Bool → List Cell → List Cell
  | absorbs, .glyph g :: cells =>
    if !separates g.char then .glyph g :: cells
    else if isBlankSeparator g.char then skipSeparators separates absorbs cells
    else if absorbs then skipSeparators separates false cells
    else .glyph g :: cells
  | _, cells => cells

/-- Split the cells of a segment. The bound is their number. -/
def cells (separates : Char → Bool) (keepsEmpty : Bool) (onlyParameters : Bool) :
    Nat → List Cell → Splitter → Splitter
  | 0, _, s => s
  | _, [], s => s
  | bound + 1, cell :: rest, s =>
    let separator : Option Char := match cell with
      | .glyph g => if separates g.char then some g.char else none
      | .mark => none
    match separator with
    | none => cells separates keepsEmpty onlyParameters bound rest
        { s with current := cell :: s.current }
    | some c =>
      let absorbs := if keepsEmpty || onlyParameters then s.absorbs else isBlankSeparator c
      if s.current.isEmpty && absorbs then
        cells separates keepsEmpty onlyParameters bound rest { s with absorbs := absorbs }
      else
        let rest := if onlyParameters then rest else skipSeparators separates absorbs rest
        cells separates keepsEmpty onlyParameters bound rest { s.close with absorbs := absorbs }

def segment (separators : Raw) (s : Splitter) (g : Segment) : Splitter :=
  match g.splitting with
  | .none => { s with current := g.cells.reverse ++ s.current }
  | splitting =>
    let onlyParameters := splitting == .parameters
    let separates (c : Char) : Bool :=
      c == parameterEnd || (!onlyParameters && separators.contains c)
    let keepsEmpty := s.onlyParameters
    cells separates keepsEmpty onlyParameters g.cells.length g.cells
      { s with absorbs := false, onlyParameters := onlyParameters }

end Splitter

def fieldsOf (separators : Raw) (segments : List Segment) : List (List Cell) :=
  let s := segments.foldl (Splitter.segment separators) {}
  let s := if s.onlyParameters || !s.current.isEmpty then s.close else s
  s.complete.reverse

end LintRepair.Shell
