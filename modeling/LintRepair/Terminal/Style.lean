/-!
Styled text. A line is a list of pieces, each with its styles; without colour the styles are left
out and nothing else changes. A style is switched on before its text and off after it, the outermost
first.
-/

namespace LintRepair.Terminal

/-- A way to set text off. -/
inductive Style where
  | red
  | green
  | yellow
  | blue
  | cyan
  | bold
  | dimmed
deriving DecidableEq, Repr

/-- The number that switches a style on. -/
def Style.code : Style → List Char
  | .red => ['3', '1']
  | .green => ['3', '2']
  | .yellow => ['3', '3']
  | .blue => ['3', '4']
  | .cyan => ['3', '6']
  | .bold => ['1']
  | .dimmed => ['2']

/-- The number that switches a style off: a colour gives way to the default colour, the others to
plain text. -/
def Style.closing : Style → List Char
  | .bold => ['0']
  | .dimmed => ['0']
  | _ => ['3', '9']

def control (code : List Char) : List Char := '\x1b' :: '[' :: code ++ ['m']

/-- Text between switching styles on and off. -/
def wrap : List Style → List Char → List Char
  | [], text => text
  | style :: styles, text => control style.code ++ wrap styles text ++ control style.closing

/-- Text with its styles, the outermost first. -/
structure Piece where
  styles : List Style
  text : List Char

def plain (text : List Char) : Piece := ⟨[], text⟩

def Piece.render (color : Bool) (p : Piece) : List Char :=
  if color then wrap p.styles p.text else p.text

/-- The characters of a line without its end. -/
def render (color : Bool) (line : List Piece) : List Char :=
  line.flatMap (Piece.render color)

def renderLine (color : Bool) (line : List Piece) : List Char := render color line ++ ['\n']

end LintRepair.Terminal
