/-!
File patterns. A pattern is a sequence of tokens; alternation nests whole sequences inside a token.
A pattern text that is not well formed fails with one of five causes.
-/

namespace LintRepair.Glob

/-- A token of a pattern. The three directory tokens stand for a double star at the start, at the
end and between two separators, the separators included. -/
inductive Token where
  | literal (c : Char)
  | anyByte
  | anyRun
  | leadingDirs
  | trailingPath
  | innerDirs
  | charClass (negated : Bool) (ranges : List (Char × Char))
  | alternatives (branches : List (List Token))

/-- Why a pattern text is not a pattern. -/
inductive Error where
  | unclosedClass
  | invalidRange (low high : Char)
  | unopenedGroup
  | unclosedGroup
  | danglingEscape
deriving DecidableEq, Repr

def Error.message : Error → String
  | .unclosedClass => "unclosed character class; missing ']'"
  | .invalidRange low high =>
    "invalid range; '" ++ String.ofList [low] ++ "' > '" ++ String.ofList [high] ++ "'"
  | .unopenedGroup =>
    "unopened alternate group; missing '\x7b' (maybe escape '\x7d' with '[\x7d]'?)"
  | .unclosedGroup =>
    "unclosed alternate group; missing '\x7d' (maybe escape '\x7b' with '[\x7b]'?)"
  | .danglingEscape => "dangling '\\'"

end LintRepair.Glob
