import LintRepair.Glob.Parser
import LintRepair.Glob.Places
import LintRepair.Text.Utf8

/-!
Matching a path against a pattern, byte by byte. A token leads from the places where it may begin to
those where it may end; a path matches when the tokens, one after another, lead from its first place
to its last. A single star and a question mark never take a separator; a class may.
-/

namespace LintRepair.Glob

/-- Whether a byte separates path segments. -/
def isSeparator (b : UInt8) : Bool := b == 0x2F

/-- The intervals of bytes that one range of a class stands for. Members outside ASCII are spelled
out, so that the last byte of the lower end and the first byte of the upper end bound an interval
and all other bytes stand for themselves. -/
def rangeIntervals (range : Char × Char) : List (UInt8 × UInt8) :=
  let low := String.utf8EncodeChar range.1
  if range.1 = range.2 then low.map fun b => (b, b)
  else
    match low.reverse, String.utf8EncodeChar range.2 with
    | last :: front, head :: back =>
      front.reverse.map (fun b => (b, b)) ++ (last, head) :: back.map fun b => (b, b)
    | _, _ => []

/-- Whether a byte belongs to a class. -/
def inClass (negated : Bool) (ranges : List (Char × Char)) (b : UInt8) : Bool :=
  ((ranges.flatMap rangeIntervals).any fun (lo, hi) => lo ≤ b && b ≤ hi) != negated

mutual

/-- A token that can only stand for nothing: a group without any other alternative. -/
def Token.isVacuous : Token → Bool
  | .alternatives branches => allVacuous branches
  | _ => false

def isVacuous : List Token → Bool
  | [] => true
  | t :: tokens => t.isVacuous && isVacuous tokens

/-- Only alternatives that stand for nothing. -/
def allVacuous : List (List Token) → Bool
  | [] => true
  | branch :: branches => isVacuous branch && allVacuous branches

end

mutual

/-- The places where a token may end if it begins at one of the given places. -/
def Token.reach (bytes : List UInt8) : Token → Places → Places
  | .literal c, places =>
    (String.utf8EncodeChar c).foldl (fun places b => places.advance (· == b) bytes) places
  | .anyByte, places => places.advance (!isSeparator ·) bytes
  | .anyRun, places => places.spread (!isSeparator ·) bytes
  | .leadingDirs, places =>
    places.union ((places.spread (fun _ => true) bytes).advance isSeparator bytes)
  | .trailingPath, places => (places.advance isSeparator bytes).spread (fun _ => true) bytes
  | .innerDirs, places =>
    let next := places.advance isSeparator bytes
    next.union ((next.spread (fun _ => true) bytes).advance isSeparator bytes)
  | .charClass negated ranges, places => places.advance (inClass negated ranges) bytes
  | .alternatives branches, places =>
    if allVacuous branches then places else reachAny bytes branches places

/-- The places where a sequence of tokens may end. -/
def reachAll (bytes : List UInt8) : List Token → Places → Places
  | [], places => places
  | t :: tokens, places => reachAll bytes tokens (t.reach bytes places)

/-- The places where some alternative may end; alternatives that stand for nothing are dropped. -/
def reachAny (bytes : List UInt8) : List (List Token) → Places → Places
  | [], _ => .none bytes
  | branch :: branches, places =>
    if isVacuous branch then reachAny bytes branches places
    else (reachAll bytes branch places).union (reachAny bytes branches places)

end

/-- Whether a pattern is a lone double star, which matches every path. -/
def isUniversal : List Token → Bool
  | [.leadingDirs] => true
  | _ => false

/-- Whether the bytes of a path match a pattern. -/
def matchesBytes (tokens : List Token) (bytes : List UInt8) : Bool :=
  isUniversal tokens || (reachAll bytes tokens (.start bytes)).reachesEnd

def isMatch (tokens : List Token) (path : String) : Bool :=
  matchesBytes tokens (Text.utf8 path.toList)

end LintRepair.Glob
