import LintRepair.Shell.Number

/-!
Integer expressions with the operators of 64-bit machine arithmetic. An expression is evaluated
while it is read, so the first fault from left to right is the one reported.
-/

namespace LintRepair.Shell.Arithmetic

/-- Operators with two operands, the most binding first. -/
inductive Operator where
  | times
  | over
  | modulo
  | plus
  | minus
  | shiftLeft
  | shiftRight
  | less
  | atMost
  | greater
  | atLeast
  | equal
  | unequal
  | bitAnd
  | bitXor
  | bitOr
deriving DecidableEq, Repr

namespace Operator

def looseness : Operator → Nat
  | .times | .over | .modulo => 0
  | .plus | .minus => 1
  | .shiftLeft | .shiftRight => 2
  | .less | .atMost | .greater | .atLeast => 3
  | .equal | .unequal => 4
  | .bitAnd => 5
  | .bitXor => 6
  | .bitOr => 7

/-- More than the looseness of any operator. -/
def loosest : Nat := 8

def ofTruth (b : Bool) : Int64 := if b then 1 else 0

/-- The result of an operator; there is none for a division by zero. -/
def apply (a b : Int64) : Operator → Option Int64
  | .times => some (a * b)
  | .over => if b == 0 then none else some (a / b)
  | .modulo => if b == 0 then none else some (a % b)
  | .plus => some (a + b)
  | .minus => some (a - b)
  | .shiftLeft => some (a <<< b)
  | .shiftRight => some (a >>> b)
  | .less => some (ofTruth (a < b))
  | .atMost => some (ofTruth (a ≤ b))
  | .greater => some (ofTruth (b < a))
  | .atLeast => some (ofTruth (b ≤ a))
  | .equal => some (ofTruth (a == b))
  | .unequal => some (ofTruth (a != b))
  | .bitAnd => some (a &&& b)
  | .bitXor => some (a ^^^ b)
  | .bitOr => some (a ||| b)

end Operator

/-- Tokens of an expression. -/
inductive Token where
  | number (value : Int64)
  | name (name : Raw)
  | operator (operator : Operator)
  | assign (operator : Option Operator)
  | andThen
  | orElse
  | not
  | complement
  | open
  | close
  | question
  | colon
  | bad
deriving DecidableEq, Repr

namespace Token

/-- The operators as they are written; one that begins another stands behind it. -/
def table : List (String × Token) :=
  [("<<=", .assign (some .shiftLeft)), (">>=", .assign (some .shiftRight)),
    ("*=", .assign (some .times)), ("/=", .assign (some .over)), ("%=", .assign (some .modulo)),
    ("+=", .assign (some .plus)), ("-=", .assign (some .minus)),
    ("&=", .assign (some .bitAnd)), ("^=", .assign (some .bitXor)),
    ("|=", .assign (some .bitOr)), ("<<", .operator .shiftLeft), (">>", .operator .shiftRight),
    ("<=", .operator .atMost), (">=", .operator .atLeast), ("==", .operator .equal),
    ("!=", .operator .unequal), ("&&", .andThen), ("||", .orElse), ("*", .operator .times),
    ("/", .operator .over), ("%", .operator .modulo), ("+", .operator .plus),
    ("-", .operator .minus), ("<", .operator .less), (">", .operator .greater),
    ("&", .operator .bitAnd), ("^", .operator .bitXor), ("|", .operator .bitOr),
    ("=", .assign none), ("!", .not), ("~", .complement), ("(", .open), (")", .close),
    ("?", .question), (":", .colon)]

/-- The tokens of an expression; what is none ends them. -/
def scan : Nat → Raw → List Token
  | 0, _ => []
  | _, [] => []
  | bound + 1, c :: s =>
    if c == ' ' || c == '\t' || c == '\n' then scan bound s
    else if c.isDigit then
      match Number.front? 0 (c :: s) with
      | some f => .number (Int64.ofInt f.value) :: scan bound f.rest
      | none => [.bad]
    else if beginsName c then
      let name := nameAtFront (c :: s)
      .name name :: scan bound ((c :: s).drop name.length)
    else
      match table.find? fun (text, _) => text.toList.isPrefixOf (c :: s) with
      | some (text, token) => token :: scan bound ((c :: s).drop text.length)
      | none => [.bad]

end Token

/-- Why an expression has no value. -/
inductive Fault where
  | unreadable (reason : String)
  | badNumber (text : Raw)
deriving DecidableEq, Repr

/-- The state of an evaluation: the tokens left, the values of variables, and what was assigned, the
latest first. -/
structure State where
  tokens : List Token
  value? : Raw → Option Raw
  assigned : List (Raw × Int64) := []

abbrev Evaluation := StateT State (Except Fault)

/-- The next token, which stays where it is. -/
def peek : Evaluation (Option Token) := do return (← get).tokens.head?

def skip : Evaluation Unit := modify fun s => { s with tokens := s.tokens.drop 1 }

def refuse {α : Type} (reason : String) : Evaluation α := throw (.unreadable reason)

def variableValue (name : Raw) : Evaluation Int64 := do
  let s ← get
  match s.assigned.lookup name with
  | some n => return n
  | none =>
    let text := (s.value? name).getD []
    match Number.binding? text with
    | some n => return Int64.ofInt n
    | none => throw (.badNumber text)

def calculate (operator : Operator) (a b : Int64) : Evaluation Int64 :=
  match operator.apply a b with
  | some n => pure n
  | none => refuse "division by zero"

def assign (name : Raw) (n : Int64) : Evaluation Int64 := do
  modify fun s => { s with assigned := (name, n) :: s.assigned }
  return n

def isTrue (n : Int64) : Bool := n != 0

mutual

/-- An expression with assignments. What is `idle` is read but not carried out. -/
def assignment : Nat → Bool → Evaluation Int64
  | 0, _ => refuse "expecting primary"
  | bound + 1, idle => do
    match (← get).tokens with
    | .name name :: .assign operator :: rest =>
      modify fun s => { s with tokens := rest }
      let n ← assignment bound idle
      if idle then return n
      match operator with
      | none => assign name n
      | some operator => assign name (← calculate operator (← variableValue name) n)
    | _ => conditional bound idle

/-- A choice between two values. -/
def conditional : Nat → Bool → Evaluation Int64
  | 0, _ => refuse "expecting primary"
  | bound + 1, idle => do
    let test ← disjunction bound idle
    if (← peek) = some .question then
      skip
      let yes ← assignment bound (idle || !isTrue test)
      if (← peek) != some .colon then refuse "expecting ':'"
      skip
      let no ← conditional bound (idle || isTrue test)
      return if isTrue test then yes else no
    else return test

/-- Truth of one of several values. -/
def disjunction : Nat → Bool → Evaluation Int64
  | 0, _ => refuse "expecting primary"
  | bound + 1, idle => do
    let a ← conjunction bound idle
    if (← peek) = some .orElse then
      skip
      let b ← disjunction bound (idle || isTrue a)
      return Operator.ofTruth (isTrue a || isTrue b)
    else return a

/-- Truth of all of several values. -/
def conjunction : Nat → Bool → Evaluation Int64
  | 0, _ => refuse "expecting primary"
  | bound + 1, idle => do
    let a ← joined bound idle
    if (← peek) = some .andThen then
      skip
      let b ← conjunction bound (idle || !isTrue a)
      return Operator.ofTruth (isTrue a && isTrue b)
    else return a

def joined : Nat → Bool → Evaluation Int64
  | 0, _ => refuse "expecting primary"
  | bound + 1, idle => do
    let a ← primary bound idle
    match ← peek with
    | some (.operator operator) => joinedFrom bound a operator Operator.loosest idle
    | _ => return a

/-- Values joined by operators, after the first value; the operator behind it is the next token.
Operators that bind as loosely as the limit are left for later. -/
def joinedFrom : Nat → Int64 → Operator → Nat → Bool → Evaluation Int64
  | 0, _, _, _, _ => refuse "expecting primary"
  | bound + 1, a, operator, limit, idle => do
    skip
    let b ← primary bound idle
    let b ← match ← peek with
      | some (.operator next) =>
        if next.looseness < operator.looseness then
          joinedFrom bound b next operator.looseness idle
        else pure b
      | _ => pure b
    let a ← if idle then pure b else calculate operator a b
    match ← peek with
    | some (.operator next) =>
      if next.looseness < limit then joinedFrom bound a next limit idle else return a
    | _ => return a

/-- A value with the operators in front of it. -/
def primary : Nat → Bool → Evaluation Int64
  | 0, _ => refuse "expecting primary"
  | bound + 1, idle => do
    let token ← peek
    skip
    match token with
    | some .open =>
      let n ← assignment bound idle
      if (← peek) != some .close then refuse "expecting ')'"
      skip
      return n
    | some (.number n) => return n
    | some (.name name) => if idle then return 0 else variableValue name
    | some (.operator .plus) => primary bound idle
    | some (.operator .minus) => return -(← primary bound idle)
    | some .not => return Operator.ofTruth (!isTrue (← primary bound idle))
    | some .complement => return ~~~(← primary bound idle)
    | _ => refuse "expecting primary"

end

/-- The value of an expression, with what it assigns, the latest first. -/
def evaluate (value? : Raw → Option Raw) (text : Raw) :
    Except Fault (Int64 × List (Raw × Int64)) := do
  let tokens := Token.scan text.length text
  let whole : Evaluation Int64 := do
    let n ← assignment (8 * tokens.length + 8) false
    if (← get).tokens != [] then refuse "expecting EOF"
    return n
  let (n, s) ← whole.run { tokens := tokens, value? := value? }
  return (n, s.assigned)

def Fault.text (expression : Raw) : Fault → Raw
  | .unreadable reason =>
    "arithmetic expression: ".toList ++ reason.toList ++ ": \"".toList ++ expression ++ ['"']
  | .badNumber text => Number.fault text

end LintRepair.Shell.Arithmetic
