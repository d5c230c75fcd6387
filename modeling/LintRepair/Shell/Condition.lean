import LintRepair.Shell.Process

/-!
Conditions on texts, numbers and files, as the testing commands take them. The words of a condition
are told apart by their number first, and only then by what they are.
-/

namespace LintRepair.Shell

/-- Tests with one operand. -/
inductive UnaryTest where
  | isEmpty
  | isNotEmpty
  | isTerminal
  | isRunnable
  | doesExist
  | isFile
  | isDirectory
  | isFilled
  | never
deriving DecidableEq, Repr

/-- Tests with two operands. -/
inductive BinaryTest where
  | same
  | different
  | before
  | behind
  | compared (test : Int → Int → Bool)
  | newer
  | older
  | sameFile

/-- What a word may be in a condition. -/
inductive ConditionToken where
  | unary (test : UnaryTest)
  | binary (test : BinaryTest)
  | not
  | andThen
  | orElse
  | open
  | close

namespace ConditionToken

def table : List (String × ConditionToken) :=
  [("-r", .unary .doesExist), ("-w", .unary .doesExist), ("-x", .unary .isRunnable),
    ("-e", .unary .doesExist), ("-f", .unary .isFile), ("-d", .unary .isDirectory),
    ("-c", .unary .never), ("-b", .unary .never), ("-p", .unary .never), ("-u", .unary .never),
    ("-g", .unary .never), ("-k", .unary .never), ("-s", .unary .isFilled),
    ("-t", .unary .isTerminal), ("-z", .unary .isEmpty), ("-n", .unary .isNotEmpty),
    ("-h", .unary .never), ("-O", .unary .doesExist), ("-G", .unary .doesExist),
    ("-L", .unary .never), ("-S", .unary .never),
    ("=", .binary .same), ("!=", .binary .different), ("<", .binary .before),
    (">", .binary .behind), ("-eq", .binary (.compared (· == ·))),
    ("-ne", .binary (.compared (· != ·))), ("-ge", .binary (.compared fun m n => n ≤ m)),
    ("-gt", .binary (.compared fun m n => n < m)), ("-le", .binary (.compared fun m n => m ≤ n)),
    ("-lt", .binary (.compared fun m n => m < n)), ("-nt", .binary .newer),
    ("-ot", .binary .older), ("-ef", .binary .sameFile), ("!", .not), ("-a", .andThen),
    ("-o", .orElse), ("(", .open), (")", .close)]

def ofWord? (s : Raw) : Option ConditionToken :=
  (table.find? fun (text, _) => text.toList == s).map (·.2)

/-- Whether a word stands between two operands. -/
def isBinary (s : Raw) : Bool :=
  match ofWord? s with
  | some (.binary _) => true
  | _ => false

/-- What a word is in front of others. A test with one operand is none if it has to be an operand
itself, and neither is a parenthesis at the very end. -/
def ofWords? : List Raw → Option ConditionToken
  | [] => none
  | s :: rest =>
    match ofWord? s with
    | some (.unary test) =>
      let isOperand := match rest with
        | [] => true
        | [_] => false
        | next :: _ :: _ => isBinary next
      if isOperand then none else some (.unary test)
    | some .open => if rest.isEmpty then none else some .open
    | t => t

end ConditionToken

namespace Condition

/-- The special files that may be read and written. -/
def deviceNames : List String :=
  ["/dev/null", "/dev/stdin", "/dev/stdout", "/dev/stderr", "/dev/zero", "/dev/full", "/dev/random",
    "/dev/urandom", "/dev/tty"]

/-- Whether a path names a special file. -/
def isDevice (path : Raw) : Bool := deviceNames.any (·.toList == path)

def fileTest (p : Process) (path : Raw) : UnaryTest → Bool
  | .doesExist => isDevice path || p.tree.doesExist p.directory (Raw.text path)
  | .isFile => p.tree.isFile p.directory (Raw.text path)
  | .isDirectory => p.tree.isDirectory p.directory (Raw.text path)
  | .isFilled =>
    match p.tree.find p.directory (Raw.text path) with
    | .ok (_, .file content) => 0 < content.size
    | .ok (_, .directory) => true
    | .error _ => false
  | .isRunnable =>
    match p.tree.find p.directory (Raw.text path) with
    | .ok (here, .file _) => p.tree.runnable.contains here
    | .ok (_, .directory) => true
    | .error _ => false
  | _ => false

def number (s : Raw) : Act Int :=
  match Number.decimal? s with
  | some n => pure n
  | none => Act.fail (Number.fault s)

/-- Give up because of a word, which is not named if it is empty. -/
def refuse {α : Type} (word : Raw) (reason : String) : Act α :=
  Act.fail (if word.isEmpty then reason.toList else word ++ ": ".toList ++ reason.toList)

def unary (test : UnaryTest) (operand : Raw) : Act Bool := do
  match test with
  | .isEmpty => return operand.isEmpty
  | .isNotEmpty => return !operand.isEmpty
  | .isTerminal =>
    let _ ← number operand
    return false
  | _ => return fileTest (← get) operand test

/-- The truth of a test with two operands. Files carry no times here, so none is newer. -/
def binary (test : BinaryTest) (a b : Raw) : Act Bool := do
  match test with
  | .same => return a == b
  | .different => return a != b
  | .before => return a < b
  | .behind => return b < a
  | .compared test =>
    let m ← number a
    return test m (← number b)
  | .sameFile =>
    let p ← get
    let at_ (s : Raw) := (p.tree.find p.directory (Raw.text s)).toOption.map (·.1)
    return (at_ a).isSome && at_ a == at_ b
  | _ => return false

mutual

/-- The truth of one of several conditions, with the words left. -/
def disjunction : Nat → List Raw → Act (Bool × List Raw)
  | 0, ws => pure (false, ws)
  | bound + 1, ws => do
    let (a, ws) ← conjunction bound ws
    match ConditionToken.ofWords? ws with
    | some .orElse =>
      let (b, ws) ← disjunction bound (ws.drop 1)
      return (a || b, ws)
    | _ => return (a, ws)

/-- The truth of all of several conditions. -/
def conjunction : Nat → List Raw → Act (Bool × List Raw)
  | 0, ws => pure (false, ws)
  | bound + 1, ws => do
    let (a, ws) ← negation bound ws
    match ConditionToken.ofWords? ws with
    | some .andThen =>
      let (b, ws) ← conjunction bound (ws.drop 1)
      return (a && b, ws)
    | _ => return (a, ws)

/-- The truth of a condition that may be turned around. -/
def negation : Nat → List Raw → Act (Bool × List Raw)
  | 0, ws => pure (false, ws)
  | bound + 1, ws => do
    match ConditionToken.ofWords? ws, ws with
    | some .not, [_] => return (true, [])
    | some .not, _ :: rest =>
      let (a, ws) ← negation bound rest
      return (!a, ws)
    | _, _ => primary bound ws

/-- The truth of a single test or of a condition in parentheses. -/
def primary : Nat → List Raw → Act (Bool × List Raw)
  | 0, ws => pure (false, ws)
  | bound + 1, ws => do
    match ConditionToken.ofWords? ws, ws with
    | _, [] => return (false, [])
    | some .open, _ :: rest =>
      match ConditionToken.ofWords? rest with
      | some .close => return (false, rest.drop 1)
      | _ =>
        let (a, ws) ← disjunction bound rest
        match ConditionToken.ofWords? ws with
        | some .close => return (a, ws.drop 1)
        | _ => refuse [] "closing paren expected"
    | some (.unary test), word :: rest =>
      match rest with
      | [] => refuse word "argument expected"
      | operand :: rest => return (← unary test operand, rest)
    | _, first :: rest =>
      match ConditionToken.ofWords? rest, rest with
      | some (.binary test), word :: operands =>
        match operands with
        | [] => refuse word "argument expected"
        | second :: rest => return (← binary test first second, rest)
      | _, _ => return (!first.isEmpty, rest)

end

/-- The truth of three words with a test between two operands. -/
def between? : List Raw → Option (Act Bool)
  | [a, word, b] =>
    match ConditionToken.ofWord? word with
    | some (.binary test) => some (binary test a b)
    | _ => none
  | _ => none

/-- The truth of a condition of any length. If words are left, the last one that was understood is
to blame. -/
def any (ws : List Raw) : Act Bool := do
  let (a, rest) ← disjunction (8 * ws.length + 8) ws
  if rest.isEmpty then return a
  else refuse (ws.getD (ws.length - rest.length - 1) []) "unexpected operator"

/-- The truth of a condition. Few words are looked at as a whole first. The bound is their
number. -/
def truth : Nat → List Raw → Act Bool
  | 0, _ => pure false
  | bound + 1, ws =>
    match ws with
    | [] => pure false
    | first :: rest =>
      match between? ws with
      | some test => test
      | none =>
        if ws.length = 3 || ws.length = 4 then
          if first == ['('] && ws.getLast? == some [')'] then any rest.dropLast
          else if first == ['!'] then do return !(← truth bound rest)
          else any ws
        else any ws

end Condition

end LintRepair.Shell
