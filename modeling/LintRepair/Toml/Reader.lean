import LintRepair.Toml.Scalar

/-!
Reading TOML documents. A byte order mark at the start is ignored; line ends are a line feed, alone
or after a carriage return; inside brackets and braces line ends and comments may stand between
tokens.
-/

namespace LintRepair.Toml

/-- A reader gives a value and the text after it. -/
abbrev Reader (α : Type) := List Char → Option (α × List Char)

/-- Space within a line. -/
def isBlank (c : Char) : Bool := c == ' ' || c == '\t'

/-- Pass over space within a line. -/
def skipBlank (s : List Char) : List Char := s.dropWhile isBlank

/-- A character that may stand in comments and, quotes and backslashes apart, in strings. -/
def isText (c : Char) : Bool := c == '\t' || (0x20 ≤ c.toNat && c.toNat != 0x7F)

mutual

/-- Pass over space, line ends and comments. -/
def skipTrivia : List Char → Option (List Char)
  | [] => some []
  | c :: s =>
    if isBlank c || c == '\n' then skipTrivia s
    else if c = '\r' then
      match s with
      | '\n' :: t => skipTrivia t
      | _ => none
    else if c = '#' then skipComment s
    else some (c :: s)

/-- Pass over the rest of a comment, and what follows it. -/
def skipComment : List Char → Option (List Char)
  | [] => some []
  | c :: s =>
    if c = '\n' then skipTrivia s
    else if c = '\r' then
      match s with
      | '\n' :: t => skipTrivia t
      | _ => none
    else if isText c then skipComment s
    else none

end

/-- The end of a line after a complete expression: space, perhaps a comment, and a line end or the
end of the text. -/
def lineEnd (s : List Char) : Option (List Char) :=
  let s := skipBlank s
  let s := match s with
    | '#' :: t => t.dropWhile isText
    | t => t
  match s with
  | [] => some []
  | '\n' :: t => some t
  | '\r' :: '\n' :: t => some t
  | _ => none

/-! ### Strings -/

/-- The code point written by hexadecimal digits. -/
def codePoint (digits : List Char) : Option Char := do
  let ds ← digits.mapM (digit? 16)
  let n := ds.foldl (fun n d => n * 16 + d) 0
  if n.isValidChar then some (Char.ofNat n) else none

def shortEscape (c : Char) : Option Char :=
  if c = 'b' then some '\x08'
  else if c = 't' then some '\t'
  else if c = 'n' then some '\n'
  else if c = 'f' then some '\x0c'
  else if c = 'r' then some '\r'
  else if c = 'e' then some '\x1b'
  else if c = '"' then some '"'
  else if c = '\\' then some '\\'
  else none

def escape : Reader Char
  | 'x' :: a :: b :: s => (codePoint [a, b]).map fun c => (c, s)
  | 'u' :: a :: b :: c :: d :: s => (codePoint [a, b, c, d]).map fun c => (c, s)
  | 'U' :: a :: b :: c :: d :: e :: f :: g :: h :: s =>
    (codePoint [a, b, c, d, e, f, g, h]).map fun c => (c, s)
  | c :: s => (shortEscape c).map fun c => (c, s)
  | [] => none

/-- The rest of a string in double quotes; the bound is at least its length. -/
def basicBody : Nat → Reader (List Char)
  | 0, _ => none
  | _ + 1, [] => none
  | bound + 1, c :: s =>
    if c = '"' then some ([], s)
    else if c = '\\' then do
      let (c, s) ← escape s
      let (cs, s) ← basicBody bound s
      some (c :: cs, s)
    else if isText c then (basicBody bound s).map fun (cs, s) => (c :: cs, s)
    else none

/-- The rest of a string in single quotes. -/
def literalBody : Reader (List Char)
  | [] => none
  | c :: s =>
    if c = '\'' then some ([], s)
    else if isText c then (literalBody s).map fun (cs, s) => (c :: cs, s)
    else none

/-- The end of a string in triple quotes: up to two more quotes belong to the text. -/
def tripleEnd (q : Char) (s : List Char) : List Char × List Char :=
  match s with
  | a :: b :: t =>
    if a = q then if b = q then ([q, q], t) else ([q], b :: t) else ([], s)
  | [a] => if a = q then ([q], []) else ([], s)
  | [] => ([], [])

/-- Whether three quotes come next, and what follows them. -/
def triple? (q : Char) : List Char → Option (List Char)
  | a :: b :: c :: s => if a = q ∧ b = q ∧ c = q then some s else none
  | _ => none

/-- Pass over space and line ends. -/
def skipLines : List Char → List Char
  | '\r' :: '\n' :: s => skipLines s
  | c :: s => if isBlank c || c == '\n' then skipLines s else c :: s
  | [] => []

/-- What follows a backslash at the end of a line: the text goes on at the next character that is
not space. -/
def foldedLine (s : List Char) : Option (List Char) :=
  match skipBlank s with
  | '\n' :: t => some (skipLines t)
  | '\r' :: '\n' :: t => some (skipLines t)
  | _ => none

/-- The rest of a string in three double quotes. -/
def multilineBasic : Nat → Reader (List Char)
  | 0, _ => none
  | _ + 1, [] => none
  | bound + 1, c :: s =>
    match triple? '"' (c :: s) with
    | some t => some (tripleEnd '"' t)
    | none =>
      if c = '\\' then
        match foldedLine s with
        | some t => multilineBasic bound t
        | none => do
          let (c, s) ← escape s
          let (cs, s) ← multilineBasic bound s
          some (c :: cs, s)
      else if c = '\r' then
        match s with
        | '\n' :: t => (multilineBasic bound t).map fun (cs, s) => ('\r' :: '\n' :: cs, s)
        | _ => none
      else if isText c || c == '\n' then
        (multilineBasic bound s).map fun (cs, s) => (c :: cs, s)
      else none

/-- The rest of a string in three single quotes. -/
def multilineLiteral : Nat → Reader (List Char)
  | 0, _ => none
  | _ + 1, [] => none
  | bound + 1, c :: s =>
    match triple? '\'' (c :: s) with
    | some t => some (tripleEnd '\'' t)
    | none =>
      if c = '\r' then
        match s with
        | '\n' :: t => (multilineLiteral bound t).map fun (cs, s) => ('\r' :: '\n' :: cs, s)
        | _ => none
      else if isText c || c == '\n' then
        (multilineLiteral bound s).map fun (cs, s) => (c :: cs, s)
      else none

/-- The text of a string in triple quotes begins on the next line, if nothing stands on the
first. -/
def skipFirstNewline : List Char → List Char
  | '\n' :: s => s
  | '\r' :: '\n' :: s => s
  | s => s

/-- A string of any of the four kinds. -/
def quotedString : Reader String := fun s =>
  let body : Option (List Char × List Char) :=
    match triple? '"' s with
    | some t => multilineBasic (t.length + 1) (skipFirstNewline t)
    | none =>
      match triple? '\'' s with
      | some t => multilineLiteral (t.length + 1) (skipFirstNewline t)
      | none =>
        match s with
        | '"' :: t => basicBody (t.length + 1) t
        | '\'' :: t => literalBody t
        | _ => none
  body.map fun (cs, s) => (String.ofList cs, s)

/-! ### Keys -/

/-- A character of a key without quotes. -/
def isBare (c : Char) : Bool := c.isAlphanum || c == '-' || c == '_'

def simpleKey : Reader String := fun s =>
  match s with
  | '"' :: t => (basicBody (t.length + 1) t).map fun (cs, s) => (String.ofList cs, s)
  | '\'' :: t => (literalBody t).map fun (cs, s) => (String.ofList cs, s)
  | _ =>
    let bare := s.takeWhile isBare
    if bare.isEmpty then none else some (String.ofList bare, s.drop bare.length)

/-- The parts of a key with dots between them: those before the last, and the last. -/
def dottedKey : Nat → Reader (List String × String)
  | 0, _ => none
  | bound + 1, s => do
    let (part, s) ← simpleKey (skipBlank s)
    match skipBlank s with
    | '.' :: t => do
      let ((path, key), s) ← dottedKey bound t
      some ((part :: path, key), s)
    | t => some (([], part), t)

/-- How deep arrays and inline tables may be nested, and how many parts a key may have. -/
def maxDepth : Nat := 80

def key : Reader (List String × String) := fun s => do
  let ((path, name), s) ← dottedKey (s.length + 1) s
  if path.length < maxDepth then some ((path, name), s) else none

/-! ### Values -/

/-- A character that cannot belong to a value without quotes. -/
def endsScalar (c : Char) : Bool :=
  c == ' ' || c == '\t' || c == '\n' || c == '\r' || c == ',' || c == ']' || c == '\x7d' ||
    c == '#' || c == '=' || c == '[' || c == '\x7b' || c == '"' || c == '\''

/-- A value without quotes. A date may be followed by a time after a single space. -/
def unquoted : Reader Toml := fun s =>
  let front := s.takeWhile (!endsScalar ·)
  let rest := s.drop front.length
  let text := match date? front, rest with
    | some [], ' ' :: c :: more =>
      if c.isDigit then front ++ ' ' :: (c :: more).takeWhile (!endsScalar ·) else front
    | _, _ => front
  (scalar? text).map fun v => (v, s.drop text.length)

/-- The rest of an array. Items are separated by commas, and a comma may follow the last. -/
def arrayBody (item : Reader Toml) : Nat → Reader (List Toml)
  | 0, _ => none
  | bound + 1, s => do
    match ← skipTrivia s with
    | ']' :: t => some ([], t)
    | t =>
      let (v, t) ← item t
      match ← skipTrivia t with
      | ',' :: t => (arrayBody item bound t).map fun (vs, t) => (v :: vs, t)
      | ']' :: t => some ([v], t)
      | _ => none

/-- The rest of an inline table, added to the entries read so far. A key stands on one line, but
space around the equals sign may hold line ends. -/
def inlineBody (value : Reader Toml) : Nat → Entries → Reader Entries
  | 0, _, _ => none
  | bound + 1, entries, s => do
    match ← skipTrivia s with
    | '\x7d' :: t => some (entries, t)
    | t =>
      let ((path, name), t) ← key t
      match ← skipTrivia t with
      | '=' :: t =>
        let (v, t) ← value (← skipTrivia t)
        let entries ← addEntry path name v entries
        match ← skipTrivia t with
        | ',' :: t => inlineBody value bound entries t
        | '\x7d' :: t => some (entries, t)
        | _ => none
      | _ => none

/-- A value in which arrays and inline tables are nested at most `depth` levels. -/
def value : Nat → Reader Toml
  | depth, s =>
    match s with
    | '"' :: _ => (quotedString s).map fun (t, r) => (.string t, r)
    | '\'' :: _ => (quotedString s).map fun (t, r) => (.string t, r)
    | '[' :: t =>
      match depth with
      | 0 => none
      | depth + 1 =>
        (arrayBody (value depth) (t.length + 1) t).map fun (items, r) => (.array false items, r)
    | '\x7b' :: t =>
      match depth with
      | 0 => none
      | depth + 1 =>
        (inlineBody (value depth) (t.length + 1) [] t).map fun (entries, r) =>
          (.table .inline entries, r)
    | _ => unquoted s

/-! ### Documents -/

/-- What has been read of a document: the path of the last header, and all entries. -/
structure Progress where
  header : List String
  root : Entries

/-- The name of a header up to its closing bracket. -/
def headerName (s : List Char) : Option ((List String × String) × List Char) := do
  let (name, s) ← key s
  let s ← after? ']' s
  some (name, s)

/-- One expression with the end of its line. -/
def expression (p : Progress) (s : List Char) : Option (Progress × List Char) :=
  match s with
  | '[' :: '[' :: t => do
    let ((path, name), t) ← headerName t
    let t ← after? ']' t
    let root ← appendTable path name p.root
    let t ← lineEnd t
    some (⟨path ++ [name], root⟩, t)
  | '[' :: t => do
    let ((path, name), t) ← headerName t
    let root ← openTable path name p.root
    let t ← lineEnd t
    some (⟨path ++ [name], root⟩, t)
  | _ => do
    let ((path, name), t) ← key s
    let t ← after? '=' t
    let (v, t) ← value maxDepth (skipBlank t)
    let root ← addUnder p.header path name v p.root
    let t ← lineEnd t
    some (⟨p.header, root⟩, t)

/-- The rest of a document; the bound is at least its length. -/
def document : Nat → Progress → List Char → Option Entries
  | 0, _, _ => none
  | bound + 1, p, s => do
    match ← skipTrivia s with
    | [] => some p.root
    | t =>
      let (p, t) ← expression p t
      document bound p t

def parse (s : List Char) : Option Entries :=
  let s := match s with
    | '\uFEFF' :: t => t
    | t => t
  document (s.length + 1) ⟨[], []⟩ s

end LintRepair.Toml
