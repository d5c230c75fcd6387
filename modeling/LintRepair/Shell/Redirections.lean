import LintRepair.Shell.Expansion

/-!
Leading streams elsewhere for the time of a command. All paths are expanded before the first file is
opened.
-/

namespace LintRepair.Shell

open Files (Failure)

/-- A redirection whose words are expanded. -/
inductive Route where
  | file (stream : Nat) (opening : Opening) (path : Raw)
  | copy (stream : Nat) (source : Option Nat)
  | document (stream : Nat) (text : Raw)

namespace Route

/-- The stream that a route leads elsewhere. -/
def stream : Route → Nat
  | .file stream _ _ => stream
  | .copy stream _ => stream
  | .document stream _ => stream

def ofRedirection (run : OutputOf) : Redirection → Act Route
  | .file stream opening path => return .file stream opening (← Expansion.text run .text path)
  | .copy stream source => do
    match ← Expansion.text run .text source with
    | ['-'] => return .copy stream none
    | [c] =>
      if c.isDigit then return .copy stream (some (c.toNat - '0'.toNat)) else badStream
    | _ => badStream
  | .document stream number => do
    let word := ((← get).documents.lookup number).getD []
    return .document stream (← Expansion.text run .text word)
where
  badStream : Act Route := do
    modify fun p => { p with line := p.lineRead }
    Act.fail "Syntax error: Bad fd number".toList

/-- Why a file cannot be opened. -/
def failureText (creates : Bool) (cause : Failure) : Raw :=
  match cause with
  | .notFound | .notDirectory =>
    (if creates then "Directory nonexistent" else "No such file").toList
  | cause => cause.text.toList

def refuse {α : Type} (creates : Bool) (path : Raw) (cause : Failure) : Act α :=
  Act.fail ((if creates then "cannot create " else "cannot open ").toList ++ path ++ ": ".toList ++
    failureText creates cause)

def leadTo (stream : Nat) (f : OpenFile) : Act Unit := modify fun p =>
  let (number, p) := p.openFile f
  p.lead stream (some number)

def streamPath? (path : Raw) : Option Nat :=
  if path == "/dev/stdin".toList then some 0
  else if path == "/dev/stdout".toList then some 1
  else if path == "/dev/stderr".toList then some 2
  else if "/dev/fd/".toList.isPrefixOf path then Number.count? (path.drop 8)
  else none

def openForReading (stream : Nat) (path : Raw) : Act Unit := do
  let p ← get
  match p.tree.find p.directory (Raw.text path) with
  | .ok (here, _) => leadTo stream { target := .file here false, writable := false }
  | .error cause => refuse false path cause

/-- Open a file for writing, and make it if it is not there. -/
def openForWriting (stream : Nat) (opening : Opening) (path : Raw) : Act Unit := do
  let p ← get
  match p.tree.locateFile p.directory (Raw.text path) with
  | .error cause => refuse true path cause
  | .ok here =>
    let old := match p.tree.entry? here with
      | some (.file content) => some content
      | _ => none
    if opening == .write && p.hasOption 'C' && old.isSome then refuse true path .alreadyExists
    let keeps := opening == .append || opening == .readWrite
    let content := if keeps then old.getD .empty else .empty
    modify fun p => { p with tree := p.tree.put here (.file content) }
    leadTo stream { target := .file here (opening == .append), readable := opening == .readWrite }

def follow : Route → Act Unit
  | .document stream text => leadTo stream { target := .source text, writable := false }
  | .copy stream none => modify fun p => p.lead stream none
  | .copy stream (some source) => do
    match (← get).streams.lookup source with
    | some number => modify fun p => p.lead stream (some number)
    | none => Act.fail (Raw.ofNat source ++ ": Bad file descriptor".toList)
  | .file stream opening path => do
    if path == "/dev/null".toList then leadTo stream { target := .nowhere }
    else
      let streams := (← get).streams
      match (streamPath? path).bind fun n => streams.lookup n with
      | some number => modify fun p => p.lead stream (some number)
      | none =>
        if opening == .read then openForReading stream path
        else openForWriting stream opening path

/-- Carry out redirections from left to right. If one fails, none is left in place. -/
def followAll (run : OutputOf) (rs : List Redirection) : Act Unit := do
  if rs.isEmpty then return
  let routes ← rs.mapM (ofRedirection run)
  let before := (← get).streams
  match ← Act.attempt (routes.forM follow) with
  | .ok () => return
  | .error stop =>
    modify fun p => { p with streams := before }
    throw stop

def streamsOf (rs : List Redirection) : List Nat :=
  rs.map fun
    | .file stream _ _ => stream
    | .copy stream _ => stream
    | .document stream _ => stream

/-- Lead the streams of redirections back to where they led before. -/
def undo (rs : List Redirection) (before : List (Nat × Nat)) : Act Unit := modify fun p =>
  (streamsOf rs).foldl (fun p stream => p.lead stream (before.lookup stream)) p

end Route

end LintRepair.Shell
