import LintRepair.Proofs.Files.Writing
import LintRepair.Proofs.Json.Trimming
import LintRepair.Proofs.Lint.Selection
import LintRepair.Workspace.Basic

/-! The changed files of a working tree as they are listed for it and as they are read. A path is listed
as it is if all its characters are plain, and between quotes with escapes otherwise. The listing is read
line by line and what a line holds between its blanks is taken for the path. So a path comes out
unaltered exactly if it is plain and has no blank at its ends. -/

namespace LintRepair

namespace Git

open Text (IsEdged)

/-! ### The listing -/

/-- A character that a path is listed with as it is: a visible one of the ASCII set or a space, but
neither a quote nor a backslash. -/
def isPlain (c : Char) : Bool :=
  0x20 ≤ c.toNat && c.toNat < 0x7F && c != '"' && c != '\\'

/-- The bytes that have a letter of their own behind the backslash. -/
def letters : List (UInt8 × Char) :=
  [(0x07, 'a'), (0x08, 'b'), (0x09, 't'), (0x0A, 'n'), (0x0B, 'v'), (0x0C, 'f'), (0x0D, 'r'),
    (0x22, '"'), (0x5C, '\\')]

/-- The last digit of a number in the octal system. -/
def octalDigit (n : Nat) : Char := Char.ofNat (0x30 + n % 8)

/-- A byte between the quotes. -/
def escaped (b : UInt8) : List Char :=
  match letters.lookup b with
  | some letter => ['\\', letter]
  | none =>
    if 0x20 ≤ b && b < 0x7F then [Char.ofNat b.toNat]
    else ['\\', octalDigit (b.toNat / 64), octalDigit (b.toNat / 8), octalDigit b.toNat]

def quoted (path : String) : List Char :=
  '"' :: ((Text.utf8 path.toList).flatMap escaped ++ ['"'])

def line (path : String) : List Char :=
  if path.toList.all isPlain then path.toList else quoted path

/-- The listing of some paths, one to a line. -/
def listing : List String → List Char
  | [] => []
  | path :: paths => line path ++ '\n' :: listing paths

theorem newline_notMem_escaped (b : UInt8) : '\n' ∉ escaped b := by
  have hBytes : ∀ n : Fin 256, '\n' ∉ escaped (.ofFin n) := by decide +kernel
  exact hBytes b.toFin

theorem newline_notMem_quoted (path : String) : '\n' ∉ quoted path := by
  intro hMem
  rcases List.mem_cons.mp hMem with hOpen | hMem
  · revert hOpen
    decide
  rcases List.mem_append.mp hMem with hInside | hClose
  · obtain ⟨b, -, hEscaped⟩ := List.mem_flatMap.mp hInside
    exact newline_notMem_escaped b hEscaped
  · revert hClose
    decide

/-- A path that is listed fills one line, for quoting escapes line feeds. -/
theorem newline_notMem_line (path : String) : '\n' ∉ line path := by
  unfold line
  split
  · rename_i hPlain
    intro hMem
    have hNewline := List.all_eq_true.mp hPlain _ hMem
    revert hNewline
    decide
  · exact newline_notMem_quoted path

/-- Every path of a listing has a line of its own. -/
theorem lined_listing (paths : List String) : Text.Lined (listing paths) (paths.map line ++ [[]]) := by
  induction paths with
  | nil => exact .last List.not_mem_nil
  | cons path paths ih => exact .feed (newline_notMem_line path) ih

/-- Trimming leaves a quoted path alone. -/
theorem isEdged_quoted (path : String) : IsEdged (quoted path) :=
  Text.isEdged_between (by decide) (by decide) _

theorem escaped_ne_nil (b : UInt8) : escaped b ≠ [] := by
  unfold escaped
  split
  · exact List.cons_ne_nil _ _
  · split <;> exact List.cons_ne_nil _ _

theorem length_le_length_flatMap {α β : Type} {f : α → List β} (h : ∀ a, f a ≠ []) (l : List α) :
    l.length ≤ (l.flatMap f).length := by
  induction l with
  | nil => exact Nat.le_refl _
  | cons a l ih =>
      have hSome : 0 < (f a).length := List.length_pos_of_ne_nil (h a)
      rw [List.flatMap_cons, List.length_append, List.length_cons]
      omega

/-- The quotes make a path longer, whatever is between them. -/
theorem length_lt_length_quoted (path : String) : path.toList.length < (quoted path).length := by
  have hBytes : path.toList.length ≤ (Text.utf8 path.toList).length := by
    refine length_le_length_flatMap (fun c hNone => ?_) path.toList
    have hSize := String.length_utf8EncodeChar c
    rw [hNone] at hSize
    exact absurd hSize (Nat.ne_of_lt c.utf8Size_pos)
  have hEscaped := length_le_length_flatMap escaped_ne_nil (Text.utf8 path.toList)
  rw [quoted, List.length_cons, List.length_append]
  omega

/-! ### Reading it -/

/-- The path that a line is taken for. -/
def read? (s : List Char) : Option String :=
  if (Text.trim s).isEmpty then none else some (String.ofList (Text.trim s))

/-- The name that a listed path gets: a plain one loses the blanks at its ends, and gets none if it is
blank; any other keeps its quotes and escapes. -/
def listed? (path : String) : Option String :=
  if path.toList.all isPlain then read? path.toList else some (String.ofList (quoted path))

/-- Quoting leaves no blank at an end, so reading the line of a quoted path trims nothing. -/
theorem read?_line (path : String) : read? (line path) = listed? path := by
  unfold line listed?
  split
  · rfl
  · rw [read?, (isEdged_quoted path).trim]
    rfl

/-- The names read from a listing are those of the paths in it, in their order. -/
theorem changedPaths_listing (paths : List String) :
    Workspace.changedPaths (String.ofList (listing paths)).toByteArray = paths.filterMap listed? := by
  have hText : Text.textLossy (String.ofList (listing paths)).toByteArray =
      String.ofList (listing paths) := by
    rw [Text.textLossy, Files.Tree.fromUTF8?_toByteArray]
  have hReturn : ∀ s, read? (s ++ ['\r']) = read? s := by
    intro s
    rw [read?, Text.trim_concat (by decide)]
    rfl
  have hLines := (lined_listing paths).filterMap_lines hReturn rfl
  calc Workspace.changedPaths (String.ofList (listing paths)).toByteArray
      = (Text.lines (listing paths)).filterMap read? := by
        rw [Workspace.changedPaths, hText, String.toList_ofList]
        rfl
    _ = (paths.map line).filterMap read? ++ [] := by
        rw [hLines, List.filterMap_append]
        rfl
    _ = paths.filterMap listed? := by
        rw [List.append_nil, List.filterMap_map]
        exact congrArg (paths.filterMap ·) (funext read?_line)

/-- A path that is listed as it is and read as it is listed. -/
structure IsUnaltered (path : String) : Prop where
  plain : ∀ c ∈ path.toList, isPlain c = true
  edged : IsEdged path.toList

/-- A path is listed as itself exactly if it is neither quoted nor trimmed. -/
theorem listed?_eq_some_self_iff (path : String) : listed? path = some path ↔ IsUnaltered path := by
  constructor
  · intro h
    unfold listed? at h
    split at h
    · rename_i hPlain
      refine ⟨List.all_eq_true.mp hPlain, ?_⟩
      unfold read? at h
      split at h
      · cases h
      · rename_i hSome
        have hTrim : Text.trim path.toList = path.toList := by
          rw [← String.toList_ofList (l := Text.trim path.toList), Option.some.inj h]
        rw [← hTrim]
        exact Text.isEdged_trim fun hNone => hSome (List.isEmpty_iff.mpr hNone)
    · have hQuoted : quoted path = path.toList := by
        rw [← String.toList_ofList (l := quoted path), Option.some.inj h]
      have hLonger := length_lt_length_quoted path
      rw [hQuoted] at hLonger
      exact absurd hLonger (Nat.lt_irrefl _)
  · rintro ⟨hPlain, hEdged⟩
    have hSome : path.toList.isEmpty = false := by
      obtain ⟨⟨c, more, hOpen, -⟩, -⟩ := hEdged
      rw [hOpen]
      rfl
    rw [listed?, if_pos (List.all_eq_true.mpr hPlain), read?, hEdged.trim, hSome,
      if_neg Bool.false_ne_true, String.ofList_toList]

/-- A list is what is left of it exactly if everything in it is left as it is. -/
theorem filterMap_eq_self_iff {α : Type} {f : α → Option α} {l : List α} :
    l.filterMap f = l ↔ ∀ a ∈ l, f a = some a := by
  induction l with
  | nil => simp
  | cons a l ih =>
      cases hHead : f a with
      | none =>
          rw [List.filterMap_cons_none hHead]
          refine iff_of_false (fun hSame => ?_) fun hAll => ?_
          · have hShort := List.length_filterMap_le f l
            rw [hSame, List.length_cons] at hShort
            omega
          · have hKept := hAll a List.mem_cons_self
            rw [hHead] at hKept
            cases hKept
      | some b =>
          rw [List.filterMap_cons_some hHead, List.cons.injEq, ih, List.forall_mem_cons, hHead,
            Option.some.injEq]

/-- In a directory `git` lists these paths as changed. -/
structure Reports (w : Workspace) (root : String) (paths : List String) : Prop where
  directory : ∃ here, w.commandDirectory root = .ok here
  program : ∃ p, w.programs.find? (fun p => p.name == "git" &&
    p.arguments == ["diff", "--name-only"]) = some p ∧ p.status = 0 ∧
    p.output = (String.ofList (listing paths)).toByteArray

end Git

namespace Workspace

open Git (Reports IsUnaltered listed?)

/-- The changed files are the listed paths in their order, each under the name that its line gives. They
are the paths themselves exactly if each of these is unaltered. A path that is unaltered selects its
target whatever else is listed. -/
theorem changedFiles_listed (w : Workspace) (root : String) (paths : List String)
    (h : Reports w root paths) :
    w.changedFiles root = paths.filterMap listed? ∧
    (w.changedFiles root = paths ↔ ∀ path ∈ paths, IsUnaltered path) ∧
    ∀ path ∈ paths, IsUnaltered path → ∀ targets i, Selection.owner? targets path = some i →
      i ∈ Selection.positions targets (w.changedFiles root) := by
  have hListed : w.changedFiles root = paths.filterMap listed? := by
    obtain ⟨⟨here, hHere⟩, p, hFind, hStatus, hOutput⟩ := h
    unfold changedFiles
    rw [hHere, hFind]
    dsimp only
    rw [if_pos hStatus, hOutput, Git.changedPaths_listing]
  refine ⟨hListed, ?_, fun path hPath hUnaltered targets i hOwner => ?_⟩
  · rw [hListed, Git.filterMap_eq_self_iff]
    exact forall₂_congr fun path _ => Git.listed?_eq_some_self_iff path
  · rw [hListed]
    exact Selection.mem_positions.mpr ⟨path,
      List.mem_filterMap.mpr ⟨path, hPath, (Git.listed?_eq_some_self_iff path).mpr hUnaltered⟩, hOwner⟩

/-- A working tree without files, for which `git` lists these paths. -/
def withChanges (paths : List String) : Workspace where
  tree := .empty
  directory := []
  programs := [{
    name := "git"
    arguments := ["diff", "--name-only"]
    output := (String.ofList (Git.listing paths)).toByteArray
    status := 0 }]

theorem reports_withChanges (paths : List String) : Reports (withChanges paths) "." paths :=
  ⟨⟨[], rfl⟩, _, rfl, rfl, rfl⟩

theorem changedFiles_listed_accented :
    Reports (withChanges ["a.go", "é.go", "b.go "]) "." ["a.go", "é.go", "b.go "] ∧
    (withChanges ["a.go", "é.go", "b.go "]).changedFiles "." =
      ["a.go", "\"\\303\\251.go\"", "b.go"] := by
  have hReports := reports_withChanges ["a.go", "é.go", "b.go "]
  have hListed := (changedFiles_listed _ _ _ hReports).1
  exact ⟨hReports, hListed.trans (by decide +kernel)⟩

/-- A path with an accent comes out under another name: its line is not taken apart. -/
theorem changedFiles_keeps_quotes : ¬ ∀ (w : Workspace) (root : String) (paths : List String),
    Reports w root paths → w.changedFiles root = paths := by
  intro hExact
  have hAccent := hExact _ _ _ (reports_withChanges ["é.go"])
  revert hAccent
  decide +kernel

end Workspace

end LintRepair
