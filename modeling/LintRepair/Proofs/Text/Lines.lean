import Mathlib.Data.List.Forall2
import Mathlib.Data.List.TakeWhile
import LintRepair.Text.Blank

/-! The lines of a text. They are the pieces between its line feeds, up to a carriage return at their
ends, and a piece that is empty at the end of the text is no line. What treats lines alike with and
without such a return, and makes nothing of an empty one, may be applied to the pieces. -/

namespace LintRepair.Text

/-- A text is put together from these lines, each but the last with a line feed behind it or with a
carriage return and a line feed. -/
inductive Lined : List Char → List (List Char) → Prop where
  | last {line : List Char} (inside : '\n' ∉ line) : Lined line [line]
  | feed {line rest : List Char} {lines : List (List Char)} (inside : '\n' ∉ line)
      (more : Lined rest lines) : Lined (line ++ '\n' :: rest) (line :: lines)
  | returnFeed {line rest : List Char} {lines : List (List Char)} (inside : '\n' ∉ line)
      (more : Lined rest lines) : Lined (line ++ '\r' :: '\n' :: rest) (line :: lines)

/-- What ends a line. -/
inductive IsLineEnd : List Char → Prop where
  | feed : IsLineEnd ['\n']
  | returnFeed : IsLineEnd ['\r', '\n']

/-- Every text can be taken apart into lines. -/
theorem exists_lined (s : List Char) : ∃ lines, Lined s lines := by
  induction hLength : s.length using Nat.strongRecOn generalizing s with
  | ind n ih =>
      by_cases hMem : '\n' ∈ s
      · obtain ⟨front, back, rfl, hFront⟩ := List.eq_append_cons_of_mem hMem
        have hShorter : back.length < n := by
          rw [← hLength, List.length_append, List.length_cons]
          omega
        obtain ⟨lines, hLines⟩ := ih _ hShorter back rfl
        exact ⟨_, .feed hFront hLines⟩
      · exact ⟨_, .last hMem⟩

/-- No line has a line feed in it. -/
theorem Lined.notMem {s : List Char} {lines : List (List Char)} (h : Lined s lines) :
    ∀ line ∈ lines, '\n' ∉ line := by
  induction h with
  | last inside => exact fun line hLine => List.mem_singleton.mp hLine ▸ inside
  | feed inside _ ih | returnFeed inside _ ih => exact List.forall_mem_cons.mpr ⟨inside, ih⟩

/-- A piece is this line, or the line with a carriage return behind it. -/
def IsPiece (line piece : List Char) : Prop := piece = line ∨ piece = line ++ ['\r']

/-- Cutting at line feeds gives the lines, some with a return left at their ends. -/
theorem Lined.pieces {s : List Char} {lines : List (List Char)} (h : Lined s lines) :
    List.Forall₂ IsPiece lines (s.splitOn '\n') := by
  induction h with
  | last inside =>
      rw [List.splitOn_eq_singleton inside]
      exact .cons (.inl rfl) .nil
  | feed inside _ ih =>
      rw [List.splitOn_append_cons_self_of_not_mem inside]
      exact .cons (.inl rfl) ih
  | @returnFeed line rest lines inside _ ih =>
      have hInside : '\n' ∉ line ++ ['\r'] := by simpa using inside
      rw [show line ++ '\r' :: '\n' :: rest = (line ++ ['\r']) ++ '\n' :: rest by simp,
        List.splitOn_append_cons_self_of_not_mem hInside]
      exact .cons (.inr rfl) ih

/-- A line feed at the front cuts off an empty piece. -/
theorem splitOn_feed (rest : List Char) : ('\n' :: rest).splitOn '\n' = [] :: rest.splitOn '\n' :=
  List.splitOn_append_cons_self_of_not_mem List.not_mem_nil rest

theorem splitOn_cons_of_ne {c : Char} (h : c ≠ '\n') (rest : List Char) :
    (c :: rest).splitOn '\n' = (rest.splitOn '\n').modifyHead (c :: ·) := by
  rw [List.splitOn_cons_eq_if_modifyHead, if_neg (by simpa using h)]

theorem lines_eq_nil_iff {s : List Char} : lines s = [] ↔ s = [] := by
  fun_cases lines s <;> simp_all

/-- The lines are the pieces, without an empty one at the end. -/
theorem lines_pieces (s : List Char) : ∃ tail, (tail = [] ∨ tail = [[]]) ∧
    List.Forall₂ IsPiece (lines s ++ tail) (s.splitOn '\n') := by
  fun_induction lines s with
  | case1 => exact ⟨[[]], .inr rfl, .cons (.inl rfl) .nil⟩
  | case2 rest ih =>
      obtain ⟨tail, hTail, hPieces⟩ := ih
      rw [splitOn_cons_of_ne (by decide), splitOn_feed]
      exact ⟨tail, hTail, .cons (.inr rfl) hPieces⟩
  | case3 rest _ ih =>
      obtain ⟨tail, hTail, hPieces⟩ := ih
      rw [splitOn_feed]
      exact ⟨tail, hTail, .cons (.inl rfl) hPieces⟩
  | case4 c rest _ hFeed hNone _ =>
      obtain rfl := lines_eq_nil_iff.mp hNone
      rw [splitOn_cons_of_ne hFeed]
      exact ⟨[], .inl rfl, .cons (.inl rfl) .nil⟩
  | case5 c rest _ hFeed line more hLines ih =>
      obtain ⟨tail, hTail, hPieces⟩ := ih
      rw [hLines, List.cons_append] at hPieces
      rw [splitOn_cons_of_ne hFeed]
      cases hSplit : rest.splitOn '\n' with
      | nil => exact absurd hSplit (List.splitOn_ne_nil _ _)
      | cons piece pieces =>
          rw [hSplit] at hPieces
          obtain ⟨hPiece, hMore⟩ := List.forall₂_cons.mp hPieces
          exact ⟨tail, hTail, .cons (hPiece.imp (congrArg _) (congrArg _)) hMore⟩

section

variable {α : Type} {f : List Char → Option α} (hReturn : ∀ line, f (line ++ ['\r']) = f line)
include hReturn

theorem filterMap_of_pieces {lines pieces : List (List Char)} (h : List.Forall₂ IsPiece lines pieces) :
    pieces.filterMap f = lines.filterMap f := by
  induction h with
  | nil => rfl
  | @cons line piece _ _ hPiece _ ih =>
      have hSame : f piece = f line := by
        rcases hPiece with rfl | rfl
        · rfl
        · exact hReturn _
      rw [List.filterMap_cons, List.filterMap_cons, hSame, ih]

/-- Where nothing comes of an empty line, lines may be cut at line feeds alone. -/
theorem filterMap_lines (hNil : f [] = none) (s : List Char) :
    (lines s).filterMap f = (s.splitOn '\n').filterMap f := by
  obtain ⟨tail, hTail, hPieces⟩ := lines_pieces s
  have hNone : tail.filterMap f = [] := by
    rcases hTail with rfl | rfl
    · rfl
    · simp [hNil]
  rw [filterMap_of_pieces hReturn hPieces, List.filterMap_append, hNone, List.append_nil]

/-- What is made of the lines of a text is made of the lines it is put together from. -/
theorem Lined.filterMap_lines {s : List Char} {ls : List (List Char)} (h : Lined s ls)
    (hNil : f [] = none) : (lines s).filterMap f = ls.filterMap f := by
  rw [Text.filterMap_lines hReturn hNil, filterMap_of_pieces hReturn h.pieces]

end

/-! ### Blanks at the ends of a line -/

theorem trimStart_append {blanks : List Char} (h : ∀ c ∈ blanks, isBlank c = true) (s : List Char) :
    trimStart (blanks ++ s) = trimStart s :=
  List.dropWhile_append_of_pos h

/-- Blanks in front have no part in a trimmed text. -/
theorem trim_append {blanks : List Char} (h : ∀ c ∈ blanks, isBlank c = true) (s : List Char) :
    trim (blanks ++ s) = trim s :=
  congrArg trimEnd (trimStart_append h s)

theorem trimStart_of_blank {s : List Char} (h : ∀ c ∈ s, isBlank c = true) : trimStart s = [] :=
  List.dropWhile_eq_nil_iff.mpr h

theorem trim_of_blank {s : List Char} (h : ∀ c ∈ s, isBlank c = true) : trim s = [] := by
  rw [trim, trimStart_of_blank h]
  rfl

theorem trimEnd_append {blanks : List Char} (h : ∀ c ∈ blanks, isBlank c = true) (s : List Char) :
    trimEnd (s ++ blanks) = trimEnd s := by
  unfold trimEnd
  rw [List.reverse_append, List.dropWhile_append_of_pos fun c hc => h c (List.mem_reverse.mp hc)]

/-- A blank at the end has no part in a trimmed text. -/
theorem trim_concat {c : Char} (h : isBlank c = true) (s : List Char) : trim (s ++ [c]) = trim s := by
  by_cases hBlank : ∀ d ∈ s, isBlank d = true
  · rw [trim_append hBlank, trim_of_blank hBlank, trim_of_blank (List.forall_mem_singleton.mpr h)]
  · have hStart : trimStart (s ++ [c]) = trimStart s ++ [c] := by
      have hSome : trimStart s ≠ [] := fun hNone => hBlank (List.dropWhile_eq_nil_iff.mp hNone)
      unfold trimStart at hSome ⊢
      rw [List.dropWhile_append, if_neg (by simpa using hSome)]
    rw [trim, hStart, trimEnd_append (List.forall_mem_singleton.mpr h)]
    rfl

end LintRepair.Text
