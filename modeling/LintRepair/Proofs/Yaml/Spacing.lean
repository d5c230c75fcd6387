import LintRepair.Proofs.Text.Lines
import LintRepair.Yaml.Lexer

/-! Space between the tokens of a YAML text, and scalars that stand on one line. Between two entries
there are the rest of a line, lines with nothing but a comment, and the indentation of the next entry;
the lexer passes over all of it and is then at the column of that entry. -/

namespace LintRepair.Yaml

open Text (IsLineEnd)

/-! ### The grammar of space -/

def spaces (n : Nat) : List Char := List.replicate n ' '

/-- What a line may hold besides an entry: spaces and a comment. -/
inductive IsRemark : List Char → Prop where
  | blank (n : Nat) : IsRemark (spaces n)
  | comment (n : Nat) {t : List Char} (text : ∀ c ∈ t, isBreak c = false) :
      IsRemark (spaces n ++ '#' :: t)

/-- From the start of a line: lines without an entry, and the indentation of the next entry. -/
inductive Leads (column : Nat) : List Char → Prop where
  | indent : Leads column (spaces column)
  | line {r e more : List Char} (remark : IsRemark r) (lineEnd : IsLineEnd e) (leads : Leads column more) :
      Leads column (r ++ (e ++ more))

/-- From the end of an entry: the rest of its line, where a comment is set apart, and all the space to
the next entry. -/
inductive Breaks (column : Nat) : List Char → Prop where
  | rest {r e more : List Char} (remark : IsRemark r) (apart : r.head? ≠ some '#')
      (lineEnd : IsLineEnd e) (leads : Leads column more) : Breaks column (r ++ (e ++ more))

/-- From the last entry to the end of the text. -/
inductive Ends : List Char → Prop where
  | blank (n : Nat) : Ends (spaces n)
  | lines {column : Nat} {gap : List Char} (breaks : Breaks column gap) : Ends gap

/-- A text that begins with no space, break or comment, or is at its end. -/
def Starts (s : List Char) : Prop :=
  ∀ c ∈ s.head?, isBlank c = false ∧ isBreak c = false ∧ c ≠ '#' ∧ c ≠ '\uFEFF'

theorem starts_nil : Starts [] := nofun

/-- The marks of entries, texts and brackets begin a token. -/
theorem starts_mark {d : Char} (h : d ∈ ['"', '-', ':', '[', ']']) (s : List Char) : Starts (d :: s) := by
  rintro c ⟨⟩
  simp only [List.mem_cons, List.not_mem_nil, or_false] at h
  rcases h with rfl | rfl | rfl | rfl | rfl <;> simp [isBlank, isBreak]

/-! ### Cursors -/

namespace Cursor

theorem skip_skip (c : Cursor) (n m : Nat) : (c.skip n).skip m = c.skip (n + m) := by
  obtain ⟨rest, index, line, column⟩ := c
  simp only [skip, List.drop_drop, Text.utf8Length, Text.utf8, List.take_add, List.flatMap_append,
    List.length_append, Nat.add_assoc]

@[simp] theorem skip_zero (c : Cursor) : c.skip 0 = c := rfl

@[simp] theorem rest_skip (c : Cursor) (n : Nat) : (c.skip n).rest = c.rest.drop n := rfl

@[simp] theorem column_skip (c : Cursor) (n : Nat) : (c.skip n).column = c.column + n := rfl

/-- A line end is one break, be it one character or two. -/
theorem passBreak_lineEnd {e : List Char} (h : IsLineEnd e) (s : List Char) (index line column : Nat) :
    ∃ index', passBreak ⟨e ++ s, index, line, column⟩ = some ('\n', ⟨s, index', line + 1, 0⟩) := by
  cases h with
  | feed => exact ⟨index + 1, rfl⟩
  | returnFeed => exact ⟨index + 2, rfl⟩

/-- Only a break is passed over as one. -/
theorem passBreak_eq_none {c : Cursor} (h : ∀ d ∈ c.rest.head?, isBreak d = false) :
    c.passBreak = none := by
  obtain ⟨rest, index, line, column⟩ := c
  unfold passBreak
  split
  · rename_i hRest
    have hReturn := h '\r' (by rw [hRest]; rfl)
    cases hReturn
  · rename_i d t _ hRest
    have hd : isBreak d = false := h d (by rw [hRest]; rfl)
    have hOther : ¬ (d = '\u2028' ∨ d = '\u2029') := by
      rintro (rfl | rfl) <;> cases hd
    rw [if_neg hOther, hd]
    rfl
  · rfl

/-- Characters of a kind are skipped up to the first of another kind. -/
theorem skipWhile_eq {p : Char → Bool} {c : Cursor} {w s : List Char} (hRest : c.rest = w ++ s)
    (hw : ∀ d ∈ w, p d = true) (hs : ∀ d ∈ s.head?, p d = false) :
    c.skipWhile p = c.skip w.length := by
  have hTake : (w ++ s).takeWhile p = w := by
    rw [List.takeWhile_append_of_pos hw]
    cases s with
    | nil => simp
    | cons d s => simp [hs d rfl]
  rw [skipWhile, hRest, hTake]

/-- Behind a front that is skipped the rest is left. -/
theorem rest_skip_append {c : Cursor} {w s : List Char} (hRest : c.rest = w ++ s) :
    (c.skip w.length).rest = s := by
  rw [rest_skip, hRest, List.drop_left]

end Cursor

/-! ### Passing over space -/

/-- So many spaces are so many characters. -/
theorem length_spaces (n : Nat) : (spaces n).length = n := List.length_replicate

theorem mem_spaces {n : Nat} {c : Char} (h : c ∈ spaces n) : c = ' ' := List.eq_of_mem_replicate h

theorem forall_head_spaces {P : Char → Prop} (hSpace : P ' ') (n : Nat) {s : List Char}
    (hs : ∀ c ∈ s.head?, P c) : ∀ c ∈ (spaces n ++ s).head?, P c := by
  cases n with
  | zero => exact hs
  | succ n =>
      intro c hc
      cases hc
      exact hSpace

/-- A gap that ends a line parts what is in front of it. -/
theorem Breaks.startsBlank_append {column : Nat} {gap : List Char} (h : Breaks column gap)
    (s : List Char) : startsBlank (gap ++ s) = true := by
  obtain ⟨remark, apart, lineEnd, -⟩ := h
  cases remark with
  | blank n =>
      cases n with
      | zero => cases lineEnd <;> rfl
      | succ n => rfl
  | comment n text =>
      cases n with
      | zero => exact absurd rfl apart
      | succ n => rfl

theorem startsBlank_spaces (n : Nat) (s : List Char) : startsBlank (spaces (n + 1) ++ s) = true := rfl

namespace Lexer

/-- The cursor behind the spaces and the comment of a line. -/
def lineRest (l : Lexer) : Cursor :=
  let c := l.cursor.skipWhile fun c => c == ' ' || (c == '\t' && (l.inFlow || !l.keyAllowed))
  match c.rest with
  | '#' :: _ => c.skipWhile (!isBreak ·)
  | _ => c

/-- The lexer passes over the rest of a line, and then over what the next lines begin with. -/
theorem passSpace_eq (bound : Nat) {l : Lexer} (h : ∀ c ∈ l.cursor.rest.head?, c ≠ '\uFEFF') :
    l.passSpace (bound + 1) = l.lineRest.passBreak.elim { l with cursor := l.lineRest } fun r =>
      passSpace bound { l with cursor := r.2, keyAllowed := l.keyAllowed || !l.inFlow } := by
  have hNone : ∀ tail, l.cursor.column = 0 → l.cursor.rest = '\uFEFF' :: tail → False :=
    fun tail _ hRest => h _ (by rw [hRest]; rfl) rfl
  rw [passSpace]
  -- there is no mark to pass over
  simp only
  generalize hBreak : Cursor.passBreak _ = next
  have hLine : l.lineRest.passBreak = next := hBreak
  rw [hLine]
  cases next <;> rfl

/-- Spaces at the end of a line are passed over. -/
theorem lineRest_spaces {l : Lexer} {n : Nat} {s : List Char} (hRest : l.cursor.rest = spaces n ++ s)
    (hHead : ∀ c ∈ s.head?, isBlank c = false ∧ c ≠ '#') : l.lineRest = l.cursor.skip n := by
  have hSkip : l.cursor.skipWhile (fun c => c == ' ' || (c == '\t' && (l.inFlow || !l.keyAllowed))) =
      l.cursor.skip n := by
    rw [Cursor.skipWhile_eq hRest, length_spaces]
    · intro c hc
      rw [mem_spaces hc]
      rfl
    · intro c hc
      have hBlank := (hHead c hc).1
      simp only [isBlank, Bool.or_eq_false_iff] at hBlank
      rw [hBlank.1, hBlank.2]
      rfl
  have hThere := Cursor.rest_skip_append hRest
  rw [length_spaces] at hThere
  rw [lineRest, hSkip]
  split
  · rename_i hHash
    rw [hThere] at hHash
    exact absurd rfl (hHead '#' (by rw [hHash]; rfl)).2
  · rfl

/-- A comment at the end of a line is passed over. -/
theorem lineRest_comment {l : Lexer} {n : Nat} {t s : List Char}
    (hRest : l.cursor.rest = spaces n ++ '#' :: (t ++ s)) (hText : ∀ c ∈ t, isBreak c = false)
    (hHead : ∀ c ∈ s.head?, isBreak c = true) :
    l.lineRest = l.cursor.skip (n + (t.length + 1)) := by
  have hSkip : l.cursor.skipWhile (fun c => c == ' ' || (c == '\t' && (l.inFlow || !l.keyAllowed))) =
      l.cursor.skip n := by
    rw [Cursor.skipWhile_eq hRest, length_spaces]
    · intro c hc
      rw [mem_spaces hc]
      rfl
    · intro c hc
      cases hc
      rfl
  have hThere := Cursor.rest_skip_append hRest
  rw [length_spaces] at hThere
  rw [lineRest, hSkip]
  simp only [hThere]
  rw [Cursor.skipWhile_eq (w := '#' :: t) hThere, Cursor.skip_skip, List.length_cons]
  · intro c hc
    rcases List.mem_cons.mp hc with rfl | hc
    · rfl
    · rw [hText c hc]
      rfl
  · intro c hc
    rw [hHead c hc]
    rfl

/-- Spaces before a token are passed over. -/
theorem passSpace_spaces (bound : Nat) {l : Lexer} {n : Nat} {s : List Char}
    (hRest : l.cursor.rest = spaces n ++ s) (hs : Starts s) : l.passSpace (bound + 1) = l.skip n := by
  have hMark : ∀ c ∈ l.cursor.rest.head?, c ≠ '\uFEFF' := by
    rw [hRest]
    exact forall_head_spaces (by decide) n fun c hc => (hs c hc).2.2.2
  have hLine : l.lineRest = l.cursor.skip n :=
    lineRest_spaces hRest fun c hc => ⟨(hs c hc).1, (hs c hc).2.2.1⟩
  have hThere := Cursor.rest_skip_append hRest
  rw [length_spaces] at hThere
  have hStop : (l.cursor.skip n).passBreak = none := by
    refine Cursor.passBreak_eq_none ?_
    rw [hThere]
    exact fun c hc => (hs c hc).2.1
  rw [passSpace_eq bound hMark, hLine, hStop]
  rfl

/-- A line without an entry is passed over, and a key may stand on the next line. -/
theorem passSpace_remark (bound : Nat) {l : Lexer} {r e s : List Char} (hRemark : IsRemark r)
    (hEnd : IsLineEnd e) (hRest : l.cursor.rest = r ++ (e ++ s)) :
    ∃ index, l.passSpace (bound + 1) = passSpace bound { l with
      cursor := ⟨s, index, l.cursor.line + 1, 0⟩
      keyAllowed := l.keyAllowed || !l.inFlow } := by
  have hMark : ∀ c ∈ l.cursor.rest.head?, c ≠ '\uFEFF' := by
    rw [hRest]
    cases hRemark with
    | blank n => exact forall_head_spaces (by decide) n (by cases hEnd <;> simp)
    | comment n text =>
        rw [List.append_assoc]
        exact forall_head_spaces (by decide) n (by simp)
  have hLine : l.lineRest = l.cursor.skip r.length := by
    cases hRemark with
    | blank n =>
        rw [length_spaces]
        exact lineRest_spaces hRest (by cases hEnd <;> simp [isBlank])
    | comment n text =>
        rw [List.append_assoc, List.cons_append] at hRest
        rw [List.length_append, length_spaces, List.length_cons]
        exact lineRest_comment hRest text (by cases hEnd <;> simp [isBreak])
  have hThere := Cursor.rest_skip_append hRest
  obtain ⟨index, hBreak⟩ := Cursor.passBreak_lineEnd hEnd s (l.cursor.skip r.length).index
    l.cursor.line (l.cursor.skip r.length).column
  have hCursor : l.cursor.skip r.length = ⟨e ++ s, (l.cursor.skip r.length).index, l.cursor.line,
      (l.cursor.skip r.length).column⟩ := by
    rw [← hThere]
    rfl
  rw [← hCursor] at hBreak
  exact ⟨index, by rw [passSpace_eq bound hMark, hLine, hBreak]; rfl⟩

end Lexer

end LintRepair.Yaml
