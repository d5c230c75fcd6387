import LintRepair.Proofs.Json.Alike
import LintRepair.Proofs.Yaml.Spacing

/-! Scalars of a YAML text that stand on one line: texts in double quotes, with any of their escapes,
and plain words. Each is read as what it writes, and the cursor is behind it then. -/

namespace LintRepair.Yaml

/-- The number that hexadecimal digits write. -/
def codeNumber (values : List Nat) : Nat := values.foldl (fun v d => v * 16 + d) 0

/-- A character of a scalar in double quotes: as it is, by one letter, or by its number. -/
inductive WritesLetter : List Char → Char → Prop where
  | plain {c : Char} (notQuote : c ≠ '"') (notEscape : c ≠ '\\') (inLine : isBreak c = false) :
      WritesLetter [c] c
  | short {e c : Char} (escape : shortEscape? e = some c) : WritesLetter ['\\', e] c
  | code {mark : Char} {digits : List Char} {values : List Nat}
      (marked : (mark, digits.length) ∈ [('x', 2), ('u', 4), ('U', 8)])
      (hex : digits.mapM hexValue? = some values) (valid : (codeNumber values).isValidChar) :
      WritesLetter ('\\' :: mark :: digits) (Char.ofNat (codeNumber values))

/-- The characters of a scalar in double quotes one after another. -/
inductive WritesLetters : List Char → List Char → Prop where
  | nil : WritesLetters [] []
  | cons {t u cs : List Char} {c : Char} (letter : WritesLetter t c) (letters : WritesLetters u cs) :
      WritesLetters (t ++ u) (c :: cs)

def IsWord (w : List Char) : Prop := w ≠ [] ∧ ∀ c ∈ w, c.isAlphanum = true

/-! ### Texts in double quotes -/

theorem atDocumentMark_of_head {d : Char} {rest : List Char} {c : Cursor} (hRest : c.rest = d :: rest)
    (hDash : d ≠ '-') (hDot : d ≠ '.') : c.atDocumentMark = false := by
  rw [Cursor.atDocumentMark, hRest, Bool.and_eq_false_iff]
  right
  split
  · rename_i hMark
    exact absurd (List.cons.inj hMark).1 hDash
  · rename_i hMark
    exact absurd (List.cons.inj hMark).1 hDot
  · rfl

theorem atDocumentMark_of_column {c : Cursor} (h : 0 < c.column) : c.atDocumentMark = false := by
  have hColumn : (c.column == 0) = false := beq_false_of_ne (by omega)
  rw [Cursor.atDocumentMark, hColumn, Bool.false_and]

/-- A gap ends in front of a character that is neither a blank nor a break. -/
theorem readGap_stop {s : List Char} {c : Cursor} (hRest : c.rest = s)
    (hs : ∀ d ∈ s.head?, isBlank d = false ∧ isBreak d = false) (indent : Option Nat) (bound : Nat)
    (g : Gap) : readGap indent (bound + 1) g c = some (g, c) := by
  have hNone : c.passBreak = none := by
    refine Cursor.passBreak_eq_none ?_
    rw [hRest]
    exact fun d hd => (hs d hd).2
  rw [readGap]
  split
  · rfl
  · rename_i d t hHere
    have hd := (hs d (by rw [← hRest, hHere]; rfl)).1
    rw [hd, hNone]
    rfl

/-- Blanks on one line stand for themselves. -/
theorem readGap_blanks {w s : List Char} (hw : ∀ c ∈ w, isBlank c = true)
    (hs : ∀ c ∈ s.head?, isBlank c = false ∧ isBreak c = false) {c : Cursor} (hRest : c.rest = w ++ s)
    (indent : Option Nat) {bound : Nat} (hBound : w.length < bound) {g : Gap} (hg : g.broken = false) :
    readGap indent bound g c = some ({ g with blanks := g.blanks ++ w }, c.skip w.length) := by
  induction w generalizing bound g c with
  | nil =>
      obtain ⟨bound, rfl⟩ : ∃ b, bound = b + 1 := ⟨bound - 1, by omega⟩
      rw [readGap_stop (s := s) hRest hs, List.length_nil, Cursor.skip_zero, List.append_nil]
  | cons d w ih =>
      obtain ⟨hd, hw⟩ := List.forall_mem_cons.mp hw
      obtain ⟨bound, rfl⟩ : ∃ b, bound = b + 1 := ⟨bound - 1, by omega⟩
      rw [List.length_cons] at hBound
      have hNext : (c.skip 1).rest = w ++ s := by
        rw [Cursor.rest_skip, hRest]
        rfl
      rw [readGap]
      simp only [hRest, List.cons_append, hd, hg, if_true]
      rw [if_neg (by decide), ih hw hNext (by omega) rfl, Cursor.skip_skip, List.length_cons,
        Nat.add_comm 1, List.append_assoc]
      rfl

/-- An escape of one letter is read as its character. -/
theorem escape?_short {e ch : Char} (h : shortEscape? e = some ch) (s : List Char) :
    escape? (e :: s) = some (ch, 2) := by
  have hOther : e ≠ 'x' ∧ e ≠ 'u' ∧ e ≠ 'U' := by
    refine ⟨?_, ?_, ?_⟩ <;> rintro rfl <;> simp [shortEscape?] at h
  have hMark : codeLength? e = none := by simp [codeLength?, hOther]
  rw [escape?, hMark, h]
  rfl

theorem escape?_code {mark : Char} {digits : List Char} {values : List Nat}
    (hMark : (mark, digits.length) ∈ [('x', 2), ('u', 4), ('U', 8)])
    (hHex : digits.mapM hexValue? = some values) (hValid : (codeNumber values).isValidChar)
    (s : List Char) :
    escape? (mark :: (digits ++ s)) = some (Char.ofNat (codeNumber values), digits.length + 2) := by
  have hCode : codeLength? mark = some digits.length := by
    simp only [List.mem_cons, Prod.mk.injEq, List.not_mem_nil, or_false] at hMark
    rcases hMark with ⟨rfl, hLength⟩ | ⟨rfl, hLength⟩ | ⟨rfl, hLength⟩ <;> rw [hLength] <;> rfl
  have hLength : values.length = digits.length :=
    (Json.forall₂_of_mapM hHex).length_eq.symm
  have hNumber : values.foldl (fun v d => v * 16 + d) 0 = codeNumber values := rfl
  rw [escape?, hCode]
  simp [hHex, hLength, hNumber, hValid]

/-- An escape within a line is read as its character. -/
theorem quotedBody_escape {c : Cursor} {ch : Char} {length : Nat} {rest : List Char}
    (hRest : c.rest = '\\' :: rest) (hColumn : 0 < c.column)
    (hInLine : ∀ d ∈ rest.head?, isBreak d = false) (h : escape? rest = some (ch, length))
    (bound : Nat) : quotedBody true (bound + 1) c =
      (quotedBody true bound (c.skip length)).map fun (cs, e) => (ch :: cs, e) := by
  have hThere : (c.skip 1).rest = rest := by
    rw [Cursor.rest_skip, hRest]
    rfl
  have hNone : (c.skip 1).passBreak = none :=
    Cursor.passBreak_eq_none fun d hd => hInLine d (by rwa [hThere] at hd)
  simp [quotedBody, atDocumentMark_of_column hColumn, hRest, hNone, h]

/-- A letter that is no blank is read by itself. -/
theorem WritesLetter.quotedBody_eq {t : List Char} {ch : Char} (h : WritesLetter t ch)
    (hInk : ∀ d ∈ t.head?, isBlank d = false) {c : Cursor} {s : List Char} (hRest : c.rest = t ++ s)
    (hColumn : 0 < c.column) (bound : Nat) : quotedBody true (bound + 1) c =
      (quotedBody true bound (c.skip t.length)).map fun (cs, e) => (ch :: cs, e) := by
  cases h with
  | plain notQuote notEscape inLine =>
      have hBlank : isBlank ch = false := hInk ch rfl
      simp [quotedBody, atDocumentMark_of_column hColumn, hRest, notQuote, notEscape, hBlank, inLine]
  | @short e _ escape =>
      refine quotedBody_escape hRest hColumn ?_ (escape?_short escape s) bound
      intro d hd
      cases hd
      rw [Bool.eq_false_iff]
      intro hBreak
      simp only [isBreak, Bool.or_eq_true, beq_iff_eq] at hBreak
      rcases hBreak with (((rfl | rfl) | rfl) | rfl) | rfl <;> simp [shortEscape?] at escape
  | @code mark digits values marked hex valid =>
      refine quotedBody_escape hRest hColumn ?_ (escape?_code marked hex valid s) bound
      intro d hd
      cases hd
      simp only [List.mem_cons, Prod.mk.injEq, List.not_mem_nil, or_false] at marked
      rcases marked with ⟨rfl, -⟩ | ⟨rfl, -⟩ | ⟨rfl, -⟩ <;> rfl

/-- Blanks are read all together. -/
theorem quotedBody_blanks {w s : List Char} (hw : ∀ d ∈ w, isBlank d = true) (hSome : w ≠ [])
    (hs : ∀ d ∈ s.head?, isBlank d = false ∧ isBreak d = false) {c : Cursor} (hRest : c.rest = w ++ s)
    (hColumn : 0 < c.column) (bound : Nat) : quotedBody true (bound + 1) c =
      (quotedBody true bound (c.skip w.length)).map fun (cs, e) => (w ++ cs, e) := by
  have hLong : w.length < c.rest.length + 1 := by
    rw [hRest, List.length_append]
    omega
  have hGap := readGap_blanks hw hs hRest none (g := {}) hLong rfl
  cases w with
  | nil => exact absurd rfl hSome
  | cons d w =>
      have hd : isBlank d = true := hw d List.mem_cons_self
      have hOther : d ≠ '"' ∧ d ≠ '\\' := by
        refine ⟨?_, ?_⟩ <;> rintro rfl <;> exact absurd hd (by decide)
      rw [quotedBody, atDocumentMark_of_column hColumn]
      rw [hRest, List.cons_append] at hGap
      simp only [hRest, List.cons_append, hd, hOther, hGap]
      simp [Gap.text]

/-- Blanks within a quoted text are part of it. -/
theorem quotedBody_lead {w s cs : List Char} {length least : Nat} (hw : ∀ d ∈ w, isBlank d = true)
    (hs : ∀ d ∈ s.head?, isBlank d = false ∧ isBreak d = false)
    (h : ∀ c : Cursor, c.rest = s → 0 < c.column → ∀ bound, least < bound →
      quotedBody true bound c = some (cs, c.skip length))
    {c : Cursor} (hRest : c.rest = w ++ s) (hColumn : 0 < c.column) {bound : Nat}
    (hBound : w.length + least < bound) :
    quotedBody true bound c = some (w ++ cs, c.skip (w.length + length)) := by
  by_cases hSome : w = []
  · subst hSome
    rw [List.length_nil, Nat.zero_add] at hBound ⊢
    exact h c hRest hColumn bound hBound
  · obtain ⟨bound, rfl⟩ : ∃ b, bound = b + 1 := ⟨bound - 1, by omega⟩
    have hLong := List.length_pos_iff.mpr hSome
    have hThere := h (c.skip w.length) (Cursor.rest_skip_append hRest)
      (by rw [Cursor.column_skip]; omega) bound (by omega)
    rw [quotedBody_blanks hw hSome hs hRest hColumn, hThere, Cursor.skip_skip]
    rfl

/-- A scalar is read up to its closing quote. The blanks `w` before its letters are read with them. -/
theorem WritesLetters.quotedBody_eq {t cs : List Char} (h : WritesLetters t cs) {w s : List Char}
    (hw : ∀ d ∈ w, isBlank d = true) {c : Cursor} (hRest : c.rest = w ++ (t ++ '"' :: s))
    (hColumn : 0 < c.column) {bound : Nat} (hBound : w.length + t.length < bound) :
    quotedBody true bound c = some (w ++ cs, c.skip (w.length + (t.length + 1))) := by
  induction h generalizing w c bound with
  | nil =>
      refine quotedBody_lead hw (s := '"' :: s) ?_ (fun c hHere hColumn bound hBound => ?_) hRest
        hColumn hBound
      · intro d hd
        cases hd
        exact ⟨rfl, rfl⟩
      · obtain ⟨bound, rfl⟩ : ∃ b, bound = b + 1 := ⟨bound - 1, by omega⟩
        simp [quotedBody, atDocumentMark_of_column hColumn, hHere]
  | @cons t u cs ch letter letters ih =>
      -- A letter that is no blank ends the run of blanks in front of it.
      have hInked (hInk : ∀ d ∈ t.head?, isBlank d = false ∧ isBreak d = false) :
          quotedBody true bound c =
            some (w ++ ch :: cs, c.skip (w.length + ((t ++ u).length + 1))) := by
        have hLong : 1 ≤ t.length := by cases letter <;> simp
        refine quotedBody_lead hw (s := t ++ u ++ '"' :: s) ?_ (fun c hHere hColumn bound hBound => ?_)
          hRest hColumn hBound
        · cases t with
          | nil => exact absurd hLong (by decide)
          | cons d t => exact hInk
        · obtain ⟨bound, rfl⟩ : ∃ b, bound = b + 1 := ⟨bound - 1, by omega⟩
          rw [List.append_assoc] at hHere
          rw [List.length_append] at hBound ⊢
          have hThere := Cursor.rest_skip_append hHere
          have hLong : ([] : List Char).length + u.length < bound := by simp; omega
          have hRead := ih (w := []) (List.forall_mem_nil _) hThere
            (by rw [Cursor.column_skip]; omega) hLong
          rw [letter.quotedBody_eq (fun d hd => (hInk d hd).1) hHere hColumn, hRead, Cursor.skip_skip]
          simp [Nat.add_assoc]
      cases letter with
      | plain notQuote notEscape inLine =>
          cases hBlank : isBlank ch with
          | true =>
              -- A blank that was written as itself joins the run, which is kept open.
              have hMore : ∀ d ∈ w ++ [ch], isBlank d = true :=
                List.forall_mem_append.mpr ⟨hw, List.forall_mem_singleton.mpr hBlank⟩
              have hLong : (w ++ [ch]).length + u.length < bound := by simp at hBound ⊢; omega
              have hRead := ih hMore (c := c) (by simpa using hRest) hColumn hLong
              have hLength : (w ++ [ch]).length + (u.length + 1) =
                  w.length + (([ch] ++ u).length + 1) := by
                simp only [List.length_append, List.length_singleton]
                omega
              rw [hRead, hLength, List.append_assoc, List.singleton_append]
          | false =>
              refine hInked fun d hd => ?_
              cases hd
              exact ⟨hBlank, inLine⟩
      | short =>
          refine hInked fun d hd => ?_
          cases hd
          exact ⟨rfl, rfl⟩
      | code =>
          refine hInked fun d hd => ?_
          cases hd
          exact ⟨rfl, rfl⟩

/-- A scalar in double quotes is read to its end. -/
theorem WritesLetters.readQuoted_eq {t cs s : List Char} (h : WritesLetters t cs) {c : Cursor}
    (hRest : c.rest = '"' :: (t ++ '"' :: s)) :
    readQuoted true (c.skip 1) = some (cs, c.skip (t.length + 2)) := by
  have hThere : (c.skip 1).rest = [] ++ (t ++ '"' :: s) := by
    rw [Cursor.rest_skip, hRest]
    rfl
  have hLong : ([] : List Char).length + t.length < (c.skip 1).rest.length + 1 := by
    rw [hThere, List.length_append, List.length_append]
    omega
  have hRead := h.quotedBody_eq (List.forall_mem_nil _) hThere (by rw [Cursor.column_skip]; omega) hLong
  rw [readQuoted, hRead, Cursor.skip_skip, List.nil_append]
  congr 3
  simp
  omega

/-! ### Plain words -/

theorem readGap_spaces {n : Nat} {s : List Char} {c : Cursor} (hRest : c.rest = spaces n ++ s)
    (indent : Option Nat) (bound : Nat) (g : Gap) : ∃ g' : Gap, g'.broken = g.broken ∧
      readGap indent (n + bound) g c = readGap indent bound g' (c.skip n) := by
  induction n generalizing c g with
  | zero => exact ⟨g, rfl, by rw [Nat.zero_add, Cursor.skip_zero]⟩
  | succ n ih =>
      have hHere : c.rest = ' ' :: (spaces n ++ s) := hRest
      have hThere : (c.skip 1).rest = spaces n ++ s := by
        rw [Cursor.rest_skip, hHere]
        rfl
      have hStep : ∃ g' : Gap, g'.broken = g.broken ∧
          readGap indent (n + bound + 1) g c = readGap indent (n + bound) g' (c.skip 1) := by
        cases hBroken : g.broken with
        | true => exact ⟨g, hBroken, by simp [readGap, hHere, isBlank, hBroken]⟩
        | false =>
            exact ⟨{ g with blanks := g.blanks ++ [' '] }, hBroken,
              by simp [readGap, hHere, isBlank, hBroken]⟩
      obtain ⟨g', hBroken, hFirst⟩ := hStep
      obtain ⟨g'', hBroken', hMore⟩ := ih hThere g'
      refine ⟨g'', hBroken'.trans hBroken, ?_⟩
      rw [Nat.add_right_comm, hFirst, hMore, Cursor.skip_skip, Nat.add_comm 1]

/-- A gap goes on behind a line end, at the first column. -/
theorem readGap_lineEnd {e s : List Char} (hEnd : Text.IsLineEnd e) {c : Cursor} (hRest : c.rest = e ++ s)
    (indent : Option Nat) (bound : Nat) (g : Gap) : ∃ (g' : Gap) (c' : Cursor), g'.broken = true ∧
      c'.rest = s ∧ c'.column = 0 ∧ readGap indent (bound + 1) g c = readGap indent bound g' c' := by
  obtain ⟨rest, index, line, column⟩ := c
  obtain rfl : rest = e ++ s := hRest
  obtain ⟨index', hBreak⟩ := Cursor.passBreak_lineEnd hEnd s index line column
  have hHead : ∃ d t, e ++ s = d :: t ∧ isBlank d = false := by
    cases hEnd with
    | feed => exact ⟨_, _, rfl, rfl⟩
    | returnFeed => exact ⟨_, _, rfl, rfl⟩
  obtain ⟨d, t, hText, hd⟩ := hHead
  rw [hText] at hBreak ⊢
  cases hBroken : g.broken with
  | true =>
      exact ⟨{ g with more := g.more ++ ['\n'] }, ⟨s, index', line + 1, 0⟩, hBroken, rfl, rfl,
        by simp [readGap, hd, hBreak, hBroken]⟩
  | false =>
      exact ⟨{ g with blanks := [], broken := true, first := some '\n' }, ⟨s, index', line + 1, 0⟩, rfl,
        rfl, rfl, by simp [readGap, hd, hBreak, hBroken]⟩

theorem length_rest_passBreak {c c' : Cursor} {b : Char} (h : c.passBreak = some (b, c')) :
    c'.rest.length ≤ c.rest.length := by
  unfold Cursor.passBreak at h
  split at h
  · rename_i hRest
    cases h
    simp only [hRest, List.length_cons]
    omega
  · rename_i hRest
    split at h
    · cases h
      simp [hRest]
    · split at h <;> cases h
      simp [hRest]
  · cases h

/-- Reading a gap makes no text longer, so that every bound is kept. -/
theorem length_rest_readGap {indent : Option Nat} {bound : Nat} {g g' : Gap} {c c' : Cursor}
    (h : readGap indent bound g c = some (g', c')) : c'.rest.length ≤ c.rest.length := by
  induction bound generalizing g c with
  | zero => cases h
  | succ bound ih =>
      have hSkip : (c.skip 1).rest.length ≤ c.rest.length := by
        rw [Cursor.rest_skip, List.length_drop]
        omega
      rw [readGap] at h
      split at h
      · cases h
        exact Nat.le_refl _
      · split at h
        · split at h
          · split at h
            · cases h
            · exact Nat.le_trans (ih h) hSkip
          · exact Nat.le_trans (ih h) hSkip
        · split at h
          · rename_i hBreak
            have hLess := length_rest_passBreak hBreak
            split at h <;> exact Nat.le_trans (ih h) hLess
          · cases h
            exact Nat.le_refl _

/-- Where the space behind a word has been read as far as the word could go on: at the next entry, on a
line of its own, or at a comment before it. -/
inductive Reached (column : Nat) (s : List Char) (broken : Bool) (c : Cursor) : Prop where
  | entry (rest : c.rest = s) (there : c.column = column) (below : broken = true)
  | comment {r e more : List Char} (remark : IsRemark r) (hash : r.head? = some '#')
      (lineEnd : Text.IsLineEnd e) (leads : Leads column more) (rest : c.rest = r ++ (e ++ (more ++ s)))

/-- The rest of a line is passed over with its end, unless there is a comment. -/
theorem readGap_remark {r e s : List Char} (hRemark : IsRemark r) (hEnd : Text.IsLineEnd e) {c : Cursor}
    (hRest : c.rest = r ++ (e ++ s)) (indent : Option Nat) (bound : Nat) (g : Gap) :
    (∃ (g' : Gap) (c' : Cursor), g'.broken = true ∧ c'.rest = s ∧ c'.column = 0 ∧
        readGap indent (r.length + (bound + 1)) g c = readGap indent bound g' c') ∨
      ∃ (g' : Gap) (c' : Cursor) (r' : List Char),
        readGap indent (r.length + (bound + 1)) g c = some (g', c') ∧ IsRemark r' ∧
          r'.head? = some '#' ∧ c'.rest = r' ++ (e ++ s) := by
  cases hRemark with
  | blank n =>
      left
      obtain ⟨g', -, hRead⟩ := readGap_spaces hRest indent (bound + 1) g
      have hThere := Cursor.rest_skip_append hRest
      rw [length_spaces] at hThere ⊢
      obtain ⟨g'', c', hBroken, hNext, hLine, hMore⟩ := readGap_lineEnd hEnd hThere indent bound g'
      exact ⟨g'', c', hBroken, hNext, hLine, hRead.trans hMore⟩
  | @comment n t text =>
      right
      rw [List.append_assoc] at hRest
      obtain ⟨g', -, hRead⟩ := readGap_spaces hRest indent (t.length + 1 + bound + 1) g
      have hThere := Cursor.rest_skip_append hRest
      rw [length_spaces] at hThere
      have hStop := readGap_stop hThere (by rintro d ⟨⟩; exact ⟨rfl, rfl⟩) indent (t.length + 1 + bound) g'
      have hLength : (spaces n ++ '#' :: t).length + (bound + 1) = n + (t.length + 1 + bound + 1) := by
        rw [List.length_append, length_spaces, List.length_cons]
        omega
      rw [hLength]
      exact ⟨g', c.skip n, '#' :: t, hRead.trans hStop, .comment 0 text, rfl, hThere⟩

/-- A gap is read up to the entry behind it, or up to a comment in it. -/
theorem readGap_leads {column : Nat} {gap s : List Char} (h : Leads column gap) (hs : Starts s)
    {c : Cursor} (hRest : c.rest = gap ++ s) (hColumn : c.column = 0) (indent : Option Nat) {bound : Nat}
    (hBound : gap.length < bound) {g : Gap} (hg : g.broken = true) :
    ∃ g' c', readGap indent bound g c = some (g', c') ∧ Reached column s g'.broken c' := by
  induction h generalizing c bound g with
  | indent =>
      rw [length_spaces] at hBound
      obtain ⟨bound, rfl⟩ := Nat.exists_eq_add_of_lt hBound
      obtain ⟨g', hBroken, hRead⟩ := readGap_spaces hRest indent (bound + 1) g
      have hThere := Cursor.rest_skip_append hRest
      rw [length_spaces] at hThere
      refine ⟨g', c.skip column, ?_, .entry hThere ?_ (hBroken.trans hg)⟩
      · rw [Nat.add_assoc, hRead, readGap_stop hThere fun d hd => ⟨(hs d hd).1, (hs d hd).2.1⟩]
      · rw [Cursor.column_skip, hColumn, Nat.zero_add]
  | @line r e more remark lineEnd leads ih =>
      rw [List.append_assoc, List.append_assoc] at hRest
      simp only [List.length_append] at hBound
      have hLong : 1 ≤ e.length := by cases lineEnd <;> simp
      obtain ⟨bound, rfl⟩ : ∃ b, bound = r.length + (b + 1) := ⟨bound - r.length - 1, by omega⟩
      rcases readGap_remark remark lineEnd hRest indent bound g with
        ⟨g', c', hBroken, hNext, hLine, hRead⟩ | ⟨g', c', r', hRead, isRemark, hash, hThere⟩
      · have hLess : more.length < bound := by omega
        obtain ⟨g'', c'', hLast, hReached⟩ := ih hNext hLine hLess hBroken
        exact ⟨g'', c'', hRead.trans hLast, hReached⟩
      · exact ⟨g', c', hRead, .comment isRemark hash lineEnd leads hThere⟩

theorem readGap_breaks {column : Nat} {gap s : List Char} (h : Breaks column gap) (hs : Starts s)
    {c : Cursor} (hRest : c.rest = gap ++ s) (indent : Option Nat) {bound : Nat}
    (hBound : gap.length < bound) (g : Gap) :
    ∃ g' c', readGap indent bound g c = some (g', c') ∧ Reached column s g'.broken c' := by
  obtain @⟨r, e, more, remark, -, lineEnd, leads⟩ := h
  rw [List.append_assoc, List.append_assoc] at hRest
  simp only [List.length_append] at hBound
  have hLong : 1 ≤ e.length := by cases lineEnd <;> simp
  obtain ⟨bound, rfl⟩ : ∃ b, bound = r.length + (b + 1) := ⟨bound - r.length - 1, by omega⟩
  rcases readGap_remark remark lineEnd hRest indent bound g with
    ⟨g', c', hBroken, hNext, hLine, hRead⟩ | ⟨g', c', r', hRead, isRemark, hash, hThere⟩
  · have hLess : more.length < bound := by omega
    obtain ⟨g'', c'', hLast, hReached⟩ := readGap_leads leads hs hNext hLine indent hLess hBroken
    exact ⟨g'', c'', hRead.trans hLast, hReached⟩
  · exact ⟨g', c', hRead, .comment isRemark hash lineEnd leads hThere⟩

theorem ne_of_isAlphanum {c m : Char} (hc : c.isAlphanum = true) (hm : m.isAlphanum = false) :
    c ≠ m := by
  rintro rfl
  rw [hc] at hm
  cases hm

theorem isBlank_of_isAlphanum {c : Char} (h : c.isAlphanum = true) : isBlank c = false := by
  rw [isBlank, beq_false_of_ne (ne_of_isAlphanum h (by decide)),
    beq_false_of_ne (ne_of_isAlphanum h (by decide))]
  rfl

theorem isBreak_of_isAlphanum {c : Char} (h : c.isAlphanum = true) : isBreak c = false := by
  rw [Bool.eq_false_iff]
  intro hBreak
  simp only [isBreak, Bool.or_eq_true, beq_iff_eq] at hBreak
  rcases hBreak with (((hSame | hSame) | hSame) | hSame) | hSame <;>
    exact ne_of_isAlphanum h (by decide) hSame

theorem starts_of_isAlphanum {c : Char} (h : c.isAlphanum = true) (s : List Char) :
    Starts (c :: s) := by
  rintro d ⟨⟩
  exact ⟨isBlank_of_isAlphanum h, isBreak_of_isAlphanum h, ne_of_isAlphanum h (by decide),
    ne_of_isAlphanum h (by decide)⟩

theorem IsWord.starts {w : List Char} (h : IsWord w) (s : List Char) : Starts (w ++ s) := by
  obtain ⟨hSome, hAll⟩ := h
  cases w with
  | nil => exact absurd rfl hSome
  | cons d w => exact starts_of_isAlphanum (hAll d List.mem_cons_self) _

theorem plainRun_word {w s : List Char} (hw : ∀ c ∈ w, c.isAlphanum = true)
    (hs : plainRun false s = some []) : plainRun false (w ++ s) = some w := by
  induction w with
  | nil => exact hs
  | cons c w ih =>
      obtain ⟨hc, hw⟩ := List.forall_mem_cons.mp hw
      have hColon : (c == ':') = false := beq_false_of_ne (ne_of_isAlphanum hc (by decide))
      simp [plainRun, isBlank_of_isAlphanum hc, isBreak_of_isAlphanum hc, hColon, ih hw]

/-- No word is taken for a mark between documents. -/
theorem atDocumentMark_word {w s : List Char} (hw : IsWord w) {c : Cursor} (hRest : c.rest = w ++ s) :
    c.atDocumentMark = false := by
  obtain ⟨hSome, hAll⟩ := hw
  cases w with
  | nil => exact absurd rfl hSome
  | cons d w =>
      have hd := hAll d List.mem_cons_self
      exact atDocumentMark_of_head hRest (ne_of_isAlphanum hd (by decide))
        (ne_of_isAlphanum hd (by decide))

/-- A plain scalar ends where the word does, if a blank or a colon follows. -/
theorem plainBody_word {w s : List Char} (hw : IsWord w) (hs : plainRun false s = some [])
    {c : Cursor} (hRest : c.rest = w ++ s) (indent bound : Nat) :
    plainBody false indent (bound + 1) {} c =
      (if startsBlank (c.skip w.length).rest ∧ (c.skip w.length).rest.isEmpty = false then do
        let (next, beyond) ←
          readGap (some indent) ((c.skip w.length).rest.length + 1) {} (c.skip w.length)
        if beyond.column < indent then some (w, next.broken, beyond)
        else
          let (more, broken, last) ← plainBody false indent bound next beyond
          some (w ++ more, broken, last)
      else some (w, false, c.skip w.length)) := by
  have hMark := atDocumentMark_word hw hRest
  have hRun := plainRun_word hw.2 hs
  obtain ⟨hSome, hAll⟩ := hw
  cases w with
  | nil => exact absurd rfl hSome
  | cons d w =>
      have hHash : d ≠ '#' := ne_of_isAlphanum (hAll d List.mem_cons_self) (by decide)
      rw [← hRest] at hRun
      have hHere : c.rest = d :: (w ++ s) := hRest
      rw [plainBody, hMark, hRun, hHere]
      simp [hHash, Gap.text]

/-- A word before a colon is a key. -/
theorem readPlain_key {w s : List Char} (hw : IsWord w) (hs : startsBlank s = true) {c : Cursor}
    (hRest : c.rest = w ++ ':' :: s) (indent : Nat) :
    readPlain false indent c = some (w, false, c.skip w.length) := by
  have hStop : plainRun false (':' :: s) = some [] := by
    simp [plainRun, hs, isBlank, isBreak]
  have hThere : (c.skip w.length).rest = ':' :: s := Cursor.rest_skip_append hRest
  have hColon : startsBlank (':' :: s) = false := rfl
  rw [readPlain, plainBody_word hw hStop hRest, hThere, hColon]
  simp

/-- A word before space is a scalar; how far the space is read makes no difference to its text. -/
theorem readPlain_value {w s : List Char} (hw : IsWord w) (hs : startsBlank s = true) {c : Cursor}
    (hRest : c.rest = w ++ s) {indent : Nat} {g : Gap} {beyond : Cursor}
    (hGap : readGap (some indent) (s.length + 1) {} (c.skip w.length) = some (g, beyond))
    (hStop : beyond.column < indent ∨ ∀ d ∈ beyond.rest.head?, d = '#') :
    readPlain false indent c = some (w, g.broken, beyond) := by
  have hRun : plainRun false s = some [] := by
    cases s with
    | nil => rfl
    | cons d s =>
        have hd : (isBlank d || isBreak d) = true := hs
        simp [plainRun, hd]
  have hThere : (c.skip w.length).rest = s := Cursor.rest_skip_append hRest
  rw [readPlain, plainBody_word hw hRun hRest, hThere]
  cases s with
  | nil =>
      rw [readGap, hThere] at hGap
      cases hGap
      rfl
  | cons d s =>
      rw [if_pos ⟨hs, rfl⟩, hGap]
      simp only [Option.bind_eq_bind, Option.bind_some]
      split
      · rfl
      · rename_i hDeep
        have hLast (bound : Nat) : plainBody false indent (bound + 1) g beyond =
            some ([], g.broken, beyond) := by
          have hHead := hStop.resolve_left hDeep
          cases hRest : beyond.rest with
          | nil => simp [plainBody, hRest, plainRun]
          | cons d t =>
              obtain rfl := hHead d (by rw [hRest]; rfl)
              simp [plainBody, hRest]
        obtain ⟨bound, hBound⟩ : ∃ b, c.rest.length = b + 1 := by
          rw [hRest, List.length_append, List.length_cons]
          exact ⟨_, rfl⟩
        rw [hBound, hLast]
        simp

end LintRepair.Yaml
