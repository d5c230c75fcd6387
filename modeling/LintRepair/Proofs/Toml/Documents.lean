import LintRepair.Proofs.Toml.Values

/-! How TOML documents are written: lines with a key and a value, headers of tables in double brackets,
and lines that say nothing. Reading such a document does what its statements say one after another. -/

namespace LintRepair.Toml

open Text (IsLineEnd)

/-! ### The grammar -/

/-- What a line says: the value of a key, or that a further table of an array begins. -/
inductive Statement where
  | entry (name : String) (v : Toml)
  | header (name : String)

/-- A statement on its line. -/
inductive WritesStatement : List Char → Statement → Prop where
  | entry {t w w' u : List Char} {name : String} {v : Toml} (key : WritesKey t name)
      (behind : Blanks w) (before : Blanks w') (value : WritesValue u v) :
      WritesStatement (t ++ (w ++ '=' :: (w' ++ u))) (.entry name v)
  | header {t w w' : List Char} {name : String} (before : Blanks w) (key : WritesKey t name)
      (behind : Blanks w') :
      WritesStatement ('[' :: '[' :: (w ++ (t ++ (w' ++ [']', ']'])))) (.header name)

/-- A document with its statements in order. -/
inductive WritesDocument : List Char → List Statement → Prop where
  | nil {r : List Char} (remark : IsRemark r) : WritesDocument r []
  | skip {r e more : List Char} {rest : List Statement} (remark : IsRemark r) (lineEnd : IsLineEnd e)
      (document : WritesDocument more rest) : WritesDocument (r ++ (e ++ more)) rest
  | last {w t r : List Char} {st : Statement} (blanks : Blanks w) (statement : WritesStatement t st)
      (remark : IsRemark r) : WritesDocument (w ++ (t ++ r)) [st]
  | cons {w t r e more : List Char} {st : Statement} {rest : List Statement} (blanks : Blanks w)
      (statement : WritesStatement t st) (remark : IsRemark r) (lineEnd : IsLineEnd e)
      (document : WritesDocument more rest) : WritesDocument (w ++ (t ++ (r ++ (e ++ more)))) (st :: rest)

/-! ### Statements -/

/-- A character that begins a statement. -/
def Begins (c : Char) : Prop := isBare c = true ∨ c = '"' ∨ c = '['

theorem skipTrivia_of_begins {c : Char} (h : Begins c) (s : List Char) :
    skipTrivia (c :: s) = some (c :: s) := by
  have hOther : c ≠ ' ' ∧ c ≠ '\t' ∧ c ≠ '\n' ∧ c ≠ '\r' ∧ c ≠ '#' := by
    refine ⟨?_, ?_, ?_, ?_, ?_⟩ <;> rintro rfl <;> exact absurd h (by simp [Begins, isBare])
  rw [skipTrivia.eq_def]
  simp only [isBlank, beq_iff_eq, hOther, Bool.or_eq_true, or_self, if_false]

/-- What may stand behind a statement on its line, to the end of the line or of the text. -/
inductive IsTail : List Char → List Char → Prop where
  | line {r e more : List Char} (remark : IsRemark r) (lineEnd : IsLineEnd e) :
      IsTail (r ++ (e ++ more)) more
  | last {r : List Char} (remark : IsRemark r) : IsTail r []

/-- What may follow a statement on its line ends it. -/
theorem lineEnd_tail {tail more : List Char} (h : IsTail tail more) : lineEnd tail = some more := by
  have hComment {t rest : List Char} (hText : ∀ c ∈ t, isText c = true)
      (hRest : ∀ c ∈ rest.head?, isText c = false) : (t ++ rest).dropWhile isText = rest := by
    rw [List.dropWhile_append_of_pos hText]
    cases rest with
    | nil => rfl
    | cons c rest => exact List.dropWhile_cons_of_neg (by simpa using hRest c rfl)
  cases h with
  | @line r e more remark hEnd =>
      cases remark with
      | blank blanks =>
          rw [lineEnd, skipBlank_append blanks]
          cases hEnd <;> rfl
      | @comment w t blanks isComment =>
          rw [lineEnd, List.append_assoc, skipBlank_append blanks, List.cons_append,
            skipBlank_of_head (by decide)]
          have hRest : ∀ c ∈ (e ++ more).head?, isText c = false := by
            cases hEnd <;> simp [isText]
          simp only [hComment isComment hRest]
          cases hEnd <;> rfl
  | last remark =>
      cases remark with
      | blank blanks =>
          rw [lineEnd, ← List.append_nil tail, skipBlank_append blanks]
          rfl
      | @comment w t blanks isComment =>
          have hNone : ∀ c ∈ ([] : List Char).head?, isText c = false := by simp
          have hAll := hComment isComment hNone
          rw [List.append_nil] at hAll
          rw [lineEnd, skipBlank_append blanks, skipBlank_of_head (by decide)]
          simp only [hAll]

theorem IsTail.parts {tail more : List Char} (h : IsTail tail more) : Parts tail := by
  cases h with
  | line remark lineEnd => exact remark.parts (by cases lineEnd <;> simp [Parts, endsScalar])
  | last remark =>
      have hNone : Parts [] := by simp [Parts]
      have hParts := remark.parts hNone
      rwa [List.append_nil] at hParts

/-- What a statement does to what has been read of a document. -/
def Statement.apply (p : Progress) : Statement → Option Progress
  | .entry name v => (addUnder p.header [] name v p.root).map fun root => ⟨p.header, root⟩
  | .header name => (appendTable [] name p.root).map fun root => ⟨[name], root⟩

/-- No statement begins with a blank, a comment or a line end. -/
theorem WritesStatement.begins {t : List Char} {st : Statement} (h : WritesStatement t st) :
    ∃ c s, t = c :: s ∧ Begins c := by
  cases h with
  | entry key =>
      obtain ⟨c, s, rfl, hc⟩ := key.begins
      exact ⟨c, _, rfl, hc.elim .inl (.inr ∘ .inl)⟩
  | header => exact ⟨'[', _, rfl, .inr (.inr rfl)⟩

theorem WritesValue.begins {t : List Char} {v : Toml} (h : WritesValue t v) :
    ∃ c s, t = c :: s ∧ isBlank c = false := by
  cases h with
  | string => exact ⟨_, _, rfl, rfl⟩
  | count n =>
      obtain ⟨c, ds, hDigits, hc, -⟩ := Json.toDigits_eq_cons n
      refine ⟨c, ds, hDigits, ?_⟩
      rw [Bool.eq_false_iff]
      intro hBlank
      simp only [isBlank, Bool.or_eq_true, beq_iff_eq] at hBlank
      rcases hBlank with rfl | rfl <;> exact absurd hc (by decide)
  | yes => exact ⟨_, _, rfl, rfl⟩
  | no => exact ⟨_, _, rfl, rfl⟩
  | nothing => exact ⟨_, _, rfl, rfl⟩

/-- A statement on its line is read and carried out. -/
theorem WritesStatement.expression_eq {t : List Char} {st : Statement} (h : WritesStatement t st)
    {tail more : List Char} (hTail : IsTail tail more) (p : Progress) :
    expression p (t ++ tail) = (st.apply p).map fun p => (p, more) := by
  cases h with
  | @entry t w w' u name v key behind before value =>
      have hKey := key.key_eq (w := []) (List.forall_mem_nil _) behind (.inl rfl) (w' ++ (u ++ tail))
      have hValue : Toml.value maxDepth (skipBlank (w' ++ (u ++ tail))) = some (v, tail) := by
        have hRead := value.value_eq hTail.parts
        obtain ⟨c, s, rfl, hc⟩ := value.begins
        rw [skipBlank_append before, List.cons_append, skipBlank_of_head hc]
        exact hRead
      obtain ⟨c, s, rfl, hc⟩ := key.begins
      have hBracket : c ≠ '[' := by
        rintro rfl
        exact absurd hc (by decide)
      simp only [List.append_assoc, List.cons_append, List.nil_append] at hKey ⊢
      unfold expression
      split
      · rename_i hSame
        exact absurd (List.cons.inj hSame).1 hBracket
      · rename_i hSame
        exact absurd (List.cons.inj hSame).1 hBracket
      · rw [hKey]
        simp only [Option.bind_eq_bind, Option.bind_some, after?, if_true, hValue, Statement.apply]
        cases addUnder p.header [] name v p.root with
        | none => rfl
        | some root => simp only [Option.bind_some, lineEnd_tail hTail, Option.map_some]
  | @header t w w' name before key behind =>
      have hKey := key.key_eq before behind (.inr rfl) (']' :: tail)
      simp only [List.append_assoc, List.cons_append, List.nil_append] at hKey ⊢
      rw [expression, headerName, hKey]
      simp only [Option.bind_eq_bind, Option.bind_some, after?, if_true, Statement.apply,
        List.nil_append]
      cases appendTable [] name p.root with
      | none => rfl
      | some root => simp only [Option.bind_some, lineEnd_tail hTail, Option.map_some]

/-! ### Documents -/

theorem document_of_skipTrivia {s s' : List Char} (h : skipTrivia s = skipTrivia s') (bound : Nat)
    (p : Progress) : document (bound + 1) p s = document (bound + 1) p s' := by
  rw [document, document, h]

/-- A statement is carried out before the rest of the document is read. -/
theorem document_statement {w t tail more : List Char} {st : Statement} (hw : Blanks w)
    (h : WritesStatement t st) (hTail : IsTail tail more) (bound : Nat) (p : Progress) :
    document (bound + 1) p (w ++ (t ++ tail)) = (st.apply p).bind fun p => document bound p more := by
  have hExpression := h.expression_eq hTail p
  obtain ⟨c, s, rfl, hc⟩ := h.begins
  rw [document, skipTrivia_append hw, List.cons_append, skipTrivia_of_begins hc]
  simp only [Option.bind_eq_bind, Option.bind_some]
  rw [List.cons_append] at hExpression
  rw [hExpression]
  cases st.apply p <;> rfl

/-- Reading a document does what its statements say, one after another. -/
theorem WritesDocument.document_eq {text : List Char} {sts : List Statement}
    (h : WritesDocument text sts) {bound : Nat} (hBound : text.length < bound) (p : Progress) :
    document bound p text = (sts.foldlM Statement.apply p).map Progress.root := by
  induction h generalizing bound p with
  | nil remark =>
      obtain ⟨bound, rfl⟩ : ∃ b, bound = b + 1 := ⟨bound - 1, by omega⟩
      rw [document, skipTrivia_remark remark]
      rfl
  | @skip r e more rest remark lineEnd document ih =>
      have hShorter : more.length < bound := by
        rw [List.length_append, List.length_append] at hBound
        omega
      obtain ⟨bound, rfl⟩ : ∃ b, bound = b + 1 := ⟨bound - 1, by omega⟩
      rw [document_of_skipTrivia (skipTrivia_line remark lineEnd more), ih hShorter]
  | @last w t r st blanks statement remark =>
      have hLong : 1 ≤ t.length := by
        obtain ⟨c, s, rfl, -⟩ := statement.begins
        simp
      rw [List.length_append, List.length_append] at hBound
      obtain ⟨bound, rfl⟩ : ∃ b, bound = b + 2 := ⟨bound - 2, by omega⟩
      rw [document_statement blanks statement (.last remark), List.foldlM_cons]
      cases st.apply p <;> rfl
  | @cons w t r e more st rest blanks statement remark lineEnd document ih =>
      have hLong : 1 ≤ t.length := by
        obtain ⟨c, s, rfl, -⟩ := statement.begins
        simp
      simp only [List.length_append] at hBound
      obtain ⟨bound, rfl⟩ : ∃ b, bound = b + 1 := ⟨bound - 1, by omega⟩
      rw [document_statement blanks statement (.line remark lineEnd), List.foldlM_cons]
      cases st.apply p with
      | none => rfl
      | some next => exact ih (by omega) next

/-- No document begins with a byte order mark. -/
theorem WritesDocument.unmarked {text : List Char} {sts : List Statement}
    (h : WritesDocument text sts) : ∀ c ∈ text.head?, c ≠ '\uFEFF' := by
  have hRemark {r rest : List Char} (hr : IsRemark r) (hRest : ∀ c ∈ rest.head?, c ≠ '\uFEFF') :
      ∀ c ∈ (r ++ rest).head?, c ≠ '\uFEFF' :=
    hr.forall_head (by decide) (by decide) (by decide) hRest
  have hStatement {w t tail : List Char} {st : Statement} (hw : Blanks w) (ht : WritesStatement t st) :
      ∀ c ∈ (w ++ (t ++ tail)).head?, c ≠ '\uFEFF' := by
    refine forall_head_append (forall_blanks (by decide) (by decide) hw) fun c hc => ?_
    obtain ⟨d, s, rfl, hd⟩ := ht.begins
    cases hc
    rintro rfl
    exact absurd hd (by simp [Begins, isBare])
  cases h with
  | nil remark =>
      have hNone : ∀ c ∈ ([] : List Char).head?, c ≠ '\uFEFF' := by simp
      have hHead := hRemark remark hNone
      rwa [List.append_nil] at hHead
  | skip remark lineEnd document =>
      exact hRemark remark (by cases lineEnd <;> simp)
  | last blanks statement remark => exact hStatement blanks statement
  | cons blanks statement remark lineEnd document => exact hStatement blanks statement

/-- A document is read as its statements, carried out in their order. -/
theorem WritesDocument.parse_eq {text : List Char} {sts : List Statement}
    (h : WritesDocument text sts) :
    parse text = (sts.foldlM Statement.apply ⟨[], []⟩).map Progress.root := by
  have hDocument := h.document_eq (Nat.lt_succ_self _) ⟨[], []⟩
  have hMark := h.unmarked
  unfold parse
  split
  · exact absurd rfl (hMark _ rfl)
  · exact hDocument

end LintRepair.Toml
