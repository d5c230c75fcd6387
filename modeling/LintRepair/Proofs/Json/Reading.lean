import LintRepair.Json.Record
import LintRepair.Proofs.Json.Escaping

/-! Readers against the written forms. A reader takes a written value wherever it comes next in a
text, with white space before it and anything behind it, and leaves the rest untouched. The laws for
strings, lists and records are proved apart, so a record of any shape is put together from them. -/

namespace LintRepair.Json

/-! ### White space -/

theorem isSpace_of_mem_newline {depth : Nat} {c : Char} (h : c ∈ newline depth) : isSpace c = true := by
  simp only [newline, List.mem_cons, List.mem_replicate] at h
  rcases h with rfl | ⟨-, rfl⟩ <;> decide

/-- Space in front of a text is skipped. -/
theorem skipSpace_append {space : List Char} (h : ∀ c ∈ space, isSpace c = true)
    (rest : List Char) : skipSpace (space ++ rest) = skipSpace rest := by
  unfold skipSpace
  rw [List.dropWhile_append_of_pos h]

theorem skipSpace_of_head {c : Char} (h : isSpace c = false) (rest : List Char) :
    skipSpace (c :: rest) = c :: rest := by
  unfold skipSpace
  rw [List.dropWhile_cons_of_neg (by simp [h])]

theorem skipSpace_newline (depth : Nat) (rest : List Char) :
    skipSpace (newline depth ++ rest) = skipSpace rest :=
  skipSpace_append (fun _ h => isSpace_of_mem_newline h) rest

/-! ### Strings -/

theorem stringBody_quote (mode : Mode) (rest : List Char) :
    stringBody mode ('"' :: rest) = .ok ([], rest) := by
  rw [stringBody.eq_def]
  rfl

/-- A plain character is read as itself. -/
theorem stringBody_of_isPlain {c : Char} (h : IsPlain c) (mode : Mode) (rest : List Char) :
    stringBody mode (c :: rest) = (stringBody mode rest).map fun (cs, r) => (c :: cs, r) := by
  rw [stringBody.eq_def]
  simp only [if_neg h.1, if_neg h.2.1, if_neg (Nat.not_lt.mpr h.2.2)]

/-- An escape of one letter. -/
theorem stringBody_short {e c : Char} (h : shortEscape e = some c) (mode : Mode) (rest : List Char) :
    stringBody mode ('\\' :: e :: rest) =
      (stringBody mode rest).map fun (cs, r) => (c :: cs, r) := by
  have hNotU : e ≠ 'u' := by
    rintro rfl
    have hNone : shortEscape 'u' = none := by decide
    rw [hNone] at h
    cases h
  rw [stringBody.eq_def]
  simp [h]

/-- An escape of four digits, for a code unit outside the surrogates. -/
theorem stringBody_quad {a b c d : Char} {n : Nat} (h : hexQuad a b c d = some n)
    (hTrailing : isTrailing n = false) (hLeading : isLeading n = false) (rest : List Char) :
    stringBody .read ('\\' :: 'u' :: a :: b :: c :: d :: rest) =
      (stringBody .read rest).map fun (cs, r) => (Char.ofNat n :: cs, r) := by
  rw [stringBody.eq_def]
  simp [h, hTrailing, hLeading]

/-- The escapes of control characters are read back. -/
theorem hexQuad_control : ∀ n < 0x20,
    hexQuad '0' '0' (hexDigit (n / 16)) (hexDigit (n % 16)) = some n ∧
      isTrailing n = false ∧ isLeading n = false := by decide

/-- The three ways to write a character: as it is, by one letter, or by its
number. -/
theorem escapeChar_cases (c : Char) :
    (IsPlain c ∧ escapeChar c = [c]) ∨ (∃ e, shortEscape e = some c ∧ escapeChar c = ['\\', e]) ∨
      (c.toNat < 0x20 ∧ escapeChar c =
        ['\\', 'u', '0', '0', hexDigit (c.toNat / 16), hexDigit (c.toNat % 16)]) := by
  by_cases hPlain : IsPlain c
  · exact .inl ⟨hPlain, escapeChar_of_isPlain hPlain⟩
  right
  have hLetters : ∀ e ∈ ['"', '\\', 'b', 'f', 'n', 'r', 't'], ∀ d ∈ shortEscape e,
      escapeChar d = ['\\', e] := by simp [shortEscape, escapeChar]
  by_cases hShort : ∃ e ∈ ['"', '\\', 'b', 'f', 'n', 'r', 't'], shortEscape e = some c
  · obtain ⟨e, he, hEscape⟩ := hShort
    exact .inl ⟨e, hEscape, hLetters e he c hEscape⟩
  · obtain ⟨hQuote, hBackslash, hb, hf, hn, hr, ht⟩ : c ≠ '"' ∧ c ≠ '\\' ∧ c ≠ '\x08' ∧
        c ≠ '\x0c' ∧ c ≠ '\n' ∧ c ≠ '\r' ∧ c ≠ '\t' := by
      simpa [shortEscape, eq_comm] using hShort
    have hControl : c.toNat < 0x20 :=
      Nat.not_le.mp fun hPrint => hPlain ⟨hQuote, hBackslash, hPrint⟩
    refine .inr ⟨hControl, ?_⟩
    simp only [escapeChar, if_neg hQuote, if_neg hBackslash, if_neg hb, if_neg hf, if_neg hn,
      if_neg hr, if_neg ht, if_pos hControl]

/-- However a character is written, it is read as itself. -/
theorem stringBody_escapeChar (c : Char) (rest : List Char) :
    stringBody .read (escapeChar c ++ rest) =
      (stringBody .read rest).map fun (cs, r) => (c :: cs, r) := by
  rcases escapeChar_cases c with ⟨hPlain, hEq⟩ | ⟨e, hShort, hEq⟩ | ⟨hControl, hEq⟩
  · rw [hEq]
    exact stringBody_of_isPlain hPlain .read rest
  · rw [hEq]
    exact stringBody_short hShort .read rest
  · obtain ⟨hQuad, hTrailing, hLeading⟩ := hexQuad_control c.toNat hControl
    have hRead := stringBody_quad hQuad hTrailing hLeading rest
    rw [Char.ofNat_toNat] at hRead
    rw [hEq]
    exact hRead

/-- What is written between the quotes of a string is read back. -/
theorem stringBody_escaped (s rest : List Char) :
    stringBody .read (escaped s ++ '"' :: rest) = .ok (s, rest) := by
  induction s with
  | nil => exact stringBody_quote .read rest
  | cons c s ih =>
      rw [escaped_cons, List.append_assoc, stringBody_escapeChar, ih]
      rfl

/-! ### Readers -/

/-- A reader takes this text, wherever it is the next token, for this value. The
text opens a token, and none that closes a list. -/
structure Reads {α : Type} (read : Reader α) (written : List Char) (a : α) : Prop where
  opens : ∃ c more, written = c :: more ∧ isSpace c = false ∧ c ≠ ']'
  reads : ∀ s rest, skipSpace s = written ++ rest → read s = .ok (a, rest)

theorem nextToken_of_skipSpace {s t : List Char} {c : Char} (h : skipSpace s = c :: t) :
    nextToken s = .ok (c :: t) := by
  simp [nextToken, h]

/-- A written value is the next token where it stands. -/
theorem Reads.skipSpace_append {α : Type} {read : Reader α} {written : List Char} {a : α}
    (h : Reads read written a) (rest : List Char) :
    skipSpace (written ++ rest) = written ++ rest := by
  obtain ⟨c, more, rfl, hSpace, -⟩ := h.opens
  exact skipSpace_of_head hSpace _

theorem Reads.map {α β : Type} {read : Reader α} {written : List Char} {a : α}
    (h : Reads read written a) (f : α → β) :
    Reads (fun s => (read s).map fun (a, r) => (f a, r)) written (f a) := by
  refine ⟨h.opens, fun s rest hNext => ?_⟩
  rw [h.reads s rest hNext]
  rfl

/-- A quoted string is read back. -/
theorem reads_text (s : String) : Reads text (quote s) s := by
  refine ⟨⟨'"', _, quote_eq s, by decide, by decide⟩, fun t rest hNext => ?_⟩
  rw [quote_eq, List.cons_append, List.cons_append, List.append_assoc] at hNext
  simp only [text, nextToken_of_skipSpace hNext, Except.bind, bind]
  rw [List.singleton_append, stringBody_escaped]
  simp [Except.map]

/-- A value that may be missing is read as given, unless it is written like a
`null`. -/
theorem Reads.optional {α : Type} {read : Reader α} {written : List Char} {a : α}
    (h : Reads read written a) (hNotNull : ∀ c ∈ written.head?, c ≠ 'n') :
    Reads (Json.optional read) written (some a) := by
  refine ⟨h.opens, fun s rest hNext => ?_⟩
  have hRead := h.reads (written ++ rest) rest (h.skipSpace_append rest)
  simp only [Json.optional]
  split
  · rename_i r hNull
    rw [hNext] at hNull
    obtain ⟨c, more, rfl, -, -⟩ := h.opens
    exact absurd (List.cons.inj hNull).1 (hNotNull c (by simp))
  · rw [hNext, hRead]
    rfl

/-- A text that is written and nothing else. -/
theorem Reads.finish {α : Type} {read : Reader α} {written : List Char} {a : α}
    (h : Reads read written a) : Json.finish read written = .ok a := by
  have hNext := h.skipSpace_append []
  rw [List.append_nil] at hNext
  have hRead := h.reads written [] (hNext.trans (List.append_nil _).symm)
  simp [Json.finish, hRead, bind, Except.bind, pure, Except.pure, skipSpace]

/-! ### Lists -/

theorem length_le_prettyItems (depth : Nat) (items : List Json) :
    items.length ≤ (prettyItems depth items).length := by
  induction items with
  | nil => exact Nat.zero_le _
  | cons v items ih =>
      simp only [prettyItems, List.length_cons, List.length_append]
      omega

theorem arrayBody_close {α : Type} {mode : Mode} {item : Reader α} {s rest : List Char}
    (h : skipSpace s = ']' :: rest) (bound : Nat) (first : Bool) :
    arrayBody mode item (bound + 1) first s = .ok ([], rest) := by
  rw [arrayBody, h]
  rfl

/-- The first item of a list needs no comma. -/
theorem arrayBody_first_eq {α : Type} (mode : Mode) (item : Reader α) {s r : List Char} {c : Char}
    (bound : Nat) (hNext : skipSpace s = c :: r) (hOpen : c ≠ ']') :
    arrayBody mode item (bound + 1) true s = (do
      let (a, r) ← item (c :: r)
      let (more, r) ← arrayBody mode item bound false r
      return (a :: more, r)) := by
  rw [arrayBody, hNext]
  split
  · rename_i hEnd
    cases hEnd
  · rename_i hEnd
    exact absurd (List.cons.inj hEnd).1 hOpen
  · rename_i hSame
    cases hSame
    exact if_pos rfl

/-- Behind a comma the next item is read, and not a bracket. -/
theorem arrayBody_next_eq {α : Type} (mode : Mode) (item : Reader α) {s r t : List Char} {c : Char}
    (bound : Nat) (hComma : skipSpace s = ',' :: t) (hNext : skipSpace t = c :: r) (hOpen : c ≠ ']') :
    arrayBody mode item (bound + 1) false s = (do
      let (a, r) ← item (c :: r)
      let (more, r) ← arrayBody mode item bound false r
      return (a :: more, r)) := by
  rw [arrayBody, hComma]
  simp only [Char.reduceEq, imp_self, Bool.false_eq_true, if_false, if_true, hNext]
  split
  · rename_i hEnd
    cases hEnd
  · rename_i hEnd
    exact absurd (List.cons.inj hEnd).1 hOpen
  · rfl

theorem arrayBody_first {α : Type} {mode : Mode} {item : Reader α} {s r t rest : List Char} {c : Char}
    {a : α} {as : List α} {bound : Nat} (hNext : skipSpace s = c :: r) (hOpen : c ≠ ']')
    (hItem : item (c :: r) = .ok (a, t))
    (hMore : arrayBody mode item bound false t = .ok (as, rest)) :
    arrayBody mode item (bound + 1) true s = .ok (a :: as, rest) := by
  rw [arrayBody_first_eq mode item bound hNext hOpen, hItem]
  simp [hMore, bind, Except.bind, pure, Except.pure]

theorem arrayBody_next {α : Type} {mode : Mode} {item : Reader α} {s r t u rest : List Char} {c : Char}
    {a : α} {as : List α} {bound : Nat} (hComma : skipSpace s = ',' :: t)
    (hNext : skipSpace t = c :: r) (hOpen : c ≠ ']') (hItem : item (c :: r) = .ok (a, u))
    (hMore : arrayBody mode item bound false u = .ok (as, rest)) :
    arrayBody mode item (bound + 1) false s = .ok (a :: as, rest) := by
  rw [arrayBody_next_eq mode item bound hComma hNext hOpen, hItem]
  simp [hMore, bind, Except.bind, pure, Except.pure]

theorem Reads.arrayBody_first {α : Type} {item : Reader α} {written s r rest : List Char} {a : α}
    {as : List α} {bound : Nat} (h : Reads item written a) (hNext : skipSpace s = written ++ r)
    (hMore : arrayBody .read item bound false r = .ok (as, rest)) :
    arrayBody .read item (bound + 1) true s = .ok (a :: as, rest) := by
  have hRead := h.reads (written ++ r) r (h.skipSpace_append r)
  obtain ⟨c, more, rfl, -, hOpen⟩ := h.opens
  exact Json.arrayBody_first hNext hOpen hRead hMore

/-- An item that is read back is read back behind a comma. -/
theorem Reads.arrayBody_next {α : Type} {item : Reader α} {written s t r rest : List Char} {a : α}
    {as : List α} {bound : Nat} (h : Reads item written a) (hComma : skipSpace s = ',' :: t)
    (hNext : skipSpace t = written ++ r)
    (hMore : arrayBody .read item bound false r = .ok (as, rest)) :
    arrayBody .read item (bound + 1) false s = .ok (a :: as, rest) := by
  have hRead := h.reads (written ++ r) r (h.skipSpace_append r)
  obtain ⟨c, more, rfl, -, hOpen⟩ := h.opens
  exact Json.arrayBody_next hComma hNext hOpen hRead hMore

/-- The items of a list after the first, up to the closing bracket. -/
theorem arrayBody_prettyItems {α : Type} {item : Reader α} {toJson : α → Json} {depth : Nat}
    {as : List α} (h : ∀ a ∈ as, Reads item ((toJson a).prettyAt depth) a) {bound : Nat}
    (hBound : as.length < bound) (outer : Nat) (rest : List Char) :
    arrayBody .read item bound false
        (prettyItems depth (as.map toJson) ++ (newline outer ++ ']' :: rest)) = .ok (as, rest) := by
  induction as generalizing bound with
  | nil =>
      obtain ⟨bound, rfl⟩ := Nat.exists_eq_succ_of_ne_zero (Nat.ne_of_gt hBound)
      apply arrayBody_close
      rw [List.map_nil, prettyItems, List.nil_append, skipSpace_newline]
      exact skipSpace_of_head (by decide) rest
  | cons a as ih =>
      obtain ⟨bound, rfl⟩ := Nat.exists_eq_succ_of_ne_zero (Nat.ne_of_gt (Nat.zero_lt_of_lt hBound))
      have hItem := h a (List.mem_cons_self ..)
      have hMore := ih (fun b hb => h b (List.mem_cons_of_mem _ hb)) (Nat.lt_of_succ_lt_succ hBound)
      simp only [List.map_cons, prettyItems, List.cons_append, List.append_assoc]
      refine hItem.arrayBody_next (skipSpace_of_head (by decide) _) ?_ hMore
      rw [skipSpace_newline]
      exact hItem.skipSpace_append _

/-- Where a list is written, what its opening bracket is followed by is read item by
item. -/
theorem array_pretty {α : Type} {item : Reader α} (toJson : α → Json) {depth : Nat} {as : List α}
    (h : ∀ a ∈ as, Reads item ((toJson a).prettyAt (depth + 1)) a) (rest : List Char) :
    ∃ r, (Json.array (as.map toJson)).prettyAt depth ++ rest = '[' :: r ∧
      arrayBody .read item (r.length + 1) true r = .ok (as, rest) := by
  cases as with
  | nil => exact ⟨_, rfl, arrayBody_close (skipSpace_of_head (by decide) rest) _ true⟩
  | cons a as =>
      refine ⟨newline (depth + 1) ++ ((toJson a).prettyAt (depth + 1) ++
        (prettyItems (depth + 1) (as.map toJson) ++ (newline depth ++ ']' :: rest))), ?_, ?_⟩
      · simp only [List.map_cons, prettyAt, List.cons_append, List.append_assoc, List.nil_append]
      have hItem := h a (List.mem_cons_self ..)
      refine hItem.arrayBody_first ((skipSpace_newline _ _).trans (hItem.skipSpace_append _))
        (arrayBody_prettyItems (fun b hb => h b (List.mem_cons_of_mem _ hb)) ?_ depth rest)
      -- The bound comes from the length of the text, and every item takes its comma.
      have hLength := length_le_prettyItems (depth + 1) (as.map toJson)
      simp only [List.length_append, List.length_map, List.length_cons] at hLength ⊢
      omega

/-- A list whose items are read back is read back. -/
theorem reads_list {α : Type} {item : Reader α} {toJson : α → Json} {depth : Nat} {as : List α}
    (h : ∀ a ∈ as, Reads item ((toJson a).prettyAt (depth + 1)) a) :
    Reads (list item) ((Json.array (as.map toJson)).prettyAt depth) as := by
  constructor
  · obtain ⟨r, hOpen, -⟩ := array_pretty toJson h []
    rw [List.append_nil] at hOpen
    exact ⟨'[', r, hOpen, by decide, by decide⟩
  · intro s rest hNext
    obtain ⟨r, hOpen, hBody⟩ := array_pretty toJson h rest
    simp only [list, nextToken_of_skipSpace (hNext.trans hOpen)]
    exact hBody

/-! ### Records -/

section Records

variable {σ α : Type}

theorem objectBody_close {mode : Mode} {member : List Char → σ → Reader σ} {s rest : List Char}
    (h : skipSpace s = '\x7d' :: rest) (bound : Nat) (first : Bool) (state : σ) :
    objectBody mode member (bound + 1) first state s = .ok (state, rest) := by
  rw [objectBody, h]
  rfl

/-- The first member of an object needs no comma. -/
theorem objectBody_first_eq {mode : Mode} (member : List Char → σ → Reader σ)
    {s t u name : List Char} (bound : Nat) (state : σ) (hNext : skipSpace s = '"' :: t)
    (hName : stringBody mode t = .ok (name, u)) :
    objectBody mode member (bound + 1) true state s = (do
      let (next, r) ← member name state u
      objectBody mode member bound false next r) := by
  rw [objectBody, hNext]
  simp [hName, bind, Except.bind]

theorem objectBody_next_eq {mode : Mode} (member : List Char → σ → Reader σ)
    {s r t u name : List Char} (bound : Nat) (state : σ) (hComma : skipSpace s = ',' :: r)
    (hNext : skipSpace r = '"' :: t) (hName : stringBody mode t = .ok (name, u)) :
    objectBody mode member (bound + 1) false state s = (do
      let (next, r) ← member name state u
      objectBody mode member bound false next r) := by
  rw [objectBody, hComma]
  simp [hNext, hName, bind, Except.bind]

theorem objectBody_first {mode : Mode} {member : List Char → σ → Reader σ}
    {s t u after rest name : List Char} {state next final : σ} {bound : Nat}
    (hNext : skipSpace s = '"' :: t) (hName : stringBody mode t = .ok (name, u))
    (hMember : member name state u = .ok (next, after))
    (hMore : objectBody mode member bound false next after = .ok (final, rest)) :
    objectBody mode member (bound + 1) true state s = .ok (final, rest) := by
  rw [objectBody_first_eq member bound state hNext hName, hMember]
  exact hMore

theorem objectBody_next {mode : Mode} {member : List Char → σ → Reader σ}
    {s r t u after rest name : List Char} {state next final : σ} {bound : Nat}
    (hComma : skipSpace s = ',' :: r) (hNext : skipSpace r = '"' :: t)
    (hName : stringBody mode t = .ok (name, u)) (hMember : member name state u = .ok (next, after))
    (hMore : objectBody mode member bound false next after = .ok (final, rest)) :
    objectBody mode member (bound + 1) false state s = .ok (final, rest) := by
  rw [objectBody_next_eq member bound state hComma hNext hName, hMember]
  exact hMore

/-- A name that is written opens with a quote and is read up to its closing quote. -/
theorem quote_append (name : String) (rest : List Char) :
    quote name ++ rest = '"' :: (escaped name.toList ++ '"' :: rest) := by
  rw [quote_eq, List.cons_append, List.cons_append, List.append_assoc]
  rfl

theorem skipSpace_quote (name : String) (rest : List Char) :
    skipSpace (quote name ++ rest) = '"' :: (escaped name.toList ++ '"' :: rest) := by
  rw [quote_append]
  exact skipSpace_of_head (by decide) _

theorem length_le_prettyMembers (depth : Nat) (members : List (String × Json)) :
    members.length ≤ (prettyMembers depth members).length := by
  induction members with
  | nil => exact Nat.zero_le _
  | cons m members ih =>
      simp only [prettyMembers, List.length_cons, List.length_append]
      omega

/-- Written members that are taken one after the other, each with what the earlier
ones have left. -/
inductive Takes (member : List Char → σ → Reader σ) (depth : Nat) :
    σ → List (String × Json) → σ → Prop where
  | nil (state : σ) : Takes member depth state [] state
  | cons {state next final : σ} {name : String} {v : Json} {more : List (String × Json)}
      (taken : ∀ rest, member name.toList state (':' :: ' ' :: (v.prettyAt depth ++ rest)) =
        .ok (next, rest))
      (takes : Takes member depth next more final) :
      Takes member depth state ((name, v) :: more) final

/-- The members of an object after the first, up to the closing brace. -/
theorem objectBody_prettyMembers {member : List Char → σ → Reader σ} {depth : Nat} {state final : σ}
    {members : List (String × Json)} (h : Takes member depth state members final) {bound : Nat}
    (hBound : members.length < bound) (outer : Nat) (rest : List Char) :
    objectBody .read member bound false state
      (prettyMembers depth members ++ (newline outer ++ '\x7d' :: rest)) = .ok (final, rest) := by
  induction h generalizing bound with
  | nil state =>
      obtain ⟨bound, rfl⟩ := Nat.exists_eq_succ_of_ne_zero (Nat.ne_of_gt hBound)
      apply objectBody_close
      rw [prettyMembers, List.nil_append, skipSpace_newline]
      exact skipSpace_of_head (by decide) rest
  | cons taken takes ih =>
      obtain ⟨bound, rfl⟩ := Nat.exists_eq_succ_of_ne_zero (Nat.ne_of_gt (Nat.zero_lt_of_lt hBound))
      simp only [prettyMembers, List.cons_append, List.append_assoc]
      refine objectBody_next (skipSpace_of_head (by decide) _) ?_ (stringBody_escaped _ _)
        (taken _) (ih (Nat.lt_of_succ_lt_succ hBound))
      rw [skipSpace_newline]
      exact skipSpace_quote _ _

/-- Where an object is written, what its opening brace is followed by is read member by
member. -/
theorem object_pretty {member : List Char → σ → Reader σ} {depth : Nat} {state final : σ}
    {members : List (String × Json)} (h : Takes member (depth + 1) state members final)
    (rest : List Char) :
    ∃ r, (Json.object members).prettyAt depth ++ rest = '\x7b' :: r ∧
      objectBody .read member (r.length + 1) true state r = .ok (final, rest) := by
  cases h with
  | nil => exact ⟨_, rfl, objectBody_close (skipSpace_of_head (by decide) rest) _ true _⟩
  | @cons _ _ _ name v more taken takes =>
      refine ⟨newline (depth + 1) ++ (quote name ++ (':' :: ' ' :: (v.prettyAt (depth + 1) ++
        (prettyMembers (depth + 1) more ++ (newline depth ++ '\x7d' :: rest))))), ?_, ?_⟩
      · simp only [prettyAt, List.cons_append, List.append_assoc, List.nil_append]
      refine objectBody_first ((skipSpace_newline _ _).trans (skipSpace_quote name _))
        (stringBody_escaped _ _) (taken _) (objectBody_prettyMembers takes ?_ depth rest)
      have hLength := length_le_prettyMembers (depth + 1) more
      simp only [List.length_append, List.length_cons]
      omega

/-- Members that set fields of a record, one after the other and none twice. -/
inductive Shape.Fills (shape : Shape σ α) (depth : Nat) : σ → List (String × Json) → σ → Prop where
  | nil (state : σ) : Fills shape depth state [] state
  | cons {state next final : σ} {name : String} {v : Json} {more : List (String × Json)}
      {f : Field σ}
      (found : (shape.fields.find? fun f => f.name.toList == name.toList) = some f)
      (unset : f.isSet state = false) (reads : Reads (f.read state) (v.prettyAt depth) next)
      (fills : Fills shape depth next more final) :
      Fills shape depth state ((name, v) :: more) final

theorem Shape.member_pretty {shape : Shape σ α} {depth : Nat} {state next : σ} {name : String}
    {v : Json} {f : Field σ}
    (found : (shape.fields.find? fun f => f.name.toList == name.toList) = some f)
    (unset : f.isSet state = false) (reads : Reads (f.read state) (v.prettyAt depth) next)
    (rest : List Char) :
    shape.member name.toList state (':' :: ' ' :: (v.prettyAt depth ++ rest)) = .ok (next, rest) := by
  have hRead := reads.reads (' ' :: (v.prettyAt depth ++ rest)) rest (reads.skipSpace_append rest)
  simp [Shape.member, found, unset, colon, skipSpace_of_head (show isSpace ':' = false from rfl), hRead,
    bind, Except.bind]

/-- Members that fill a record are taken one after another. -/
theorem Shape.Fills.takes {shape : Shape σ α} {depth : Nat} {state final : σ}
    {members : List (String × Json)} (h : shape.Fills depth state members final) :
    Takes shape.member depth state members final := by
  induction h with
  | nil state => exact .nil state
  | cons found unset reads _ ih => exact .cons (Shape.member_pretty found unset reads) ih

/-- A record is read back from members that set all it needs. -/
theorem reads_record {shape : Shape σ α} {depth : Nat} {members : List (String × Json)} {final : σ}
    {a : α} (h : shape.Fills (depth + 1) shape.blank members final)
    (hBuild : shape.build final = .ok a) :
    Reads (record shape) ((Json.object members).prettyAt depth) a := by
  constructor
  · obtain ⟨r, hOpen, -⟩ := object_pretty h.takes []
    rw [List.append_nil] at hOpen
    exact ⟨'\x7b', r, hOpen, by decide, by decide⟩
  · intro s rest hNext
    obtain ⟨r, hOpen, hBody⟩ := object_pretty h.takes rest
    simp [record, nextToken_of_skipSpace (hNext.trans hOpen), hBody, hBuild, bind, Except.bind]

end Records

end LintRepair.Json
