import LintRepair.Proofs.Yaml.Scalars

/-! What the lexer makes of the parts of a YAML text in blocks, one part after another. Each rule says
which tokens a part gives in front of those of the rest, from the column where it stands and inside the
blocks that are open there. -/

namespace LintRepair.Yaml

open Text (IsLineEnd)

/-- The lexer between two entries, outside of brackets. -/
def Lexer.between (c : Cursor) (tokens : List Token) (indents : List Nat) (allowed : Bool) : Lexer :=
  ⟨c, tokens, indents, allowed, none, []⟩

/-- From a text at a column, inside the open blocks and where a key is allowed or not, these are the
tokens to the end. -/
def Lexes (s : List Char) (column : Nat) (indents : List Nat) (allowed : Bool) (out : List Token) :
    Prop :=
  ∀ (c : Cursor) (tokens : List Token), c.rest = s → c.column = column → ∀ bound, s.length < bound →
    (Lexer.between c tokens indents allowed).run bound = some (tokens.reverse ++ out)

variable {s gap : List Char} {column : Nat} {indents : List Nat} {allowed : Bool} {out : List Token}

namespace Lexer

theorem passSpace_leads (h : Leads column gap) (hs : Starts s) {c : Cursor} (hRest : c.rest = gap ++ s)
    (hColumn : c.column = 0) {bound : Nat} (hBound : gap.length < bound) (tokens : List Token) :
    ∃ c' : Cursor, c'.rest = s ∧ c'.column = column ∧
      (between c tokens indents true).passSpace bound = between c' tokens indents true := by
  induction h generalizing c bound with
  | indent =>
      obtain ⟨bound, rfl⟩ : ∃ b, bound = b + 1 := ⟨bound - 1, by omega⟩
      have hThere := Cursor.rest_skip_append hRest
      rw [length_spaces] at hThere
      refine ⟨c.skip column, hThere, by rw [Cursor.column_skip, hColumn, Nat.zero_add], ?_⟩
      exact passSpace_spaces bound hRest hs
  | @line r e more remark lineEnd leads ih =>
      rw [List.append_assoc, List.append_assoc] at hRest
      have hLong : 1 ≤ e.length := by cases lineEnd <;> simp
      rw [List.length_append, List.length_append] at hBound
      obtain ⟨bound, rfl⟩ : ∃ b, bound = b + 1 := ⟨bound - 1, by omega⟩
      obtain ⟨index, hPass⟩ := passSpace_remark bound (l := between c tokens indents true) remark
        lineEnd hRest
      rw [hPass]
      exact ih rfl rfl (by omega)

/-- Line ends, comments and indentation are passed over; behind them a key may begin. -/
theorem passSpace_breaks {r e more : List Char} (hRemark : IsRemark r) (hEnd : IsLineEnd e)
    (hMore : Leads column more) (hs : Starts s) {c : Cursor} (hRest : c.rest = r ++ (e ++ (more ++ s)))
    {bound : Nat} (hBound : more.length + 1 < bound) (tokens : List Token) (indents : List Nat)
    (allowed : Bool) :
    ∃ c' : Cursor, c'.rest = s ∧ c'.column = column ∧
      (between c tokens indents allowed).passSpace bound = between c' tokens indents true := by
  obtain ⟨bound, rfl⟩ : ∃ b, bound = b + 1 := ⟨bound - 1, by omega⟩
  obtain ⟨index, hPass⟩ := passSpace_remark bound (l := between c tokens indents allowed) hRemark hEnd
    hRest
  have hAllowed : ((between c tokens indents allowed).keyAllowed ||
      !(between c tokens indents allowed).inFlow) = true := Bool.or_true _
  rw [hPass, hAllowed]
  exact passSpace_leads hMore hs rfl rfl (by omega) tokens

theorem passSpace_between (hs : Starts s) {c : Cursor} (hRest : c.rest = s) (bound : Nat)
    (tokens : List Token) (indents : List Nat) (allowed : Bool) :
    (between c tokens indents allowed).passSpace (bound + 1) = between c tokens indents allowed := by
  have hNone : c.rest = spaces 0 ++ s := hRest
  rw [passSpace_spaces bound (l := between c tokens indents allowed) hNone hs]
  rfl

/-- Only what is behind the space decides how the lexer goes on. -/
theorem run_of_passSpace {l l' : Lexer} (h : l.passSpace (l.cursor.rest.length + 1) =
    l'.passSpace (l'.cursor.rest.length + 1)) (bound : Nat) : l.run bound = l'.run bound := by
  cases bound with
  | zero => rfl
  | succ bound => rw [run, run, h]

end Lexer

open Lexer (between)

/-! ### Space -/

/-- Spaces within a line move on to another column. -/
theorem Lexes.after_spaces {n : Nat} (hs : Starts s) (h : Lexes s (column + n) indents allowed out) :
    Lexes (spaces n ++ s) column indents allowed out := by
  intro c tokens hRest hColumn bound hBound
  have hThere := Cursor.rest_skip_append hRest
  rw [length_spaces] at hThere
  have hPass := Lexer.passSpace_spaces c.rest.length (l := between c tokens indents allowed) hRest hs
  have hStay := Lexer.passSpace_between hs hThere (c.skip n).rest.length tokens indents allowed
  rw [Lexer.run_of_passSpace (hPass.trans hStay.symm)]
  rw [List.length_append] at hBound
  exact h _ tokens hThere (by rw [Cursor.column_skip, hColumn]) bound (by omega)

theorem Lexes.after_line {r e more : List Char} (hRemark : IsRemark r) (hEnd : IsLineEnd e)
    (hMore : Leads column more) (hs : Starts s) (h : Lexes s column indents true out) (start : Nat) :
    Lexes (r ++ (e ++ (more ++ s))) start indents allowed out := by
  intro c tokens hRest hColumn bound hBound
  have hLong : 1 ≤ e.length := by cases hEnd <;> simp
  have hLess : more.length + 1 < c.rest.length + 1 := by
    rw [hRest]
    simp only [List.length_append]
    omega
  obtain ⟨c', hThere, hColumn', hPass⟩ :=
    Lexer.passSpace_breaks hRemark hEnd hMore hs hRest hLess tokens indents allowed
  have hStay := Lexer.passSpace_between hs hThere c'.rest.length tokens indents true
  have hRun := Lexer.run_of_passSpace (l := between c tokens indents allowed) (hPass.trans hStay.symm)
    bound
  rw [hRun]
  simp only [List.length_append] at hBound
  exact h _ tokens hThere hColumn' bound (by omega)

/-- A gap that ends a line leads to the column of its indentation. -/
theorem Lexes.after_breaks (hGap : Breaks column gap) (hs : Starts s)
    (h : Lexes s column indents true out) (start : Nat) :
    Lexes (gap ++ s) start indents allowed out := by
  obtain ⟨remark, -, lineEnd, leads⟩ := hGap
  rw [List.append_assoc, List.append_assoc]
  exact h.after_line remark lineEnd leads hs start

theorem Lexes.after_leads (hGap : Leads column gap) (hs : Starts s)
    (h : Lexes s column indents true out) : Lexes (gap ++ s) 0 indents true out := by
  cases hGap with
  | indent => exact Lexes.after_spaces hs (by rwa [Nat.zero_add])
  | line remark lineEnd leads =>
      rw [List.append_assoc, List.append_assoc]
      exact h.after_line remark lineEnd leads hs 0

/-! ### Blocks -/

/-- Blocks that begin deeper are closed first. -/
theorem Lexer.closeBlocks_between (c : Cursor) (tokens : List Token) (stays : Nat → Bool) :
    (between c tokens indents allowed).closeBlocks stays =
      between c (List.replicate (indents.takeWhile (!stays ·)).length .blockEnd ++ tokens)
        (indents.drop (indents.takeWhile (!stays ·)).length) allowed := rfl

/-- How the lexer goes on where no space and no block is in the way. -/
def Lexer.onward (bound : Nat) (l : Lexer) : Option (List Token) :=
  match l.cursor.rest with
  | [] => do
    let l ← l.closeAll
    some l.tokens.reverse
  | d :: rest => do
    let l ← l.token d rest
    Lexer.run bound l

theorem run_between (hs : Starts s) {c : Cursor} (hRest : c.rest = s) (bound : Nat)
    (tokens : List Token) : (between c tokens indents allowed).run (bound + 1) =
      ((between c tokens indents allowed).closeBlocks (· ≤ c.column)).onward bound := by
  subst hRest
  have hPass := Lexer.passSpace_between hs rfl c.rest.length tokens indents allowed
  have hHere : (between c tokens indents allowed).cursor.rest = c.rest := rfl
  have hStale : (between c tokens indents allowed).dropStaleKeys =
      some (between c tokens indents allowed) := rfl
  rw [Lexer.run, hHere, hPass, hStale]
  rfl

/-- A token is read inside the blocks that it does not close. -/
theorem Lexer.run_token {d : Char} {rest : List Char} (hs : Starts (d :: rest)) {l : Lexer}
    (hRest : l.cursor.rest = d :: rest) (hFresh : l.dropStaleKeys = some l)
    (hInside : l.inFlow = true ∨ ∀ i ∈ l.indents.head?, i ≤ l.cursor.column) (bound : Nat) :
    l.run (bound + 1) = (l.token d rest).bind (Lexer.run bound) := by
  have hNone : l.cursor.rest = spaces 0 ++ d :: rest := hRest
  have hSame : l.skip 0 = l := rfl
  have hPass := Lexer.passSpace_spaces l.cursor.rest.length hNone hs
  have hClose : l.closeBlocks (fun column => column ≤ l.cursor.column) = l := by
    unfold Lexer.closeBlocks
    split
    · rfl
    · rename_i hBlock
      have hHead := hInside.resolve_left hBlock
      have hStay : l.indents.takeWhile (fun i => !decide (i ≤ l.cursor.column)) = [] := by
        cases hIndents : l.indents with
        | nil => rfl
        | cons i indents => simp [hHead i (by rw [hIndents]; rfl)]
      rw [hStay]
      rfl
  rw [Lexer.run, hPass, hSame, hFresh]
  simp only [Option.bind_eq_bind, Option.bind_some, hClose, hRest]

/-- A token that does not stand left of its block closes none. -/
theorem run_token {d : Char} {rest : List Char} (hs : Starts (d :: rest)) {c : Cursor}
    (hRest : c.rest = d :: rest) (hInside : ∀ i ∈ indents.head?, i ≤ c.column) (bound : Nat)
    (tokens : List Token) : (between c tokens indents allowed).run (bound + 1) =
      ((between c tokens indents allowed).token d rest).bind (Lexer.run bound) :=
  Lexer.run_token (l := between c tokens indents allowed) hs hRest rfl (.inr hInside) bound

/-- A column that lies further left closes the block. -/
theorem Lexes.close {deeper : Nat} (hs : Starts s) (hDeeper : column < deeper)
    (h : Lexes s column indents allowed out) :
    Lexes s column (deeper :: indents) allowed (.blockEnd :: out) := by
  intro c tokens hRest hColumn bound hBound
  obtain ⟨bound, rfl⟩ : ∃ b, bound = b + 1 := ⟨bound - 1, by omega⟩
  have hRun := h c (.blockEnd :: tokens) hRest hColumn (bound + 1) hBound
  have hClose : (between c tokens (deeper :: indents) allowed).closeBlocks (· ≤ c.column) =
      (between c (.blockEnd :: tokens) indents allowed).closeBlocks (· ≤ c.column) := by
    have hLeft : decide (deeper ≤ c.column) = false := decide_eq_false (by omega)
    rw [Lexer.closeBlocks_between, Lexer.closeBlocks_between,
      List.takeWhile_cons_of_pos (by simp [hLeft]), List.length_cons, List.drop_succ_cons,
      List.replicate_succ', List.append_assoc, List.singleton_append]
  rw [run_between hs hRest] at hRun ⊢
  rw [hClose, hRun, List.reverse_cons, List.append_assoc, List.singleton_append]

/-- At the end of the text all blocks are closed. -/
theorem lexes_nil (column : Nat) (indents : List Nat) (allowed : Bool) :
    Lexes [] column indents allowed (List.replicate indents.length .blockEnd) := by
  intro c tokens hRest hColumn bound hBound
  obtain ⟨bound, rfl⟩ : ∃ b, bound = b + 1 := ⟨bound - 1, by omega⟩
  have hLength : (indents.takeWhile fun i => !decide (i ≤ c.column)).length ≤ indents.length :=
    (List.takeWhile_prefix _).length_le
  have hAll (l : List Nat) : l.takeWhile (fun _ => !false) = l := by simp
  generalize hClosed : (indents.takeWhile fun i => !decide (i ≤ c.column)).length = closed at hLength
  have hSum : List.replicate indents.length Token.blockEnd =
      List.replicate closed .blockEnd ++ List.replicate (indents.length - closed) .blockEnd := by
    rw [← List.replicate_add]
    congr 1
    omega
  have hHere (tokens : List Token) (indents : List Nat) :
      (between c tokens indents allowed).cursor.rest = [] := hRest
  rw [run_between starts_nil hRest, Lexer.closeBlocks_between, hClosed, Lexer.onward]
  simp only [hHere, Lexer.closeAll, Lexer.closeBlocks_between, hAll]
  simp [Lexer.dropKey, between, hSum]

/-- At the end of a text all blocks are closed. -/
theorem lexes_ends (h : Ends gap) (column : Nat) (indents : List Nat) (allowed : Bool) :
    Lexes gap column indents allowed (List.replicate indents.length .blockEnd) := by
  cases h with
  | blank n =>
      have hEnd := Lexes.after_spaces (n := n) starts_nil (lexes_nil (column + n) indents allowed)
      rwa [List.append_nil] at hEnd
  | @lines k gap breaks =>
      have hEnd : Lexes (gap ++ []) column indents allowed _ :=
        Lexes.after_breaks breaks starts_nil (lexes_nil k indents true) column
      rwa [List.append_nil] at hEnd

/-! ### Tokens -/

/-- A token at a column opens a block there, or stands in the block that is open there. -/
inductive Opens (column : Nat) (t : Token) : List Nat → List Token → List Nat → Prop where
  | deeper {indents : List Nat} (inside : ∀ i ∈ indents.head?, i < column) :
      Opens column t indents [t] (column :: indents)
  | level {indents : List Nat} : Opens column t (column :: indents) [] (column :: indents)

theorem Opens.head_le {t : Token} {opened : List Token} {after : List Nat}
    (h : Opens column t indents opened after) : ∀ i ∈ indents.head?, i ≤ column := by
  cases h with
  | deeper inside => exact fun i hi => Nat.le_of_lt (inside i hi)
  | level =>
      intro i hi
      cases hi
      exact Nat.le_refl _

/-- The token that opens a block is put in front of those that were read since. -/
theorem Opens.openBlock_eq {t : Token} {opened : List Token} {after : List Nat}
    (h : Opens column t indents opened after) (allowed : Bool) (c : Cursor) (front tokens : List Token)
    (candidate : Option Candidate) :
    Lexer.openBlock column tokens.length t ⟨c, front ++ tokens, indents, allowed, candidate, []⟩ =
      ⟨c, front ++ (opened.reverse ++ tokens), after, allowed, candidate, []⟩ := by
  cases h with
  | deeper inside =>
      have hInside : indents.head?.all (· < column) = true := by
        cases indents with
        | nil => rfl
        | cons i indents => simpa using inside i rfl
      simp [Lexer.openBlock, Lexer.inFlow, hInside, Lexer.pushAt]
  | level => simp [Lexer.openBlock, Lexer.inFlow]

theorem Lexer.token_dash {rest : List Char} {l : Lexer} (hRest : l.cursor.rest = '-' :: rest)
    (hApart : startsBlank rest = true) : l.token '-' rest = l.blockEntry := by
  have hMark : l.cursor.atDocumentMark = false := by
    rw [Cursor.atDocumentMark, hRest, Bool.and_eq_false_iff]
    right
    cases rest with
    | nil => rfl
    | cons d t =>
        have hd : d ≠ '-' := by
          rintro rfl
          cases hApart
        simp [hd]
  simp [token, hMark, hApart]

/-- The hyphen of an item. -/
theorem Lexes.dash {opened : List Token} {after : List Nat}
    (hOpens : Opens column .blockSequenceStart indents opened after) (hApart : startsBlank s = true)
    (h : Lexes s (column + 1) after true out) :
    Lexes ('-' :: s) column indents true (opened ++ .blockEntry :: out) := by
  intro c tokens hRest hColumn bound hBound
  obtain ⟨bound, rfl⟩ : ∃ b, bound = b + 1 := ⟨bound - 1, by omega⟩
  have hStarts : Starts ('-' :: s) := starts_mark (by simp) s
  have hEntry : (between c tokens indents true).blockEntry =
      some (between (c.skip 1) (.blockEntry :: (opened.reverse ++ tokens)) after true) := by
    have hOpen := hOpens.openBlock_eq true c [] tokens none
    subst hColumn
    simp only [List.nil_append] at hOpen
    simp [Lexer.blockEntry, between, hOpen, Lexer.dropKey, Lexer.push, Lexer.skip]
  have hThere : (c.skip 1).rest = s := by
    rw [Cursor.rest_skip, hRest]
    rfl
  rw [run_token hStarts hRest (fun i hi => hColumn ▸ hOpens.head_le i hi),
    Lexer.token_dash hRest hApart, hEntry]
  rw [List.length_cons] at hBound
  have hRun := h (c.skip 1) (.blockEntry :: (opened.reverse ++ tokens)) hThere
    (by rw [Cursor.column_skip, hColumn]) bound (by omega)
  rw [Option.bind_some, hRun]
  simp

theorem Lexer.token_quote (rest : List Char) {l : Lexer} (hRest : l.cursor.rest = '"' :: rest) :
    l.token '"' rest = l.quoted true := by
  have hMark := atDocumentMark_of_head hRest (by decide) (by decide)
  simp [token, hMark]

theorem Lexer.token_word {d : Char} {rest : List Char} {l : Lexer}
    (hRest : l.cursor.rest = d :: rest) (hd : d.isAlphanum = true) : l.token d rest = l.plain := by
  have hMark : l.cursor.atDocumentMark = false :=
    atDocumentMark_word (w := [d]) ⟨by simp, by simpa using hd⟩ hRest
  have hStart : startsPlain l.inFlow d rest = true := by
    have hMarks : "-?:,[]\x7b\x7d#&*!|>'\"%@".toList.contains d = false := by
      rw [List.contains_eq_any_beq, List.any_eq_false]
      intro m hm
      have hAll : "-?:,[]\x7b\x7d#&*!|>'\"%@".toList.all (!·.isAlphanum) = true := by decide +kernel
      simpa using ne_of_isAlphanum hd (by simpa using List.all_eq_true.mp hAll m hm)
    have hTick : (d == '\x60') = false := beq_false_of_ne (ne_of_isAlphanum hd (by decide))
    simp only [startsPlain, isBlank_of_isAlphanum hd, isBreak_of_isAlphanum hd, hMarks, hTick,
      Bool.or_false, Bool.not_false, Bool.true_or]
  have hOther (m : Char) (hm : m.isAlphanum = false) : (d == m) = false :=
    beq_false_of_ne (ne_of_isAlphanum hd hm)
  simp only [token, hMark, hStart, hOther '%' rfl, hOther '[' rfl, hOther ']' rfl, hOther '\x7b' rfl,
    hOther '\x7d' rfl, hOther ',' rfl, hOther '-' rfl, hOther '?' rfl, hOther ':' rfl, hOther '*' rfl,
    hOther '&' rfl, hOther '!' rfl, hOther '|' rfl, hOther '>' rfl, hOther '\'' rfl, hOther '"' rfl,
    Bool.and_false, Bool.false_and, Bool.false_eq_true, if_false, if_true]

/-- A text in double quotes, as the value of a key. -/
theorem Lexes.quoted {t cs : List Char} (hText : WritesLetters t cs)
    (hInside : ∀ i ∈ indents.head?, i ≤ column)
    (h : ∀ column, Lexes s column indents false out) :
    Lexes ('"' :: (t ++ '"' :: s)) column indents false
      (.scalar .doubleQuoted (String.ofList cs) :: out) := by
  intro c tokens hRest hColumn bound hBound
  obtain ⟨bound, rfl⟩ : ∃ b, bound = b + 1 := ⟨bound - 1, by omega⟩
  have hStarts : Starts ('"' :: (t ++ '"' :: s)) := starts_mark (by simp) _
  have hQuoted : (between c tokens indents false).quoted true = some (between (c.skip (t.length + 2))
      (.scalar .doubleQuoted (String.ofList cs) :: tokens) indents false) := by
    have hRead := hText.readQuoted_eq hRest
    simp [Lexer.quoted, Lexer.keyStart, Lexer.noteKey, between, hRead, Lexer.push]
  have hThere : (c.skip (t.length + 2)).rest = s := by
    have hAll : c.rest = ('"' :: (t ++ ['"'])) ++ s := by rw [hRest]; simp
    have hSkip := Cursor.rest_skip_append hAll
    simpa using hSkip
  rw [run_token hStarts hRest (fun i hi => hColumn ▸ hInside i hi),
    Lexer.token_quote _ hRest, hQuoted]
  simp only [List.length_cons, List.length_append] at hBound
  have hRun := h _ (c.skip (t.length + 2)) (.scalar .doubleQuoted (String.ofList cs) :: tokens) hThere
    rfl bound (by omega)
  rw [Option.bind_some, hRun]
  simp

/-! ### Keys -/

/-- A key before its colon: a plain word, or a text in double quotes, that is not too long. -/
inductive WritesKey : List Char → Style → String → Prop where
  | plain {name : String} (word : IsWord name.toList) (short : Text.utf8Length name.toList ≤ 1024) :
      WritesKey name.toList .plain name
  | quoted {t : List Char} {name : String} (letters : WritesLetters t name.toList)
      (short : Text.utf8Length ('"' :: (t ++ ['"'])) ≤ 1024) :
      WritesKey ('"' :: (t ++ ['"'])) .doubleQuoted name

theorem WritesKey.short {k : List Char} {style : Style} {name : String} (h : WritesKey k style name) :
    Text.utf8Length k ≤ 1024 := by
  cases h <;> assumption

theorem WritesKey.length_pos {k : List Char} {style : Style} {name : String}
    (h : WritesKey k style name) : 1 ≤ k.length := by
  cases h with
  | plain word => exact List.length_pos_iff.mpr word.1
  | quoted => simp

/-- The first token of an entry is noted as a possible key. -/
theorem WritesKey.token_eq {k : List Char} {style : Style} {name : String} (h : WritesKey k style name)
    (hApart : startsBlank s = true) {c : Cursor} (hRest : c.rest = k ++ ':' :: s)
    (tokens : List Token) (indents : List Nat) : ∃ (d : Char) (rest : List Char) (required : Bool),
      c.rest = d :: rest ∧ Starts (d :: rest) ∧ (between c tokens indents true).token d rest =
        some ⟨c.skip k.length, .scalar style name :: tokens, indents, false,
          some ⟨required, tokens.length, c.index, c.line, c.column⟩, []⟩ := by
  cases h with
  | plain word short =>
      cases hName : name.toList with
      | nil => exact absurd hName word.1
      | cons d t =>
          have hd : d.isAlphanum = true := word.2 d (hName ▸ List.mem_cons_self)
          have hHere : c.rest = d :: (t ++ ':' :: s) := by rw [hRest, hName]; rfl
          have hRead (indent : Nat) := readPlain_key word hApart hRest indent
          refine ⟨d, _, indents.head? == some c.column, hHere, starts_of_isAlphanum hd _, ?_⟩
          rw [Lexer.token_word (l := between c tokens indents true) hHere hd, ← hName]
          simp [Lexer.plain, Lexer.noteKey, Lexer.dropKey, between, hRead, Lexer.push, Lexer.inFlow]
  | @quoted t name letters short =>
      have hHere : c.rest = '"' :: (t ++ '"' :: (':' :: s)) := by rw [hRest]; simp
      have hRead := letters.readQuoted_eq hHere
      refine ⟨'"', _, indents.head? == some c.column, hHere, starts_mark (by simp) _, ?_⟩
      rw [Lexer.token_quote (l := between c tokens indents true) _ hHere]
      simp [Lexer.quoted, Lexer.keyStart, Lexer.noteKey, Lexer.dropKey, between, hRead, Lexer.push,
        Lexer.inFlow]

theorem Lexer.token_colon {rest : List Char} {l : Lexer} (hRest : l.cursor.rest = ':' :: rest)
    (hApart : startsBlank rest = true) : l.token ':' rest = l.value := by
  have hMark := atDocumentMark_of_head hRest (by decide) (by decide)
  simp [token, hMark, hApart]

/-- The colon behind a key puts the key's token in front of the key. -/
theorem Opens.value_eq {opened : List Token} {after : List Nat} {start : Cursor}
    (h : Opens start.column .blockMappingStart indents opened after) (c : Cursor) (scalar : Token)
    (tokens : List Token) (required : Bool) :
    Lexer.value ⟨c, scalar :: tokens, indents, false,
        some ⟨required, tokens.length, start.index, start.line, start.column⟩, []⟩ =
      some (between (c.skip 1) (.value :: scalar :: .key :: (opened.reverse ++ tokens)) after false) := by
  have hOpen := h.openBlock_eq false c [scalar, .key] tokens
    (some ⟨required, tokens.length, start.index, start.line, start.column⟩)
  have hKey : Lexer.pushAt tokens.length .key ⟨c, scalar :: tokens, indents, false,
      some ⟨required, tokens.length, start.index, start.line, start.column⟩, []⟩ =
        ⟨c, [scalar, .key] ++ tokens, indents, false,
          some ⟨required, tokens.length, start.index, start.line, start.column⟩, []⟩ := by
    simp [Lexer.pushAt]
  simp only [Lexer.value, hKey, hOpen]
  rfl

/-- A key with its colon. -/
theorem Lexes.key {k : List Char} {style : Style} {name : String} (hKey : WritesKey k style name)
    {opened : List Token} {after : List Nat}
    (hOpens : Opens column .blockMappingStart indents opened after) (hApart : startsBlank s = true)
    (h : Lexes s (column + k.length + 1) after false out) :
    Lexes (k ++ ':' :: s) column indents true
      (opened ++ .key :: .scalar style name :: .value :: out) := by
  intro c tokens hRest hColumn bound hBound
  subst hColumn
  rw [List.length_append, List.length_cons] at hBound
  have hLong := hKey.length_pos
  obtain ⟨bound, rfl⟩ : ∃ b, bound = b + 2 := ⟨bound - 2, by omega⟩
  obtain ⟨d, rest, required, hHere, hStarts, hToken⟩ := hKey.token_eq hApart hRest tokens indents
  have hColon : (c.skip k.length).rest = ':' :: s := Cursor.rest_skip_append hRest
  have hStartsColon : Starts (':' :: s) := starts_mark (by simp) s
  -- The key is short and on one line, so it still stands when its colon is reached.
  have hFresh : Lexer.dropStaleKeys ⟨c.skip k.length, .scalar style name :: tokens, indents, false,
      some ⟨required, tokens.length, c.index, c.line, c.column⟩, []⟩ =
        some ⟨c.skip k.length, .scalar style name :: tokens, indents, false,
          some ⟨required, tokens.length, c.index, c.line, c.column⟩, []⟩ := by
    have hStale : Lexer.isStale (c.skip k.length)
        ⟨required, tokens.length, c.index, c.line, c.column⟩ = false := by
      have hShort := hKey.short
      have hIndex : (c.skip k.length).index = c.index + Text.utf8Length k := by
        rw [Cursor.skip, hRest, List.take_left]
      have hLine : (c.skip k.length).line = c.line := rfl
      simp only [Lexer.isStale, hIndex, hLine, Nat.lt_irrefl, decide_false, Bool.false_or,
        decide_eq_false_iff_not]
      omega
    simp [Lexer.dropStaleKeys, hStale]
  have hInside : ∀ i ∈ indents.head?, i ≤ (c.skip k.length).column := by
    intro i hi
    have hLe := hOpens.head_le i hi
    rw [Cursor.column_skip]
    omega
  rw [run_token hStarts hHere hOpens.head_le, hToken, Option.bind_some,
    Lexer.run_token hStartsColon hColon hFresh (.inr hInside), Lexer.token_colon hColon hApart,
    hOpens.value_eq, Option.bind_some]
  have hThere : ((c.skip k.length).skip 1).rest = s := by
    rw [Cursor.rest_skip, hColon]
    rfl
  have hRun := h ((c.skip k.length).skip 1)
    (.value :: .scalar style name :: .key :: (opened.reverse ++ tokens)) hThere rfl bound (by omega)
  rw [hRun]
  simp

/-! ### Plain words and empty brackets -/

/-- A word is a token by itself, once the space behind it has been read. -/
theorem run_word {w : List Char} {top : Nat} {more : List Nat} (hw : IsWord w)
    (hs : startsBlank s = true) {c : Cursor} (hRest : c.rest = w ++ s) (hTop : top ≤ c.column) {g : Gap}
    {beyond : Cursor} (hGap : readGap (some (top + 1)) (s.length + 1) {} (c.skip w.length) =
      some (g, beyond))
    (hStop : beyond.column < top + 1 ∨ ∀ d ∈ beyond.rest.head?, d = '#') (bound : Nat)
    (tokens : List Token) : (between c tokens (top :: more) false).run (bound + 1) =
      (between beyond (.scalar .plain (String.ofList w) :: tokens) (top :: more) g.broken).run bound := by
  have hRead := readPlain_value hw hs hRest hGap hStop
  obtain ⟨hSome, hAll⟩ := hw
  cases w with
  | nil => exact absurd rfl hSome
  | cons d w =>
      have hd : d.isAlphanum = true := hAll d List.mem_cons_self
      have hHere : c.rest = d :: (w ++ s) := hRest
      have hPlain : (between c tokens (top :: more) false).plain = some (between beyond
          (.scalar .plain (String.ofList (d :: w)) :: tokens) (top :: more) g.broken) := by
        simp [Lexer.plain, Lexer.noteKey, between, hRead, Lexer.push, Lexer.inFlow]
      rw [run_token (starts_of_isAlphanum hd _) hHere (by rintro i ⟨⟩; exact hTop),
        Lexer.token_word (l := between c tokens (top :: more) false) hHere hd, hPlain, Option.bind_some]

/-- A plain word is a scalar, if no deeper line goes on with it. -/
theorem Lexes.word {w : List Char} {top next : Nat} {more : List Nat} (hw : IsWord w)
    (hGap : Breaks next gap) (hs : Starts s) (hLow : next ≤ top ∨ s = []) (hTop : top ≤ column)
    (h : Lexes s next (top :: more) true out) :
    Lexes (w ++ (gap ++ s)) column (top :: more) false
      (.scalar .plain (String.ofList w) :: out) := by
  intro c tokens hRest hColumn bound hBound
  obtain ⟨bound, rfl⟩ : ∃ b, bound = b + 1 := ⟨bound - 1, by omega⟩
  have hThere := Cursor.rest_skip_append hRest
  have hLess : gap.length < (gap ++ s).length + 1 := by
    rw [List.length_append]
    omega
  obtain ⟨g, beyond, hRead, hReached⟩ := readGap_breaks hGap hs hThere (some (top + 1)) hLess {}
  have hLength := length_rest_readGap hRead
  rw [hThere] at hLength
  have hLong := List.length_pos_iff.mpr hw.1
  rw [List.length_append] at hBound
  have hStop : beyond.column < top + 1 ∨ ∀ d ∈ beyond.rest.head?, d = '#' := by
    cases hReached with
    | entry rest there below =>
        rcases hLow with hLow | rfl
        · exact .inl (by omega)
        · exact .inr (by simp [rest])
    | comment remark hash lineEnd leads rest =>
        refine .inr fun d hd => ?_
        rw [rest, List.head?_append, hash] at hd
        cases hd
        rfl
  rw [run_word hw (hGap.startsBlank_append s) hRest (hColumn ▸ hTop) hRead hStop]
  have hOnward : Lexes beyond.rest beyond.column (top :: more) g.broken out := by
    cases hReached with
    | entry rest there below =>
        rw [rest, there, below]
        exact h
    | comment remark hash lineEnd leads rest =>
        rw [rest]
        exact h.after_line remark lineEnd leads hs _
  have hRun := hOnward beyond (.scalar .plain (String.ofList w) :: tokens) rfl rfl bound (by omega)
  rw [hRun]
  simp

theorem lexes_word_ends {w : List Char} {top : Nat} {more : List Nat} (hw : IsWord w) (hGap : Ends gap)
    (hTop : top ≤ column) : Lexes (w ++ gap) column (top :: more) false
      (.scalar .plain (String.ofList w) :: List.replicate (more.length + 1) .blockEnd) := by
  cases hGap with
  | @lines next gap breaks =>
      have hNext := Lexes.word hw breaks starts_nil (.inr rfl) hTop (lexes_nil next (top :: more) true)
      rwa [List.append_nil] at hNext
  | blank n =>
      intro c tokens hRest hColumn bound hBound
      obtain ⟨bound, rfl⟩ : ∃ b, bound = b + 1 := ⟨bound - 1, by omega⟩
      have hThere := Cursor.rest_skip_append hRest
      have hApart : startsBlank (spaces n) = true := by cases n <;> rfl
      have hBlank : ∀ d ∈ spaces n, isBlank d = true := by
        intro d hd
        rw [mem_spaces hd]
        rfl
      have hRead := readGap_blanks (s := []) hBlank (by simp) (by rw [hThere, List.append_nil])
        (some (top + 1)) (Nat.lt_succ_self (spaces n).length) (g := {}) rfl
      have hEnd : ((c.skip w.length).skip (spaces n).length).rest = [] :=
        Cursor.rest_skip_append (by rw [hThere, List.append_nil])
      have hLong := List.length_pos_iff.mpr hw.1
      rw [List.length_append] at hBound
      rw [run_word hw hApart hRest (hColumn ▸ hTop) hRead (.inr (by rw [hEnd]; rintro d ⟨⟩))]
      have hRun := lexes_nil _ (top :: more) false ((c.skip w.length).skip (spaces n).length)
        (.scalar .plain (String.ofList w) :: tokens) hEnd rfl bound (by simp; omega)
      exact hRun.trans (by simp)

theorem Lexer.token_bracket {d : Char} {t : Token} (rest : List Char) {l : Lexer}
    (h : d = '[' ∧ t = .flowSequenceStart ∨ d = ']' ∧ t = .flowSequenceEnd)
    (hRest : l.cursor.rest = d :: rest) :
    l.token d rest = if d = '[' then l.openFlow t else l.closeFlow t := by
  rcases h with ⟨rfl, rfl⟩ | ⟨rfl, rfl⟩
  · have hMark := atDocumentMark_of_head hRest (by decide) (by decide)
    simp [token, hMark]
  · have hMark := atDocumentMark_of_head hRest (by decide) (by decide)
    simp [token, hMark]

/-- Brackets around nothing. -/
theorem Lexes.brackets (n : Nat) (hInside : ∀ i ∈ indents.head?, i ≤ column)
    (h : ∀ column, Lexes s column indents false out) :
    Lexes ('[' :: (spaces n ++ ']' :: s)) column indents false
      (.flowSequenceStart :: .flowSequenceEnd :: out) := by
  intro c tokens hRest hColumn bound hBound
  subst hColumn
  simp only [List.length_cons, List.length_append] at hBound
  obtain ⟨bound, rfl⟩ : ∃ b, bound = b + 2 := ⟨bound - 2, by omega⟩
  have hOpen : Starts ('[' :: (spaces n ++ ']' :: s)) := starts_mark (by simp) _
  have hClose : Starts (']' :: s) := starts_mark (by simp) s
  have hFlow : (between c tokens indents false).openFlow .flowSequenceStart =
      some ⟨c.skip 1, .flowSequenceStart :: tokens, indents, true, none, [none]⟩ := rfl
  have hThere : (c.skip 1).rest = spaces n ++ ']' :: s := by
    rw [Cursor.rest_skip, hRest]
    rfl
  have hBehind : ((c.skip 1).skip n).rest = ']' :: s := by
    have hSkip := Cursor.rest_skip_append hThere
    rwa [length_spaces] at hSkip
  have hPass : Lexer.run (bound + 1)
      ⟨c.skip 1, .flowSequenceStart :: tokens, indents, true, none, [none]⟩ =
      Lexer.run (bound + 1)
        ⟨(c.skip 1).skip n, .flowSequenceStart :: tokens, indents, true, none, [none]⟩ := by
    refine Lexer.run_of_passSpace ?_ _
    rw [Lexer.passSpace_spaces _ hThere hClose, Lexer.passSpace_spaces (n := 0) _ hBehind hClose]
    rfl
  rw [run_token hOpen hRest hInside, Lexer.token_bracket _ (.inl ⟨rfl, rfl⟩) hRest, if_pos rfl, hFlow,
    Option.bind_some, hPass, Lexer.run_token hClose hBehind rfl (.inl rfl),
    Lexer.token_bracket _ (.inr ⟨rfl, rfl⟩) hBehind, if_neg (by decide)]
  have hEnd : Lexer.closeFlow .flowSequenceEnd
      ⟨(c.skip 1).skip n, .flowSequenceStart :: tokens, indents, true, none, [none]⟩ =
        some (between (((c.skip 1).skip n).skip 1) (.flowSequenceEnd :: .flowSequenceStart :: tokens)
          indents false) := rfl
  have hRest' : (((c.skip 1).skip n).skip 1).rest = s := by
    rw [Cursor.rest_skip, hBehind]
    rfl
  rw [hEnd, Option.bind_some]
  exact (h _ _ _ hRest' rfl bound (by omega)).trans (by simp)

end LintRepair.Yaml
