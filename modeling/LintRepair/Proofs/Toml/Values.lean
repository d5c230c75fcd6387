import LintRepair.Proofs.Json.Numbers
import LintRepair.Proofs.Text.Lines
import LintRepair.Toml.Reader

/-! Space, strings, keys and values of TOML as they are written. Each of them is read to its end, whatever
stands behind it that is none of its own characters. -/

namespace LintRepair.Toml

open Text (IsLineEnd)

/-! ### The grammar -/

/-- Space within a line, as much as one likes. -/
def Blanks (w : List Char) : Prop := ∀ c ∈ w, isBlank c = true

/-- What a line may hold besides a statement: space and a comment. -/
inductive IsRemark : List Char → Prop where
  | blank {w : List Char} (blanks : Blanks w) : IsRemark w
  | comment {w t : List Char} (blanks : Blanks w) (text : ∀ c ∈ t, isText c = true) :
      IsRemark (w ++ '#' :: t)

/-- A character of a basic string: as it is, by one letter, or by its number. -/
inductive WritesLetter : List Char → Char → Prop where
  | plain {c : Char} (text : isText c = true) (notQuote : c ≠ '"') (notEscape : c ≠ '\\') :
      WritesLetter [c] c
  | short {e c : Char} (escape : shortEscape e = some c) : WritesLetter ['\\', e] c
  | code {mark c : Char} {digits : List Char}
      (marked : (mark, digits.length) ∈ [('x', 2), ('u', 4), ('U', 8)])
      (codes : codePoint digits = some c) : WritesLetter ('\\' :: mark :: digits) c

/-- The characters of a basic string one after another. -/
inductive WritesLetters : List Char → List Char → Prop where
  | nil : WritesLetters [] []
  | cons {t u cs : List Char} {c : Char} (letter : WritesLetter t c) (letters : WritesLetters u cs) :
      WritesLetters (t ++ u) (c :: cs)

/-- A key of one part, bare or in quotes. -/
inductive WritesKey : List Char → String → Prop where
  | bare {name : String} (present : name.toList ≠ []) (bare : ∀ c ∈ name.toList, isBare c = true) :
      WritesKey name.toList name
  | quoted {t : List Char} {name : String} (letters : WritesLetters t name.toList) :
      WritesKey ('"' :: (t ++ ['"'])) name

/-- A basic string, a decimal number, a truth value, or an array of nothing. -/
inductive WritesValue : List Char → Toml → Prop where
  | string {t : List Char} {s : String} (letters : WritesLetters t s.toList) :
      WritesValue ('"' :: (t ++ ['"'])) (.string s)
  | count (n : Nat) : WritesValue (Nat.toDigits 10 n) (.integer n)
  | yes : WritesValue ['t', 'r', 'u', 'e'] (.boolean true)
  | no : WritesValue ['f', 'a', 'l', 's', 'e'] (.boolean false)
  | nothing {w : List Char} (blanks : Blanks w) : WritesValue ('[' :: (w ++ [']'])) (.array false [])

/-! ### Space -/

/-- Blanks within a line are skipped. -/
theorem skipBlank_append {w : List Char} (h : Blanks w) (s : List Char) :
    skipBlank (w ++ s) = skipBlank s :=
  List.dropWhile_append_of_pos h

theorem skipBlank_of_head {c : Char} (h : isBlank c = false) (s : List Char) :
    skipBlank (c :: s) = c :: s :=
  List.dropWhile_cons_of_neg (by simp [h])

theorem skipTrivia_blank {c : Char} (h : isBlank c = true) (s : List Char) :
    skipTrivia (c :: s) = skipTrivia s := by
  rw [skipTrivia.eq_def]
  simp only [h, Bool.true_or, if_true]

/-- Blanks in front of a line are skipped. -/
theorem skipTrivia_append {w : List Char} (h : Blanks w) (s : List Char) :
    skipTrivia (w ++ s) = skipTrivia s := by
  induction w with
  | nil => rfl
  | cons c w ih =>
      obtain ⟨hc, hw⟩ := List.forall_mem_cons.mp h
      rw [List.cons_append, skipTrivia_blank hc, ih hw]

/-- Empty lines are skipped. -/
theorem skipTrivia_lineEnd {e : List Char} (h : IsLineEnd e) (s : List Char) :
    skipTrivia (e ++ s) = skipTrivia s := by
  cases h <;> rw [List.cons_append, skipTrivia.eq_def] <;> rfl

theorem skipTrivia_hash (s : List Char) : skipTrivia ('#' :: s) = skipComment s := by
  rw [skipTrivia.eq_def]
  rfl

theorem skipComment_append {text : List Char} (h : ∀ c ∈ text, isText c = true) (s : List Char) :
    skipComment (text ++ s) = skipComment s := by
  induction text with
  | nil => rfl
  | cons c text ih =>
      obtain ⟨hc, hText⟩ := List.forall_mem_cons.mp h
      have hFeed : c ≠ '\n' := by
        rintro rfl
        exact absurd hc (by decide)
      have hReturn : c ≠ '\r' := by
        rintro rfl
        exact absurd hc (by decide)
      rw [List.cons_append, skipComment.eq_def]
      simp only [hFeed, hReturn, hc, if_false, if_true]
      exact ih hText

/-- A comment ends with its line. -/
theorem skipComment_lineEnd {e : List Char} (h : IsLineEnd e) (s : List Char) :
    skipComment (e ++ s) = skipTrivia s := by
  cases h <;> rw [List.cons_append, skipComment.eq_def] <;> rfl

/-- A line with nothing to say is passed over. -/
theorem skipTrivia_line {r e : List Char} (h : IsRemark r) (hEnd : IsLineEnd e) (s : List Char) :
    skipTrivia (r ++ (e ++ s)) = skipTrivia s := by
  cases h with
  | blank blanks => rw [skipTrivia_append blanks, skipTrivia_lineEnd hEnd]
  | comment blanks isComment =>
      rw [List.append_assoc, skipTrivia_append blanks, List.cons_append, skipTrivia_hash,
        skipComment_append isComment, skipComment_lineEnd hEnd]

/-- A remark at the end of a document is skipped. -/
theorem skipTrivia_remark {r : List Char} (h : IsRemark r) : skipTrivia r = some [] := by
  cases h with
  | blank blanks =>
      rw [← List.append_nil r, skipTrivia_append blanks, skipTrivia.eq_def]
  | comment blanks isComment =>
      have hText := skipComment_append isComment []
      rw [List.append_nil] at hText
      rw [skipTrivia_append blanks, skipTrivia_hash, hText, skipComment.eq_def]

/-- What stands behind a value begins with none of the characters that could go on with it. -/
def Parts (rest : List Char) : Prop := ∀ c ∈ rest.head?, endsScalar c = true ∧ c ≠ '"'

theorem forall_head_append {P : Char → Prop} {w rest : List Char} (hw : ∀ c ∈ w, P c)
    (hRest : ∀ c ∈ rest.head?, P c) : ∀ c ∈ (w ++ rest).head?, P c := by
  cases w with
  | nil => exact hRest
  | cons d w => exact fun c hc => hw c (by cases hc; exact List.mem_cons_self)

theorem forall_blanks {P : Char → Prop} (hSpace : P ' ') (hTab : P '\t') {w : List Char}
    (h : Blanks w) : ∀ c ∈ w, P c := by
  intro c hc
  have hBlank := h c hc
  simp only [isBlank, Bool.or_eq_true, beq_iff_eq] at hBlank
  rcases hBlank with rfl | rfl
  · exact hSpace
  · exact hTab

/-- A remark begins with space or with the mark of comments, unless it is empty. -/
theorem IsRemark.forall_head {P : Char → Prop} (hSpace : P ' ') (hTab : P '\t') (hHash : P '#')
    {r rest : List Char} (h : IsRemark r) (hRest : ∀ c ∈ rest.head?, P c) :
    ∀ c ∈ (r ++ rest).head?, P c := by
  cases h with
  | blank blanks => exact forall_head_append (forall_blanks hSpace hTab blanks) hRest
  | comment blanks isComment =>
      rw [List.append_assoc]
      refine forall_head_append (forall_blanks hSpace hTab blanks) fun c hc => ?_
      cases hc
      exact hHash

/-- A remark parts a value from what comes behind it. -/
theorem IsRemark.parts {r : List Char} (h : IsRemark r) {rest : List Char} (hRest : Parts rest) :
    Parts (r ++ rest) :=
  h.forall_head (by decide) (by decide) (by decide) hRest

/-! ### Strings and keys -/

theorem WritesLetter.length_pos {t : List Char} {c : Char} (h : WritesLetter t c) : 1 ≤ t.length := by
  cases h <;> simp

theorem WritesLetter.ne_quote {t : List Char} {c : Char} (h : WritesLetter t c) :
    t.head? ≠ some '"' := by
  cases h with
  | plain _ notQuote => simpa using notQuote
  | short => simp
  | code => simp

/-- An escape is read to its end. -/
theorem escape_code {mark c : Char} {digits : List Char}
    (h : (mark, digits.length) ∈ [('x', 2), ('u', 4), ('U', 8)]) (hCode : codePoint digits = some c)
    (s : List Char) : escape (mark :: (digits ++ s)) = some (c, s) := by
  simp only [List.mem_cons, Prod.mk.injEq, List.not_mem_nil, or_false] at h
  rcases h with ⟨rfl, hLength⟩ | ⟨rfl, hLength⟩ | ⟨rfl, hLength⟩
  · obtain _ | ⟨a, _ | ⟨b, _ | _⟩⟩ := digits <;> simp at hLength
    simp only [List.cons_append, List.nil_append, escape, hCode, Option.map_some]
  · obtain _ | ⟨a, _ | ⟨b, _ | ⟨c, _ | ⟨d, _ | _⟩⟩⟩⟩ := digits <;> simp at hLength
    simp only [List.cons_append, List.nil_append, escape, hCode, Option.map_some]
  · obtain _ | ⟨a, _ | ⟨b, _ | ⟨c, _ | ⟨d, _ | ⟨e, _ | ⟨f, _ | ⟨g, _ | ⟨h, _ | _⟩⟩⟩⟩⟩⟩⟩⟩ := digits <;>
      simp at hLength
    simp only [List.cons_append, List.nil_append, escape, hCode, Option.map_some]

theorem escape_short {e c : Char} (h : shortEscape e = some c) (s : List Char) :
    escape (e :: s) = some (c, s) := by
  have hMark : e ≠ 'x' ∧ e ≠ 'u' ∧ e ≠ 'U' := by
    refine ⟨?_, ?_, ?_⟩ <;> rintro rfl <;> simp [shortEscape] at h
  obtain ⟨hx, hu, hU⟩ := hMark
  simp [escape, h, hx, hu, hU]

/-- An escape is read as its character. -/
theorem basicBody_escape {s rest : List Char} {c : Char} (h : escape s = some (c, rest)) (bound : Nat) :
    basicBody (bound + 1) ('\\' :: s) =
      (basicBody bound rest).map fun (cs, r) => (c :: cs, r) := by
  rw [basicBody, if_neg (by decide), if_pos rfl, h]
  simp only [Option.bind_eq_bind, Option.bind_some]
  cases basicBody bound rest <;> rfl

/-- Each way to write a character is read as this character. -/
theorem WritesLetter.basicBody_eq {t : List Char} {c : Char} (h : WritesLetter t c) (bound : Nat)
    (s : List Char) : basicBody (bound + 1) (t ++ s) =
      (basicBody bound s).map fun (cs, r) => (c :: cs, r) := by
  cases h with
  | plain text notQuote notEscape =>
      rw [List.singleton_append, basicBody, if_neg notQuote, if_neg notEscape, if_pos text]
  | short escape => exact basicBody_escape (escape_short escape s) bound
  | code marked codes => exact basicBody_escape (escape_code marked codes s) bound

/-- The text of a basic string is read up to its closing quote. -/
theorem WritesLetters.basicBody_eq {t cs : List Char} (h : WritesLetters t cs) {bound : Nat}
    (hBound : t.length < bound) (rest : List Char) :
    basicBody bound (t ++ '"' :: rest) = some (cs, rest) := by
  induction h generalizing bound with
  | nil =>
      obtain ⟨bound, rfl⟩ := Nat.exists_eq_add_of_lt hBound
      simp [basicBody]
  | @cons t u cs c letter letters ih =>
      have hLength := letter.length_pos
      rw [List.length_append] at hBound
      obtain ⟨bound, rfl⟩ : ∃ b, bound = b + 1 := ⟨bound - 1, by omega⟩
      rw [List.append_assoc, letter.basicBody_eq, ih (by omega)]
      rfl

/-- No text of a string begins with a quote, so its opening quote is no triple one. -/
theorem WritesLetters.head_ne {t cs : List Char} (h : WritesLetters t cs) : t.head? ≠ some '"' := by
  cases h with
  | nil => simp
  | @cons t u cs c letter letters =>
      have hPos := letter.length_pos
      have hQuote := letter.ne_quote
      cases t with
      | nil => exact absurd hPos (by decide)
      | cons d t => exact hQuote

/-- What stands behind a key goes on with none of its characters. -/
def PartsKey (rest : List Char) : Prop := ∀ c ∈ rest.head?, isBare c = false

theorem WritesKey.begins {t : List Char} {name : String} (h : WritesKey t name) :
    ∃ c s, t = c :: s ∧ (isBare c = true ∨ c = '"') := by
  cases h with
  | bare present bare =>
      cases hName : name.toList with
      | nil => exact absurd hName present
      | cons c s => exact ⟨c, s, rfl, .inl (bare c (hName ▸ List.mem_cons_self))⟩
  | quoted letters => exact ⟨_, _, rfl, .inr rfl⟩

/-- A key is read as its name, bare or quoted. -/
theorem WritesKey.simpleKey_eq {t : List Char} {name : String} (h : WritesKey t name)
    {rest : List Char} (hRest : PartsKey rest) : simpleKey (t ++ rest) = some (name, rest) := by
  cases h with
  | bare present bare =>
      have hTake : (name.toList ++ rest).takeWhile isBare = name.toList := by
        rw [List.takeWhile_append_of_pos bare]
        cases rest with
        | nil => simp
        | cons c rest => simp [hRest c rfl]
      have hHead : ∀ c ∈ ['"', '\''], (name.toList ++ rest).head? ≠ some c := by
        cases hName : name.toList with
        | nil => exact absurd hName present
        | cons d s =>
            have hd : isBare d = true := bare d (hName ▸ List.mem_cons_self)
            rintro c hc hSame
            cases hSame
            revert hd
            simp only [List.mem_cons, List.not_mem_nil, or_false] at hc
            rcases hc with rfl | rfl <;> decide
      unfold simpleKey
      split
      · rename_i hQuote
        exact absurd (congrArg List.head? hQuote) (hHead _ (by decide))
      · rename_i hQuote
        exact absurd (congrArg List.head? hQuote) (hHead _ (by decide))
      · simp [hTake, present]
  | @quoted t name letters =>
      have hLong : t.length < (t ++ '"' :: rest).length + 1 := by
        rw [List.length_append]
        omega
      have hBody := letters.basicBody_eq hLong rest
      simp only [List.cons_append, List.append_assoc, List.nil_append, simpleKey, hBody,
        Option.map_some, String.ofList_toList]

/-- A key of one part is read up to the sign behind it. -/
theorem WritesKey.key_eq {t w w' : List Char} {name : String} (h : WritesKey t name) (hw : Blanks w)
    (hw' : Blanks w') {sign : Char} (hSign : sign = '=' ∨ sign = ']') (s : List Char) :
    key (w ++ (t ++ (w' ++ sign :: s))) = some (([], name), sign :: s) := by
  have hParts : PartsKey (w' ++ sign :: s) := by
    refine forall_head_append (forall_blanks (by decide) (by decide) hw') ?_
    rcases hSign with rfl | rfl <;> simp [isBare]
  have hSkip : skipBlank (t ++ (w' ++ sign :: s)) = t ++ (w' ++ sign :: s) := by
    obtain ⟨c, s', rfl, hc⟩ := h.begins
    refine skipBlank_of_head ?_ _
    rw [Bool.eq_false_iff]
    intro hBlank
    simp only [isBlank, Bool.or_eq_true, beq_iff_eq] at hBlank
    rcases hBlank with rfl | rfl <;> simp [isBare] at hc
  have hBehind : skipBlank (w' ++ sign :: s) = sign :: s := by
    rw [skipBlank_append hw']
    rcases hSign with rfl | rfl <;> exact skipBlank_of_head (by decide) s
  have hDotted (bound : Nat) : dottedKey (bound + 1) (w ++ (t ++ (w' ++ sign :: s))) =
      some (([], name), sign :: s) := by
    rw [dottedKey, skipBlank_append hw, hSkip, h.simpleKey_eq hParts]
    simp only [Option.bind_eq_bind, Option.bind_some, hBehind]
    rcases hSign with rfl | rfl <;> rfl
  rw [key, hDotted]
  rfl

/-! ### Values -/

theorem digit?_of_isDigit {c : Char} (h : c.isDigit = true) :
    digit? 10 c = some (c.toNat - '0'.toNat) := by
  have hRange := Json.toNat_of_isDigit h
  have hBounds : '0' ≤ c ∧ c ≤ '9' := by
    simpa [Char.isDigit, Char.le_def] using h
  simp only [digit?, hBounds, and_self, if_true]
  rw [if_pos]
  simp
  omega

theorem digitRun_digits {ds : List Char} (h : ∀ c ∈ ds, c.isDigit = true) (n : Nat) :
    digitRun 10 n true ds = some (Nat.ofDigitChars 10 ds n) := by
  induction ds generalizing n with
  | nil => rfl
  | cons c ds ih =>
      obtain ⟨hc, hDigits⟩ := List.forall_mem_cons.mp h
      have hScore : c ≠ '_' := by
        rintro rfl
        exact absurd hc (by decide)
      rw [digitRun, if_neg hScore, digit?_of_isDigit hc, Nat.ofDigitChars_cons, Nat.mul_comm 10 n]
      exact ih hDigits _

/-- Decimal digits are read back. -/
theorem plainDecimal_toDigits (n : Nat) : plainDecimal (Nat.toDigits 10 n) = some n := by
  have hAll := Json.isDigit_toDigits n
  have hValue : Nat.ofDigitChars 10 (Nat.toDigits 10 n) 0 = n := Nat.ofDigitChars_ten_toDigits
  obtain ⟨c, ds, hDigits, hc, hZero⟩ := Json.toDigits_eq_cons n
  rw [hDigits] at hAll hValue ⊢
  have hScore : c ≠ '_' := by
    rintro rfl
    exact absurd hc (by decide)
  have hRun : digitRun 10 0 false (c :: ds) = some n := by
    rw [digitRun, if_neg hScore, digit?_of_isDigit hc, ← hValue, Nat.ofDigitChars_cons]
    exact digitRun_digits (List.forall_mem_cons.mp hAll).2 _
  unfold plainDecimal
  split
  · rename_i hMore
    cases hMore
    exact absurd (hZero rfl) (by simp)
  · exact hRun

theorem integer?_toDigits (n : Nat) : integer? (Nat.toDigits 10 n) = some (n : Int) := by
  have hPlain := plainDecimal_toDigits n
  obtain ⟨c, ds, hDigits, hc, hZero⟩ := Json.toDigits_eq_cons n
  rw [hDigits] at hPlain ⊢
  unfold integer?
  split
  · rename_i hMark; cases hMark; exact absurd (hZero rfl) (by simp)
  · rename_i hMark; cases hMark; exact absurd (hZero rfl) (by simp)
  · rename_i hMark; cases hMark; exact absurd (hZero rfl) (by simp)
  · rename_i hSign; cases hSign; exact absurd hc (by decide)
  · rename_i hSign; cases hSign; exact absurd hc (by decide)
  · rw [hPlain]; rfl

/-- Behind digits and nothing else there is nothing left. -/
theorem fixedDigits_digits {ds : List Char} (h : ∀ c ∈ ds, c.isDigit = true) (count : Nat) :
    fixedDigits count ds = none ∨ ∃ n, fixedDigits count ds = some (n, []) := by
  have hTake : ds.takeWhile Char.isDigit = ds := List.takeWhile_eq_self_iff.mpr h
  unfold fixedDigits
  rw [hTake]
  dsimp only
  split
  · rename_i hCount
    subst hCount
    rw [List.drop_length]
    cases digitRun 10 0 false ds with
    | none => exact .inl rfl
    | some n => exact .inr ⟨n, rfl⟩
  · exact .inl rfl

/-- Digits alone are no date. -/
theorem date?_digits {ds : List Char} (h : ∀ c ∈ ds, c.isDigit = true) : date? ds = none := by
  unfold date?
  rcases fixedDigits_digits h 4 with hNone | ⟨n, hSome⟩
  · rw [hNone]; rfl
  · rw [hSome]; rfl

theorem time?_digits {ds : List Char} (h : ∀ c ∈ ds, c.isDigit = true) : time? ds = none := by
  unfold time?
  rcases fixedDigits_digits h 2 with hNone | ⟨n, hSome⟩
  · rw [hNone]; rfl
  · rw [hSome]; rfl

/-- A number in decimal digits is an integer, and neither a date nor a time. -/
theorem scalar?_toDigits (n : Nat) : scalar? (Nat.toDigits 10 n) = some (.integer n) := by
  have hWord {w : List Char} (hw : ∃ c ∈ w, c.isDigit = false) : Nat.toDigits 10 n ≠ w := by
    rintro rfl
    obtain ⟨c, hc, hOther⟩ := hw
    rw [Json.isDigit_toDigits n c hc] at hOther
    cases hOther
  have hTime : isDatetime (Nat.toDigits 10 n) = false := by
    rw [isDatetime, date?_digits (Json.isDigit_toDigits n), time?_digits (Json.isDigit_toDigits n)]
    rfl
  rw [scalar?, if_neg (hWord ⟨'t', by decide +kernel, by decide⟩),
    if_neg (hWord ⟨'f', by decide +kernel, by decide⟩), hTime, integer?_toDigits]
  rfl

/-- What is no string, array or table is read as far as a value without quotes can go. -/
theorem unquoted_append {t rest : List Char} {v : Toml} (h : ∀ c ∈ t, endsScalar c = false)
    (hDate : date? t = none) (hValue : scalar? t = some v) (hRest : Parts rest) :
    unquoted (t ++ rest) = some (v, rest) := by
  have hTake : (t ++ rest).takeWhile (!endsScalar ·) = t := by
    rw [List.takeWhile_append_of_pos (by simpa using h)]
    cases rest with
    | nil => simp
    | cons c rest => simp [(hRest c rfl).1]
  rw [unquoted, hTake]
  simp [hDate, hValue]

theorem value_of_head {c : Char} (h : c ∉ ['"', '\'', '[', '\x7b']) (depth : Nat) (s : List Char) :
    value depth (c :: s) = unquoted (c :: s) := by
  simp only [List.mem_cons, List.not_mem_nil, or_false, not_or] at h
  obtain ⟨hQuote, hApostrophe, hBracket, hBrace⟩ := h
  unfold value
  split
  · rename_i hSame; cases hSame; exact absurd rfl hQuote
  · rename_i hSame; cases hSame; exact absurd rfl hApostrophe
  · rename_i hSame; cases hSame; exact absurd rfl hBracket
  · rename_i hSame; cases hSame; exact absurd rfl hBrace
  · rfl

theorem endsScalar_of_isDigit {c : Char} (h : c.isDigit = true) : endsScalar c = false := by
  rw [Bool.eq_false_iff]
  intro hEnds
  simp only [endsScalar, Bool.or_eq_true, beq_iff_eq] at hEnds
  rcases hEnds with (((((((((((rfl | rfl) | rfl) | rfl) | rfl) | rfl) | rfl) | rfl) | rfl) | rfl) |
    rfl) | rfl) | rfl <;> exact absurd h (by decide)

theorem triple?_of_ne {q c : Char} (h : c ≠ q) (s : List Char) : triple? q (c :: s) = none := by
  match s with
  | [] => rfl
  | [_] => rfl
  | _ :: _ :: _ => simp [triple?, h]

/-- Three quotes would begin another kind of string. -/
theorem quotedString_letters {t : List Char} {s : String} (h : WritesLetters t s.toList)
    {rest : List Char} (hRest : Parts rest) :
    quotedString ('"' :: (t ++ '"' :: rest)) = some (s, rest) := by
  have hTriple : triple? '"' ('"' :: (t ++ '"' :: rest)) = none := by
    cases hText : t with
    | nil =>
        cases rest with
        | nil => rfl
        | cons c rest =>
            have hc : c ≠ '"' := (hRest c rfl).2
            simp [triple?, hc]
    | cons c t' =>
        have hc : c ≠ '"' := by
          have hHead := h.head_ne
          rw [hText] at hHead
          simpa using hHead
        cases t' <;> simp [triple?, hc]
  have hOther : triple? '\'' ('"' :: (t ++ '"' :: rest)) = none := triple?_of_ne (by decide) _
  have hLong : t.length < (t ++ '"' :: rest).length + 1 := by
    rw [List.length_append]
    omega
  have hBody := h.basicBody_eq hLong rest
  rw [quotedString, hTriple, hOther]
  simp only [hBody, Option.map_some, String.ofList_toList]

/-- A text that writes a value is read as it, whatever parts it from what follows. -/
theorem WritesValue.value_eq {t : List Char} {v : Toml} (h : WritesValue t v) {rest : List Char}
    (hRest : Parts rest) : value maxDepth (t ++ rest) = some (v, rest) := by
  -- What begins with no mark of its own is read up to a character that ends it.
  have hWord {c : Char} {w : List Char} {v : Toml} (hHead : c ∉ ['"', '\'', '[', '\x7b'])
      (hw : ∀ d ∈ c :: w, endsScalar d = false) (hDate : date? (c :: w) = none)
      (hValue : scalar? (c :: w) = some v) : value maxDepth (c :: w ++ rest) = some (v, rest) := by
    rw [List.cons_append, value_of_head hHead]
    exact unquoted_append hw hDate hValue hRest
  cases h with
  | string letters =>
      rw [List.cons_append, List.append_assoc, value, List.singleton_append,
        quotedString_letters letters hRest]
      rfl
  | count n =>
      have hAll := Json.isDigit_toDigits n
      have hDate := date?_digits hAll
      have hValue := scalar?_toDigits n
      obtain ⟨c, ds, hDigits, hc, -⟩ := Json.toDigits_eq_cons n
      rw [hDigits] at hAll hDate hValue ⊢
      have hHead : c ∉ ['"', '\'', '[', '\x7b'] := by
        intro hMark
        simp only [List.mem_cons, List.not_mem_nil, or_false] at hMark
        rcases hMark with rfl | rfl | rfl | rfl <;> exact absurd hc (by decide)
      exact hWord hHead (fun d hd => endsScalar_of_isDigit (hAll d hd)) hDate hValue
  | yes =>
      refine hWord (by decide) ?_ rfl rfl
      simp only [List.forall_mem_cons]
      exact ⟨rfl, rfl, rfl, rfl, List.forall_mem_nil _⟩
  | no =>
      refine hWord (by decide) ?_ rfl rfl
      simp only [List.forall_mem_cons]
      exact ⟨rfl, rfl, rfl, rfl, rfl, List.forall_mem_nil _⟩
  | @nothing w blanks =>
      have hSkip : skipTrivia (w ++ ']' :: rest) = some (']' :: rest) := by
        rw [skipTrivia_append blanks, skipTrivia.eq_def]
        rfl
      have hBody (item : Reader Toml) (bound : Nat) :
          arrayBody item (bound + 1) (w ++ ']' :: rest) = some ([], rest) := by
        rw [arrayBody, hSkip]
        rfl
      rw [maxDepth, List.cons_append, List.append_assoc, List.singleton_append, value, hBody]
      rfl

end LintRepair.Toml
