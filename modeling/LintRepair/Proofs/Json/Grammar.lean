import LintRepair.Proofs.Json.Numbers

/-! What a JSON text is, as its grammar has it: which texts write a value, with spacing wherever it is
allowed, any of the spellings of a string, and members in any order. Strings and numerals are read as
this value exactly where such a text stands. -/

namespace LintRepair.Json

open Decimal (Binary64)

/-! ### The grammar -/

/-- White space between tokens, as much as one likes. -/
def Spacing (w : List Char) : Prop := ∀ c ∈ w, isSpace c = true

/-- A character of a string as it is, by one letter, by its number or by a pair of surrogates. -/
inductive WritesLetter : List Char → Char → Prop where
  | plain {c : Char} (isPlain : IsPlain c) : WritesLetter [c] c
  | short {e c : Char} (escape : shortEscape e = some c) : WritesLetter ['\\', e] c
  | quad {a b c d : Char} {n : Nat} (digits : hexQuad a b c d = some n)
      (notTrailing : isTrailing n = false) (notLeading : isLeading n = false) :
      WritesLetter ['\\', 'u', a, b, c, d] (Char.ofNat n)
  | pair {a b c d a' b' c' d' : Char} {n m : Nat} (digits : hexQuad a b c d = some n)
      (notTrailing : isTrailing n = false) (leading : isLeading n = true)
      (more : hexQuad a' b' c' d' = some m) (trailing : isTrailing m = true) :
      WritesLetter ['\\', 'u', a, b, c, d, '\\', 'u', a', b', c', d'] (Char.ofNat (pairValue n m))

/-- The characters of a string one after another. -/
inductive WritesLetters : List Char → List Char → Prop where
  | nil : WritesLetters [] []
  | cons {t u cs : List Char} {c : Char} (letter : WritesLetter t c) (letters : WritesLetters u cs) :
      WritesLetters (t ++ u) (c :: cs)

/-- A string in its quotes. -/
inductive WritesString : List Char → String → Prop where
  | quoted {t : List Char} {s : String} (letters : WritesLetters t s.toList) :
      WritesString ('"' :: (t ++ ['"'])) s

/-- Digits, one at least. -/
def IsDigits (ds : List Char) : Prop := ds ≠ [] ∧ ∀ c ∈ ds, c.isDigit = true

/-- The digits before the point; a zero in front stands alone. -/
def IsWhole (ds : List Char) : Prop := IsDigits ds ∧ ∀ more, ds = '0' :: more → more = []

/-- The exponent of a numeral, if it has one, with its sign. -/
inductive WritesExponent : List Char → Option (Bool × List Char) → Prop where
  | none : WritesExponent [] none
  | plain {letter : Char} {ds : List Char} (isLetter : letter = 'e' ∨ letter = 'E')
      (digits : IsDigits ds) : WritesExponent (letter :: ds) (some (true, ds))
  | plus {letter : Char} {ds : List Char} (isLetter : letter = 'e' ∨ letter = 'E')
      (digits : IsDigits ds) : WritesExponent (letter :: '+' :: ds) (some (true, ds))
  | minus {letter : Char} {ds : List Char} (isLetter : letter = 'e' ∨ letter = 'E')
      (digits : IsDigits ds) : WritesExponent (letter :: '-' :: ds) (some (false, ds))

/-- A number without its sign. -/
inductive WritesNumeral : List Char → Numeral → Prop where
  | plain {ds t : List Char} {e : Option (Bool × List Char)} (whole : IsWhole ds)
      (exponent : WritesExponent t e) : WritesNumeral (ds ++ t) ⟨ds, [], false, e⟩
  | pointed {ds fs t : List Char} {e : Option (Bool × List Char)} (whole : IsWhole ds)
      (fraction : IsDigits fs) (exponent : WritesExponent t e) :
      WritesNumeral (ds ++ '.' :: (fs ++ t)) ⟨ds, fs, true, e⟩

def sign (negative : Bool) : List Char := if negative then ['-'] else []

/-- A value that is not composed of others. Whole numbers of 64 bits are written in decimal digits;
every other number that a double can hold stands for a double. -/
inductive WritesScalar : List Char → Json → Prop where
  | null : WritesScalar ['n', 'u', 'l', 'l'] .null
  | yes : WritesScalar ['t', 'r', 'u', 'e'] (.bool true)
  | no : WritesScalar ['f', 'a', 'l', 's', 'e'] (.bool false)
  | string {t : List Char} {s : String} (writes : WritesString t s) : WritesScalar t (.string s)
  | whole {i : Int} (word : IsWord i) : WritesScalar (integer i) (.int i)
  | float {t : List Char} {n : Numeral} {negative : Bool} {x : Binary64} (numeral : WritesNumeral t n)
      (value : n.value negative [] = .ok (.float negative x)) :
      WritesScalar (sign negative ++ t) (.float negative x)

/-- Things one after another with a comma between two of them and spacing around each; nothing but
spacing if there are none. -/
inductive WritesList {α : Type} (Writes : List Char → α → Prop) : List Char → List α → Prop where
  | none {w : List Char} (spacing : Spacing w) : WritesList Writes w []
  | last {before t after : List Char} {a : α} (front : Spacing before) (writes : Writes t a)
      (back : Spacing after) : WritesList Writes (before ++ (t ++ after)) [a]
  | more {before t after u : List Char} {a : α} {as : List α} (front : Spacing before)
      (writes : Writes t a) (back : Spacing after) (some : as ≠ []) (rest : WritesList Writes u as) :
      WritesList Writes (before ++ (t ++ (after ++ ',' :: u))) (a :: as)

/-- A name, a colon and a value. -/
inductive WritesMember (Writes : List Char → Json → Prop) : List Char → String × Json → Prop where
  | named {t gap space u : List Char} {name : String} {v : Json} (quoted : WritesString t name)
      (behind : Spacing gap) (before : Spacing space) (writes : Writes u v) :
      WritesMember Writes (t ++ (gap ++ ':' :: (space ++ u))) (name, v)

/-- A value whose parts, if it has any, are written in some way. -/
inductive WritesAbove (Writes : List Char → Json → Prop) : List Char → Json → Prop where
  | scalar {t : List Char} {v : Json} (writes : WritesScalar t v) : WritesAbove Writes t v
  | array {t : List Char} {items : List Json} (writes : WritesList Writes t items) :
      WritesAbove Writes ('[' :: (t ++ [']'])) (.array items)
  | object {t : List Char} {members : List (String × Json)}
      (writes : WritesList (WritesMember Writes) t members) :
      WritesAbove Writes ('\x7b' :: (t ++ ['\x7d'])) (.object members)

/-- A text that writes a value, nested at most so deep, with no spacing around it. -/
def Writes : Nat → List Char → Json → Prop
  | 0 => WritesScalar
  | depth + 1 => WritesAbove (Writes depth)

/-- A JSON text: one value with spacing around it. -/
inductive WritesText : List Char → Json → Prop where
  | text {before t after : List Char} {v : Json} (front : Spacing before) (writes : Writes maxDepth t v)
      (back : Spacing after) : WritesText (before ++ (t ++ after)) v

/-! ### Strings -/

theorem stringBody_pair {a b c d a' b' c' d' : Char} {n m : Nat} (h : hexQuad a b c d = some n)
    (hTrailing : isTrailing n = false) (hLeading : isLeading n = true)
    (hMore : hexQuad a' b' c' d' = some m) (hPair : isTrailing m = true) (rest : List Char) :
    stringBody .read ('\\' :: 'u' :: a :: b :: c :: d :: '\\' :: 'u' :: a' :: b' :: c' :: d' :: rest) =
      (stringBody .read rest).map fun (cs, r) => (Char.ofNat (pairValue n m) :: cs, r) := by
  rw [stringBody.eq_def]
  simp [h, hTrailing, hLeading, hMore, hPair]

/-- Each way to write a character is read as this character. -/
theorem WritesLetter.stringBody_eq {t : List Char} {c : Char} (h : WritesLetter t c)
    (rest : List Char) :
    stringBody .read (t ++ rest) = (stringBody .read rest).map fun (cs, r) => (c :: cs, r) := by
  cases h with
  | plain isPlain => exact stringBody_of_isPlain isPlain .read rest
  | short escape => exact stringBody_short escape .read rest
  | quad digits notTrailing notLeading => exact stringBody_quad digits notTrailing notLeading rest
  | pair digits notTrailing leading more trailing =>
      exact stringBody_pair digits notTrailing leading more trailing rest

/-- The text of a string is read up to its closing quote. -/
theorem WritesLetters.stringBody_eq {t cs : List Char} (h : WritesLetters t cs) (rest : List Char) :
    stringBody .read (t ++ '"' :: rest) = .ok (cs, rest) := by
  induction h with
  | nil => exact stringBody_quote .read rest
  | cons letter letters ih =>
      rw [List.append_assoc, letter.stringBody_eq, ih]
      rfl

/-- Whatever is read as a string was written as one. -/
theorem Quoted.writes {s cs rest : List Char} (h : Quoted s cs rest) :
    ∃ t, WritesLetters t cs ∧ s = t ++ '"' :: rest := by
  induction h with
  | close => exact ⟨[], .nil, rfl⟩
  | plain isPlain _ ih =>
      obtain ⟨t, hLetters, rfl⟩ := ih
      exact ⟨_, .cons (.plain isPlain) hLetters, rfl⟩
  | short escape _ ih =>
      obtain ⟨t, hLetters, rfl⟩ := ih
      exact ⟨_, .cons (.short escape) hLetters, rfl⟩
  | quad digits notTrailing notLeading _ ih =>
      obtain ⟨t, hLetters, rfl⟩ := ih
      exact ⟨_, .cons (.quad digits notTrailing notLeading) hLetters, rfl⟩
  | pair digits notTrailing leading more trailing _ ih =>
      obtain ⟨t, hLetters, rfl⟩ := ih
      exact ⟨_, .cons (.pair digits notTrailing leading more trailing) hLetters, rfl⟩

/-- What is read as a string was written as one. -/
theorem writesString_of_stringBody {t cs rest : List Char} (h : stringBody .read t = .ok (cs, rest)) :
    ∃ u, WritesString u (String.ofList cs) ∧ '"' :: t = u ++ rest := by
  obtain ⟨u, hLetters, rfl⟩ := (stringBody_quoted h).writes
  refine ⟨_, .quoted (t := u) ?_, by simp⟩
  rw [String.toList_ofList]
  exact hLetters

/-! ### Numbers -/

theorem isDigits_takeWhile {s : List Char} (h : (s.takeWhile Char.isDigit).isEmpty = false) :
    IsDigits (s.takeWhile Char.isDigit) :=
  ⟨by simpa using h, fun _ hc => List.all_eq_true.mp List.all_takeWhile _ hc⟩

theorem takeWhile_append_drop (s : List Char) :
    s.takeWhile Char.isDigit ++ s.drop (s.takeWhile Char.isDigit).length = s :=
  List.prefix_iff_eq_append.mp (List.takeWhile_prefix _)

theorem WritesExponent.exponentPart_eq {t rest : List Char} {e : Option (Bool × List Char)}
    (h : WritesExponent t e) (hRest : EndsNumber rest) :
    exponentPart .read (t ++ rest) = .ok (e, rest) := by
  have hNotDigit : ∀ c ∈ rest.head?, c.isDigit = false := fun c hc => (hRest c hc).1
  cases h with
  | none => exact exponentPart_of_endsNumber .read hRest
  | plain isLetter digits =>
      obtain ⟨d, ds, rfl⟩ := List.exists_cons_of_ne_nil digits.1
      have hd := digits.2 d List.mem_cons_self
      have hPlus : d ≠ '+' := by rintro rfl; exact absurd hd (by decide)
      have hMinus : d ≠ '-' := by rintro rfl; exact absurd hd (by decide)
      have hTake := takeWhile_isDigit_append digits.2 hNotDigit
      rw [List.cons_append] at hTake
      simp [exponentPart, isLetter, hPlus, hMinus, hTake]
  | plus isLetter digits =>
      have hTake := takeWhile_isDigit_append digits.2 hNotDigit
      simp [exponentPart, isLetter, hTake, digits.1]
  | minus isLetter digits =>
      have hTake := takeWhile_isDigit_append digits.2 hNotDigit
      simp [exponentPart, isLetter, hTake, digits.1]

theorem writes_of_exponentPart {s rest : List Char} {e : Option (Bool × List Char)}
    (h : exponentPart .read s = .ok (e, rest)) : ∃ t, WritesExponent t e ∧ s = t ++ rest := by
  cases s with
  | nil =>
      cases h
      exact ⟨[], .none, rfl⟩
  | cons c s =>
      simp only [exponentPart] at h
      split at h
      · rename_i hLetter
        split at h <;> dsimp only at h <;> split at h
        · exact absurd h (missingDigit_ne_ok _ _ _)
        · rename_i t hDigits
          cases h
          have hSplit := takeWhile_append_drop t
          exact ⟨_, .plus hLetter (isDigits_takeWhile (by simpa using hDigits)), by simp [hSplit]⟩
        · exact absurd h (missingDigit_ne_ok _ _ _)
        · rename_i t hDigits
          cases h
          have hSplit := takeWhile_append_drop t
          exact ⟨_, .minus hLetter (isDigits_takeWhile (by simpa using hDigits)), by simp [hSplit]⟩
        · exact absurd h (missingDigit_ne_ok _ _ _)
        · rename_i hDigits
          cases h
          have hSplit := takeWhile_append_drop s
          exact ⟨_, .plain hLetter (isDigits_takeWhile (by simpa using hDigits)), by simp [hSplit]⟩
      · cases h
        exact ⟨[], .none, rfl⟩

/-- What an exponent opens with is neither a digit nor a point. -/
theorem WritesExponent.head {t rest : List Char} {e : Option (Bool × List Char)}
    (h : WritesExponent t e) (hRest : EndsNumber rest) :
    ∀ c ∈ (t ++ rest).head?, c.isDigit = false ∧ c ≠ '.' := by
  intro c hc
  cases h with
  | none => exact ⟨(hRest c hc).1, (hRest c hc).2.1⟩
  | plain isLetter | plus isLetter | minus isLetter =>
      obtain rfl := Option.some.inj hc
      rcases isLetter with rfl | rfl <;> decide

theorem IsWhole.not_leading {ds : List Char} (h : IsWhole ds) (c : Char) (more : List Char) :
    ds ≠ '0' :: c :: more := by
  intro hSame
  cases h.2 _ hSame

/-- A numeral is read as it was written, up to where a number ends. -/
theorem WritesNumeral.numeral_eq {t rest : List Char} {n : Numeral} (h : WritesNumeral t n)
    (hRest : EndsNumber rest) : numeral .read (t ++ rest) = .ok (n, rest) := by
  cases h with
  | @plain ds t e whole exponent =>
      have hHead := exponent.head hRest
      have hWhole := takeWhile_isDigit_append whole.1.2 fun c hc => (hHead c hc).1
      rw [List.append_assoc]
      unfold numeral
      dsimp only
      rw [hWhole, List.drop_left]
      split
      · exact absurd rfl whole.1.1
      · exact absurd rfl (whole.not_leading _ _)
      · split
        · rename_i u hPoint
          rw [hPoint] at hHead
          exact absurd rfl (hHead '.' rfl).2
        · rw [exponent.exponentPart_eq hRest]
          rfl
  | @pointed ds fs t e whole fraction exponent =>
      have hHead := exponent.head hRest
      have hWhole : (ds ++ '.' :: (fs ++ (t ++ rest))).takeWhile Char.isDigit = ds :=
        takeWhile_isDigit_append whole.1.2 (by rintro c ⟨⟩; decide)
      have hFraction := takeWhile_isDigit_append fraction.2 fun c hc => (hHead c hc).1
      have hSome : fs.isEmpty = false := by simpa using fraction.1
      simp only [List.append_assoc, List.cons_append]
      unfold numeral
      dsimp only
      rw [hWhole, List.drop_left]
      split
      · exact absurd rfl whole.1.1
      · exact absurd rfl (whole.not_leading _ _)
      · simp only [hFraction, List.drop_left, hSome, exponent.exponentPart_eq hRest]
        rfl

/-- What is read as a numeral was written as one. -/
theorem writes_of_numeral {s rest : List Char} {n : Numeral} (h : numeral .read s = .ok (n, rest)) :
    ∃ t, WritesNumeral t n ∧ s = t ++ rest := by
  have hSplit := takeWhile_append_drop s
  unfold numeral at h
  dsimp only at h
  split at h
  · exact absurd h (missingDigit_ne_ok _ _ _)
  · cases h
  · rename_i hSome hLeading
    have hWhole : IsWhole (s.takeWhile Char.isDigit) := by
      refine ⟨isDigits_takeWhile (by simpa using hSome), fun more hMore => ?_⟩
      cases more with
      | nil => rfl
      | cons c more => exact absurd hMore (hLeading c more)
    split at h
    · rename_i t hPoint
      split at h
      · exact absurd h (missingDigit_ne_ok _ _ _)
      · rename_i hFraction
        obtain ⟨⟨e, r⟩, hExponent, h⟩ := bind_eq_ok h
        obtain ⟨u, hWrites, hRest⟩ := writes_of_exponentPart hExponent
        cases h
        have hAfter := takeWhile_append_drop t
        refine ⟨_, .pointed hWhole (isDigits_takeWhile (by simpa using hFraction)) hWrites, ?_⟩
        rw [hRest] at hAfter
        rw [hPoint] at hSplit
        simp only [List.append_assoc, List.cons_append]
        rw [hAfter, hSplit]
    · obtain ⟨⟨e, r⟩, hExponent, h⟩ := bind_eq_ok h
      obtain ⟨u, hWrites, hRest⟩ := writes_of_exponentPart hExponent
      cases h
      refine ⟨_, .plain hWhole hWrites, ?_⟩
      rw [List.append_assoc, ← hRest, hSplit]

/-- What comes behind a number makes no difference to its value. -/
theorem Numeral.toOption_value (negative : Bool) (n : Numeral) (rest other : List Char) :
    (n.value negative rest).toOption = (n.value negative other).toOption := by
  unfold Numeral.value
  dsimp only
  repeat' split
  all_goals rfl

end LintRepair.Json
