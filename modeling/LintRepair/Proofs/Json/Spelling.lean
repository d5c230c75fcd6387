import LintRepair.Proofs.Json.Quoted

/-! What the reader of values accepts, said once. Where a value was read its spelling is known case by
case, and with it how it opens and how much text it takes. -/

namespace LintRepair.Json

/-! ### Tokens -/

theorem skipSpace_skipSpace (s : List Char) : skipSpace (skipSpace s) = skipSpace s := by
  induction s with
  | nil => rfl
  | cons c s ih =>
      cases hSpace : isSpace c with
      | true =>
          have hDrop : skipSpace (c :: s) = skipSpace s := List.dropWhile_cons_of_pos hSpace
          rw [hDrop, ih]
      | false => rw [skipSpace_of_head hSpace, skipSpace_of_head hSpace]

theorem length_skipSpace_le (s : List Char) : (skipSpace s).length ≤ s.length :=
  (List.dropWhile_suffix _).length_le

/-- A character that is next is part of the text, so that every step of a reader makes progress. -/
theorem length_lt_of_skipSpace {s t : List Char} {c : Char} (h : skipSpace s = c :: t) :
    t.length < s.length := by
  have hLength := length_skipSpace_le s
  rw [h] at hLength
  exact hLength

theorem word_eq_ok {expected s rest : List Char} (h : word expected s = .ok ((), rest)) :
    s = expected ++ rest := by
  induction expected generalizing s with
  | nil => cases h; rfl
  | cons c expected ih =>
      cases s with
      | nil => cases h
      | cons d s =>
          rw [word] at h
          split at h
          · rename_i hSame
            rw [hSame, ih h]
            rfl
          · cases h

theorem word_append (expected rest : List Char) : word expected (expected ++ rest) = .ok ((), rest) := by
  induction expected with
  | nil => rfl
  | cons c expected ih => rw [List.cons_append, word, if_pos rfl, ih]

theorem colon_eq_ok {s rest : List Char} (h : colon s = .ok ((), rest)) :
    skipSpace s = ':' :: rest := by
  unfold colon at h
  split at h
  · rename_i hColon
    cases h
    exact hColon
  · cases h
  · cases h

theorem colon_of_skipSpace {s rest : List Char} (h : skipSpace s = ':' :: rest) :
    colon s = .ok ((), rest) := by
  simp only [colon, h]

/-! ### Numbers -/

theorem missingDigit_ne_ok {α : Type} (mode : Mode) (s : List Char) (a : α) :
    missingDigit mode s ≠ .ok a := by
  unfold missingDigit
  split <;> exact fun h => by cases h

/-- Digits that are wanted are skipped in the same way. -/
theorem digits_read {α : Type} {s rest : List Char} {f : List Char → α} {a : α}
    (h : (if (s.takeWhile Char.isDigit).isEmpty then missingDigit .read s
      else .ok (f (s.takeWhile Char.isDigit), s.drop (s.takeWhile Char.isDigit).length)) =
        Except.ok (a, rest)) :
    rest.length ≤ s.length ∧
      (if (s.takeWhile Char.isDigit).isEmpty then missingDigit .skip s
        else .ok (f (s.takeWhile Char.isDigit), s.drop (s.takeWhile Char.isDigit).length)) =
          Except.ok (a, rest) := by
  split at h
  · exact absurd h (missingDigit_ne_ok _ _ _)
  · rename_i hDigits
    rw [if_neg hDigits]
    refine ⟨?_, h⟩
    cases h
    rw [List.length_drop]
    exact Nat.sub_le _ _

/-- An exponent that is read is skipped to the same end. -/
theorem exponentPart_read {s rest : List Char} {e : Option (Bool × List Char)}
    (h : exponentPart .read s = .ok (e, rest)) :
    rest.length ≤ s.length ∧ exponentPart .skip s = .ok (e, rest) := by
  cases s with
  | nil =>
      cases h
      exact ⟨Nat.le_refl _, rfl⟩
  | cons c s =>
      simp only [exponentPart] at h ⊢
      split at h
      · rename_i hLetter
        rw [if_pos hLetter]
        split at h
        · obtain ⟨hLength, hSkip⟩ := digits_read (f := fun ds => some (true, ds)) h
          exact ⟨Nat.le_succ_of_le (Nat.le_succ_of_le hLength), hSkip⟩
        · obtain ⟨hLength, hSkip⟩ := digits_read (f := fun ds => some (false, ds)) h
          exact ⟨Nat.le_succ_of_le (Nat.le_succ_of_le hLength), hSkip⟩
        · obtain ⟨hLength, hSkip⟩ := digits_read (f := fun ds => some (true, ds)) h
          exact ⟨Nat.le_succ_of_le hLength, hSkip⟩
      · rename_i hLetter
        rw [if_neg hLetter]
        cases h
        exact ⟨Nat.le_refl _, rfl⟩

/-- A numeral that can be read can be skipped, and has a digit at least. -/
theorem numeral_read {s rest : List Char} {n : Numeral} (h : numeral .read s = .ok (n, rest)) :
    rest.length < s.length ∧ numeral .skip s = .ok (n, rest) := by
  unfold numeral at h ⊢
  dsimp only at h ⊢
  split at h
  · exact absurd h (missingDigit_ne_ok _ _ _)
  · cases h
  · rename_i hSome hNotZero
    have hRest : (s.drop (s.takeWhile Char.isDigit).length).length < s.length := by
      rw [List.length_drop]
      have hWhole := List.length_pos_iff.mpr hSome
      have hAll := (List.takeWhile_prefix (l := s) Char.isDigit).length_le
      omega
    split at h
    · rename_i t hPoint
      split at h
      · exact absurd h (missingDigit_ne_ok _ _ _)
      · rename_i hFraction
        obtain ⟨⟨e, r⟩, hExponent, h⟩ := bind_eq_ok h
        obtain ⟨hLength, hSkip⟩ := exponentPart_read hExponent
        cases h
        rw [hPoint, List.length_cons] at hRest
        rw [List.length_drop] at hLength
        simp only [hFraction, hSkip]
        exact ⟨by omega, rfl⟩
    · obtain ⟨⟨e, r⟩, hExponent, h⟩ := bind_eq_ok h
      obtain ⟨hLength, hSkip⟩ := exponentPart_read hExponent
      cases h
      rw [hSkip]
      exact ⟨Nat.lt_of_le_of_lt hLength hRest, rfl⟩

/-- A number is a numeral. -/
theorem numeral_of_number {negative : Bool} {s rest : List Char} {v : Json}
    (h : number negative s = .ok (v, rest)) : ∃ n, numeral .read s = .ok (n, rest) := by
  obtain ⟨⟨n, r⟩, hNumeral, h⟩ := bind_eq_ok h
  obtain ⟨w, -, h⟩ := bind_eq_ok h
  cases h
  exact ⟨n, hNumeral⟩

/-! ### Values -/

mutual

/-- Nested at most so deep, the next value of a text is this one, and behind it comes
the rest. -/
inductive Spells : Nat → List Char → Json → List Char → Prop where
  | null {depth : Nat} {s rest : List Char} (next : skipSpace s = 'n' :: 'u' :: 'l' :: 'l' :: rest) :
      Spells depth s .null rest
  | yes {depth : Nat} {s rest : List Char} (next : skipSpace s = 't' :: 'r' :: 'u' :: 'e' :: rest) :
      Spells depth s (.bool true) rest
  | no {depth : Nat} {s rest : List Char}
      (next : skipSpace s = 'f' :: 'a' :: 'l' :: 's' :: 'e' :: rest) :
      Spells depth s (.bool false) rest
  | string {depth : Nat} {s t cs rest : List Char} (next : skipSpace s = '"' :: t)
      (quoted : stringBody .read t = .ok (cs, rest)) :
      Spells depth s (.string (String.ofList cs)) rest
  | negative {depth : Nat} {s t rest : List Char} {v : Json} (next : skipSpace s = '-' :: t)
      (isNumber : number true t = .ok (v, rest)) : Spells depth s v rest
  | positive {depth : Nat} {s t rest : List Char} {c : Char} {v : Json} (next : skipSpace s = c :: t)
      (isDigit : c.isDigit = true) (isNumber : number false (c :: t) = .ok (v, rest)) :
      Spells depth s v rest
  | array {depth : Nat} {s t rest : List Char} {items : List Json} (next : skipSpace s = '[' :: t)
      (spells : SpellsItems depth true t items rest) : Spells (depth + 1) s (.array items) rest
  | object {depth : Nat} {s t rest : List Char} {members : List (String × Json)}
      (next : skipSpace s = '\x7b' :: t) (spells : SpellsMembers depth true t members rest) :
      Spells (depth + 1) s (.object members) rest

/-- A list goes on with these items and closes; the first of all has no comma before
it. -/
inductive SpellsItems : Nat → Bool → List Char → List Json → List Char → Prop where
  | close {depth : Nat} {first : Bool} {s rest : List Char} (next : skipSpace s = ']' :: rest) :
      SpellsItems depth first s [] rest
  | first {depth : Nat} {s t rest : List Char} {v : Json} {vs : List Json}
      (item : Spells depth (skipSpace s) v t) (items : SpellsItems depth false t vs rest) :
      SpellsItems depth true s (v :: vs) rest
  | next {depth : Nat} {s t u rest : List Char} {v : Json} {vs : List Json}
      (comma : skipSpace s = ',' :: t) (item : Spells depth (skipSpace t) v u)
      (items : SpellsItems depth false u vs rest) : SpellsItems depth false s (v :: vs) rest

/-- The next member of an object is this one, with its name in quotes before a colon. -/
inductive SpellsMember : Nat → List Char → String × Json → List Char → Prop where
  | member {depth : Nat} {s t cs u x rest : List Char} {v : Json} (next : skipSpace s = '"' :: t)
      (quoted : stringBody .read t = .ok (cs, u)) (colon : skipSpace u = ':' :: x)
      (spells : Spells depth x v rest) : SpellsMember depth s (String.ofList cs, v) rest

/-- A list of members goes on with these and closes. -/
inductive SpellsMembers : Nat → Bool → List Char → List (String × Json) → List Char → Prop where
  | close {depth : Nat} {first : Bool} {s rest : List Char} (next : skipSpace s = '\x7d' :: rest) :
      SpellsMembers depth first s [] rest
  | first {depth : Nat} {s t rest : List Char} {m : String × Json} {more : List (String × Json)}
      (member : SpellsMember depth s m t) (members : SpellsMembers depth false t more rest) :
      SpellsMembers depth true s (m :: more) rest
  | next {depth : Nat} {s t u rest : List Char} {m : String × Json} {more : List (String × Json)}
      (comma : skipSpace s = ',' :: t) (member : SpellsMember depth t m u)
      (members : SpellsMembers depth false u more rest) :
      SpellsMembers depth false s (m :: more) rest

end

/-- Items that were read are spelled by the text, if the reader of an item reads what is spelled. -/
theorem arrayBody_spells {item : Reader Json} {depth : Nat}
    (hItem : ∀ {s v rest}, item s = .ok (v, rest) → Spells depth s v rest) {bound : Nat}
    {first : Bool} {s rest : List Char} {items : List Json}
    (h : arrayBody .read item bound first s = .ok (items, rest)) :
    SpellsItems depth first s items rest := by
  induction bound generalizing first s items with
  | zero => cases h
  | succ bound ih =>
      rw [arrayBody] at h
      split at h
      · cases h
      · rename_i hClose
        cases h
        exact .close hClose
      · rename_i c r hOpen hNext
        split at h
        · rename_i hFirst
          obtain ⟨⟨v, t⟩, hRead, h⟩ := bind_eq_ok h
          obtain ⟨⟨more, u⟩, hMore, h⟩ := bind_eq_ok h
          cases h
          rw [← hNext] at hRead
          rw [hFirst]
          exact .first (hItem hRead) (ih hMore)
        · rename_i hFirst
          split at h
          · rename_i hComma
            subst hComma
            dsimp only at h
            split at h
            · cases h
            · cases h
            · obtain ⟨⟨v, t⟩, hRead, h⟩ := bind_eq_ok h
              obtain ⟨⟨more, u⟩, hMore, h⟩ := bind_eq_ok h
              cases h
              rw [Bool.eq_false_iff.mpr hFirst]
              exact .next hNext (hItem hRead) (ih hMore)
          · cases h

/-- The members of an object are put before the earlier ones as they are read. -/
def addMember (read : Reader Json) (name : List Char) (sofar : List (String × Json)) :
    Reader (List (String × Json)) := fun s => do
  let (_, s) ← colon s
  let (v, s) ← read s
  return ((String.ofList name, v) :: sofar, s)

theorem addMember_spells {read : Reader Json} {depth : Nat}
    (hRead : ∀ {s v rest}, read s = .ok (v, rest) → Spells depth s v rest)
    {sofar next : List (String × Json)} {s t u cs rest : List Char} (hNext : skipSpace s = '"' :: t)
    (hName : stringBody .read t = .ok (cs, u))
    (h : addMember read cs sofar u = .ok (next, rest)) :
    ∃ m, next = m :: sofar ∧ SpellsMember depth s m rest := by
  obtain ⟨⟨⟨⟩, x⟩, hColon, h⟩ := bind_eq_ok h
  obtain ⟨⟨v, y⟩, hValue, h⟩ := bind_eq_ok h
  cases h
  exact ⟨_, rfl, .member hNext hName (colon_eq_ok hColon) (hRead hValue)⟩

/-- Members that were read are spelled by the text, each name once. -/
theorem objectBody_spells {read : Reader Json} {depth : Nat}
    (hRead : ∀ {s v rest}, read s = .ok (v, rest) → Spells depth s v rest) {bound : Nat}
    {first : Bool} {sofar final : List (String × Json)} {s rest : List Char}
    (h : objectBody .read (addMember read) bound first sofar s = .ok (final, rest)) :
    ∃ members, final = members.reverse ++ sofar ∧ SpellsMembers depth first s members rest := by
  induction bound generalizing first sofar s with
  | zero => cases h
  | succ bound ih =>
      rw [objectBody] at h
      split at h
      · cases h
      · rename_i hClose
        cases h
        exact ⟨[], rfl, .close hClose⟩
      · rename_i c r hOpen hNext
        split at h
        · rename_i hFirst
          split at h
          · rename_i hQuote
            subst hQuote
            obtain ⟨⟨name, t⟩, hName, h⟩ := bind_eq_ok h
            obtain ⟨⟨state, x⟩, hMember, h⟩ := bind_eq_ok h
            obtain ⟨m, rfl, hSpells⟩ := addMember_spells hRead hNext hName hMember
            obtain ⟨members, hFinal, hMore⟩ := ih h
            refine ⟨m :: members, by simpa using hFinal, ?_⟩
            rw [hFirst]
            exact .first hSpells hMore
          · cases h
        -- A later member stands behind a comma, and then goes like the first.
        · rename_i hFirst
          split at h
          · rename_i hComma
            subst hComma
            dsimp only at h
            split at h
            · cases h
            · cases h
            · rename_i t hQuote
              obtain ⟨⟨name, t⟩, hName, h⟩ := bind_eq_ok h
              obtain ⟨⟨state, x⟩, hMember, h⟩ := bind_eq_ok h
              obtain ⟨m, rfl, hSpells⟩ := addMember_spells hRead hQuote hName hMember
              obtain ⟨members, hFinal, hMore⟩ := ih h
              refine ⟨m :: members, by simpa using hFinal, ?_⟩
              rw [Bool.eq_false_iff.mpr hFirst]
              exact .next hNext hSpells hMore
            · cases h
            · cases h
          · cases h

/-- Every value that is read is spelled where it was read. -/
theorem value_spells {depth : Nat} {s rest : List Char} {v : Json}
    (h : value .read depth s = .ok (v, rest)) : Spells depth s v rest := by
  induction depth using Nat.strongRecOn generalizing s v rest with
  | ind depth ih =>
      rw [value.eq_def] at h
      dsimp only at h
      -- The reader looks at the next character and takes one of these branches.
      split at h
      · cases h
      · rename_i r hNext
        obtain ⟨⟨⟨⟩, r⟩, hWord, h⟩ := map_eq_ok h
        cases h
        exact .null (hNext.trans (congrArg _ (word_eq_ok hWord)))
      · rename_i r hNext
        obtain ⟨⟨⟨⟩, r⟩, hWord, h⟩ := map_eq_ok h
        cases h
        exact .yes (hNext.trans (congrArg _ (word_eq_ok hWord)))
      · rename_i r hNext
        obtain ⟨⟨⟨⟩, r⟩, hWord, h⟩ := map_eq_ok h
        cases h
        exact .no (hNext.trans (congrArg _ (word_eq_ok hWord)))
      · rename_i r hNext
        obtain ⟨⟨cs, r⟩, hString, h⟩ := map_eq_ok h
        cases h
        exact .string hNext hString
      · rename_i r hNext
        exact .negative hNext h
      · rename_i r hNext
        split at h
        · cases h
        · rename_i depth
          obtain ⟨⟨items, r⟩, hItems, h⟩ := map_eq_ok h
          cases h
          exact .array hNext (arrayBody_spells (ih depth (Nat.lt_succ_self _)) hItems)
      · rename_i r hNext
        split at h
        · cases h
        · rename_i depth
          obtain ⟨⟨members, r⟩, hMembers, h⟩ := map_eq_ok h
          cases h
          obtain ⟨ms, hFinal, hSpells⟩ := objectBody_spells (ih depth (Nat.lt_succ_self _)) hMembers
          rw [hFinal, List.append_nil, List.reverse_reverse]
          exact .object hNext hSpells
      · rename_i c r _ _ _ _ _ _ _ hNext
        split at h
        · rename_i hDigit
          exact .positive hNext hDigit h
        · cases h

/-- No other token opens with a digit. -/
theorem value_of_isDigit (mode : Mode) {limit : Nat} {s t : List Char} {c : Char}
    (hNext : skipSpace s = c :: t) (hDigit : c.isDigit = true) : value mode limit s =
      match mode with
      | .read => number false (c :: t)
      | .skip => (numeral .skip (c :: t)).map fun (_, r) => (.null, r) := by
  rw [value.eq_def]
  dsimp only
  split <;> rename_i hOpen <;> rw [hNext] at hOpen <;> cases hOpen
  case h_9 =>
    refine (if_pos hDigit).trans ?_
    cases mode <;> rfl
  all_goals exact absurd hDigit (by decide)

/-- A text that is parsed spells its value, and only white space is left. -/
theorem parse_spells {text : List Char} {v : Json} (h : parse text = .ok v) :
    ∃ rest, Spells maxDepth text v rest ∧
      skipSpace rest = [] := by
  obtain ⟨⟨w, rest⟩, hValue, hEnd⟩ := bind_eq_ok h
  dsimp only at hEnd
  split at hEnd
  · rename_i hNothing
    cases hEnd
    exact ⟨rest, value_spells hValue, hNothing⟩
  · cases hEnd

mutual

/-- A value takes a character at least. -/
theorem Spells.length_lt {depth : Nat} {s rest : List Char} {v : Json} :
    Spells depth s v rest → rest.length < s.length
  | .null next | .yes next | .no next => by
      have hLength := length_lt_of_skipSpace next
      simp only [List.length_cons] at hLength
      omega
  | .string next quoted =>
      Nat.lt_trans (stringBody_quoted quoted).length_lt (length_lt_of_skipSpace next)
  | .negative next isNumber => by
      obtain ⟨n, hNumeral⟩ := numeral_of_number isNumber
      exact Nat.lt_trans (numeral_read hNumeral).1 (length_lt_of_skipSpace next)
  | .positive next _ isNumber => by
      obtain ⟨n, hNumeral⟩ := numeral_of_number isNumber
      exact Nat.lt_of_lt_of_le (numeral_read hNumeral).1 (length_lt_of_skipSpace next)
  | .array next spells => by
      have hItems := spells.length_lt
      have hNext := length_lt_of_skipSpace next
      omega
  | .object next spells => by
      have hMembers := spells.length_lt
      have hNext := length_lt_of_skipSpace next
      omega

/-- A list takes a character for each item and one to close. -/
theorem SpellsItems.length_lt {depth : Nat} {first : Bool} {s rest : List Char} {items : List Json} :
    SpellsItems depth first s items rest → items.length + rest.length < s.length
  | .close next => by
      have hNext := length_lt_of_skipSpace next
      rw [List.length_nil]
      omega
  | .first item items => by
      have hItem := item.length_lt
      have hItems := items.length_lt
      have hNext := length_skipSpace_le s
      rw [List.length_cons]
      omega
  | .next (t := t) comma item items => by
      have hItem := item.length_lt
      have hItems := items.length_lt
      have hNext := length_lt_of_skipSpace comma
      have hSpace := length_skipSpace_le t
      rw [List.length_cons]
      omega

theorem SpellsMember.length_lt {depth : Nat} {s rest : List Char} {m : String × Json} :
    SpellsMember depth s m rest → rest.length < s.length
  | .member next quoted colon spells => by
      have hNext := length_lt_of_skipSpace next
      have hName := (stringBody_quoted quoted).length_lt
      have hColon := length_lt_of_skipSpace colon
      have hValue := spells.length_lt
      omega

theorem SpellsMembers.length_lt {depth : Nat} {first : Bool} {s rest : List Char}
    {members : List (String × Json)} :
    SpellsMembers depth first s members rest → members.length + rest.length < s.length
  | .close next => by
      have hNext := length_lt_of_skipSpace next
      rw [List.length_nil]
      omega
  | .first member members => by
      have hMember := member.length_lt
      have hMembers := members.length_lt
      rw [List.length_cons]
      omega
  | .next comma member members => by
      have hMember := member.length_lt
      have hMembers := members.length_lt
      have hNext := length_lt_of_skipSpace comma
      rw [List.length_cons]
      omega

end

/-- The characters that can open a value. -/
def opensWith : Json → Char → Bool
  | .null, c => c == 'n'
  | .bool _, c => c == 't' || c == 'f'
  | .int _, c => c == '-' || c.isDigit
  | .float _ _, c => c == '-' || c.isDigit
  | .string _, c => c == '"'
  | .array _, c => c == '['
  | .object _, c => c == '\x7b'

theorem opensWith_of_numeral {negative : Bool} {n : Numeral} {rest : List Char} {v : Json}
    (h : n.value negative rest = .ok v) : ∀ c, v.opensWith c = (c == '-' || c.isDigit) := by
  unfold Numeral.value at h
  dsimp only at h
  -- Every way out is a fault or a number.
  repeat' split at h
  all_goals cases h
  all_goals exact fun _ => rfl

/-- A number opens with a digit or a sign. -/
theorem opensWith_of_number {negative : Bool} {s rest : List Char} {v : Json}
    (h : number negative s = .ok (v, rest)) (c : Char) : v.opensWith c = (c == '-' || c.isDigit) := by
  obtain ⟨⟨n, r⟩, -, h⟩ := bind_eq_ok h
  obtain ⟨w, hValue, h⟩ := bind_eq_ok h
  cases h
  exact opensWith_of_numeral hValue c

/-- A value stands where one of its characters opens a token. -/
theorem Spells.head {depth : Nat} {s rest : List Char} {v : Json} (h : Spells depth s v rest) :
    ∃ c t, skipSpace s = c :: t ∧ v.opensWith c = true := by
  cases h with
  | null next => exact ⟨_, _, next, rfl⟩
  | yes next => exact ⟨_, _, next, rfl⟩
  | no next => exact ⟨_, _, next, rfl⟩
  | string next => exact ⟨_, _, next, rfl⟩
  | negative next isNumber => exact ⟨_, _, next, opensWith_of_number isNumber _⟩
  | positive next isDigit isNumber =>
      refine ⟨_, _, next, ?_⟩
      rw [opensWith_of_number isNumber, isDigit, Bool.or_true]
  | array next => exact ⟨_, _, next, rfl⟩
  | object next => exact ⟨_, _, next, rfl⟩

theorem ne_of_opensWith {v : Json} {c d : Char} (hc : v.opensWith c = true)
    (hd : v.opensWith d = false) : c ≠ d := by
  rintro rfl
  rw [hc] at hd
  cases hd

/-- What closes a list opens no value. -/
theorem opensWith_bracket (v : Json) : v.opensWith ']' = false := by
  cases v <;> rfl

/-- Where an item of a list stands the list does not close. -/
theorem Spells.item_head {depth : Nat} {s rest : List Char} {v : Json}
    (h : Spells depth (skipSpace s) v rest) : ∃ c t, skipSpace s = c :: t ∧ c ≠ ']' := by
  obtain ⟨c, t, hNext, hOpens⟩ := h.head
  rw [skipSpace_skipSpace] at hNext
  exact ⟨c, t, hNext, ne_of_opensWith hOpens (opensWith_bracket v)⟩

/-- White space before a value is no part of it. -/
theorem Spells.of_skipSpace {depth : Nat} {s t rest : List Char} {v : Json}
    (h : Spells depth s v rest) (hSkip : skipSpace t = skipSpace s) : Spells depth t v rest := by
  cases h with
  | null next => exact .null (hSkip.trans next)
  | yes next => exact .yes (hSkip.trans next)
  | no next => exact .no (hSkip.trans next)
  | string next quoted => exact .string (hSkip.trans next) quoted
  | negative next isNumber => exact .negative (hSkip.trans next) isNumber
  | positive next isDigit isNumber => exact .positive (hSkip.trans next) isDigit isNumber
  | array next spells => exact .array (hSkip.trans next) spells
  | object next spells => exact .object (hSkip.trans next) spells

theorem spells_skipSpace {depth : Nat} {s rest : List Char} {v : Json} (h : Spells depth s v rest) :
    Spells depth (skipSpace s) v rest :=
  h.of_skipSpace (skipSpace_skipSpace s)

end LintRepair.Json
