import Mathlib.Data.List.TakeWhile
import LintRepair.Proofs.Json.Grammar
import LintRepair.Proofs.Json.Roundtrip

/-! Reading against the grammar. A text is parsed as a value exactly if it writes that value: what is
proved of written texts is proved of all texts that can be read, and a text that writes nothing is
refused. -/

namespace LintRepair.Json

open Decimal (Binary64)

/-! ### Spacing -/

/-- Only space can be skipped to the end. -/
theorem skipSpace_eq_nil_iff {s : List Char} : skipSpace s = [] ↔ Spacing s :=
  List.dropWhile_eq_nil_iff

/-- In front of what is next there is space alone. -/
theorem exists_spacing (s : List Char) : ∃ w, Spacing w ∧ s = w ++ skipSpace s :=
  ⟨s.takeWhile isSpace, fun _ hc => List.all_eq_true.mp List.all_takeWhile _ hc,
    List.takeWhile_append_dropWhile.symm⟩

theorem Spacing.append {w u : List Char} (hw : Spacing w) (hu : Spacing u) : Spacing (w ++ u) :=
  List.forall_mem_append.mpr ⟨hw, hu⟩

/-- Behind space a number does not go on. -/
theorem Spacing.endsNumber {w rest : List Char} (h : Spacing w) (hRest : EndsNumber rest) :
    EndsNumber (w ++ rest) := by
  cases w with
  | nil => exact hRest
  | cons c w =>
      intro d hd
      obtain rfl := Option.some.inj hd
      have hSpace := h c List.mem_cons_self
      simp only [isSpace, Bool.or_eq_true, beq_iff_eq] at hSpace
      rcases hSpace with ((rfl | rfl) | rfl) | rfl <;> decide

theorem endsNumber_cons {c : Char} (h : c.isDigit = false ∧ c ≠ '.' ∧ c ≠ 'e' ∧ c ≠ 'E')
    (rest : List Char) : EndsNumber (c :: rest) := by
  rintro d ⟨⟩
  exact h

/-! ### What is written is spelled -/

theorem WritesNumeral.head {t : List Char} {n : Numeral} (h : WritesNumeral t n) :
    ∃ c more, t = c :: more ∧ c.isDigit = true := by
  have hFirst {ds : List Char} (hWhole : IsWhole ds) (u : List Char) :
      ∃ c more, ds ++ u = c :: more ∧ c.isDigit = true := by
    obtain ⟨c, ds, rfl⟩ := List.exists_cons_of_ne_nil hWhole.1.1
    exact ⟨c, _, rfl, hWhole.1.2 c List.mem_cons_self⟩
  cases h with
  | plain whole exponent => exact hFirst whole _
  | pointed whole fraction exponent => exact hFirst whole _

/-- A numeral is read as its value, whatever stands behind that ends a number. -/
theorem WritesNumeral.number_eq {t rest : List Char} {n : Numeral} (h : WritesNumeral t n)
    (hRest : EndsNumber rest) {negative : Bool} {v : Json} (hValue : n.value negative [] = .ok v) :
    number negative (t ++ rest) = .ok (v, rest) := by
  have hSame : n.value negative rest = .ok v := by
    refine eq_ok_of_toOption ?_
    rw [n.toOption_value negative rest [], hValue]
    rfl
  simp [number, h.numeral_eq hRest, hSame, bind, Except.bind, pure, Except.pure]

/-- Where a string is written it opens with its quote and is read up to the closing one. -/
theorem WritesString.opens {t : List Char} {x : String} (h : WritesString t x) (rest : List Char) :
    ∃ u, skipSpace (t ++ rest) = '"' :: u ∧ stringBody .read u = .ok (x.toList, rest) := by
  obtain ⟨letters⟩ := h
  refine ⟨_, skipSpace_of_head (by decide) _, ?_⟩
  simpa using letters.stringBody_eq rest

/-- A text that writes a scalar spells it. -/
theorem WritesScalar.spells {t rest : List Char} {v : Json} (h : WritesScalar t v)
    (hRest : EndsNumber rest) (depth : Nat) : Spells depth (t ++ rest) v rest := by
  cases h with
  | null => exact .null (skipSpace_of_head (by decide) _)
  | yes => exact .yes (skipSpace_of_head (by decide) _)
  | no => exact .no (skipSpace_of_head (by decide) _)
  | string writes =>
      obtain ⟨u, hNext, hBody⟩ := writes.opens rest
      have hString : Spells depth (t ++ rest) _ rest := .string hNext hBody
      rwa [String.ofList_toList] at hString
  | whole word => exact spells_integer word depth hRest
  | @float t n negative x numeral value =>
      have hNumber := numeral.number_eq hRest value
      cases negative with
      | true => exact .negative (skipSpace_of_head (by decide) _) hNumber
      | false =>
          obtain ⟨c, more, rfl, hDigit⟩ := numeral.head
          exact .positive (skipSpace_of_head (isSpace_of_isDigit hDigit) _) hDigit hNumber

section Lists

variable {depth : Nat} {Writes : List Char → Json → Prop}

theorem SpellsItems.of_skipSpace {first : Bool} {s t rest : List Char} {items : List Json}
    (h : SpellsItems depth first s items rest) (hSkip : skipSpace t = skipSpace s) :
    SpellsItems depth first t items rest := by
  cases h with
  | close next => exact .close (hSkip.trans next)
  | first item items => exact .first (hSkip ▸ item) items
  | next comma item items => exact .next (hSkip.trans comma) item items

theorem SpellsMembers.of_skipSpace {first : Bool} {s t rest : List Char}
    {members : List (String × Json)} (h : SpellsMembers depth first s members rest)
    (hSkip : skipSpace t = skipSpace s) : SpellsMembers depth first t members rest := by
  cases h with
  | close next => exact .close (hSkip.trans next)
  | first member members => exact .first (member.of_skipSpace hSkip) members
  | next comma member members => exact .next (hSkip.trans comma) member members

variable (h : ∀ {t rest : List Char} {v : Json}, Writes t v → EndsNumber rest →
  Spells depth (t ++ rest) v rest)
include h

theorem WritesList.spellsItems_of_ne_nil {t : List Char} {items : List Json}
    (hList : WritesList Writes t items) (hSome : items ≠ []) (first : Bool) (rest : List Char) :
    SpellsItems depth first (separator first ++ (t ++ ']' :: rest)) items rest := by
  have hItem {before t r : List Char} {v : Json} (hFront : Spacing before) (hWrites : Writes t v)
      (hEnd : EndsNumber r) : Spells depth (before ++ (t ++ r)) v r :=
    (h hWrites hEnd).of_skipSpace (skipSpace_append hFront _)
  induction hList generalizing first with
  | none => exact absurd rfl hSome
  | last front writes back =>
      simp only [List.append_assoc]
      refine spellsItems_cons first
        (hItem front writes (back.endsNumber (endsNumber_cons (by decide) _))) (.close ?_)
      rw [skipSpace_append back]
      exact skipSpace_of_head (by decide) rest
  | more front writes back some _ ih =>
      simp only [List.append_assoc, List.cons_append]
      exact spellsItems_cons first
        (hItem front writes (back.endsNumber (endsNumber_cons (by decide) _)))
        ((ih some false).of_skipSpace (skipSpace_append back _))

/-- Texts between commas and brackets spell the items of an array. -/
theorem WritesList.spellsItems {t : List Char} {items : List Json}
    (hList : WritesList Writes t items) (rest : List Char) :
    SpellsItems depth true (t ++ ']' :: rest) items rest := by
  by_cases hSome : items = []
  · subst hSome
    obtain ⟨spacing⟩ := hList
    refine .close ?_
    rw [skipSpace_append spacing]
    exact skipSpace_of_head (by decide) rest
  · exact hList.spellsItems_of_ne_nil h hSome true rest

/-- A name, a colon and a text of the value spell a member, with any space between them. -/
theorem WritesMember.spells {t rest : List Char} {m : String × Json}
    (hMember : WritesMember Writes t m) (hRest : EndsNumber rest) :
    SpellsMember depth (t ++ rest) m rest := by
  obtain @⟨t, gap, space, u, name, v, quoted, behind, before, writes⟩ := hMember
  obtain ⟨inner, hNext, hBody⟩ := quoted.opens (gap ++ ':' :: (space ++ (u ++ rest)))
  have hColon : skipSpace (gap ++ ':' :: (space ++ (u ++ rest))) = ':' :: (space ++ (u ++ rest)) := by
    rw [skipSpace_append behind]
    exact skipSpace_of_head (by decide) _
  have hValue := (h writes hRest).of_skipSpace (skipSpace_append before _)
  have hMember := SpellsMember.member hNext hBody hColon hValue
  rw [String.ofList_toList] at hMember
  simpa using hMember

theorem WritesList.spellsMembers_of_ne_nil {t : List Char} {members : List (String × Json)}
    (hList : WritesList (WritesMember Writes) t members) (hSome : members ≠ []) (first : Bool)
    (rest : List Char) :
    SpellsMembers depth first (separator first ++ (t ++ '\x7d' :: rest)) members rest := by
  have hMember {before t r : List Char} {m : String × Json} (hFront : Spacing before)
      (hWrites : WritesMember Writes t m) (hEnd : EndsNumber r) :
      SpellsMember depth (before ++ (t ++ r)) m r :=
    (hWrites.spells h hEnd).of_skipSpace (skipSpace_append hFront _)
  induction hList generalizing first with
  | none => exact absurd rfl hSome
  | last front writes back =>
      simp only [List.append_assoc]
      refine spellsMembers_cons first
        (hMember front writes (back.endsNumber (endsNumber_cons (by decide) _))) (.close ?_)
      rw [skipSpace_append back]
      exact skipSpace_of_head (by decide) rest
  | more front writes back some _ ih =>
      simp only [List.append_assoc, List.cons_append]
      exact spellsMembers_cons first
        (hMember front writes (back.endsNumber (endsNumber_cons (by decide) _)))
        ((ih some false).of_skipSpace (skipSpace_append back _))

/-- Texts between commas and braces spell the members of an object. -/
theorem WritesList.spellsMembers {t : List Char} {members : List (String × Json)}
    (hList : WritesList (WritesMember Writes) t members) (rest : List Char) :
    SpellsMembers depth true (t ++ '\x7d' :: rest) members rest := by
  by_cases hSome : members = []
  · subst hSome
    obtain ⟨spacing⟩ := hList
    refine .close ?_
    rw [skipSpace_append spacing]
    exact skipSpace_of_head (by decide) rest
  · exact hList.spellsMembers_of_ne_nil h hSome true rest

end Lists

/-- A text that writes a value spells it: this is the grammar read forwards. -/
theorem Writes.spells {depth : Nat} {t rest : List Char} {v : Json} (h : Writes depth t v)
    (hRest : EndsNumber rest) : Spells depth (t ++ rest) v rest := by
  induction depth generalizing t rest v with
  | zero => exact WritesScalar.spells h hRest 0
  | succ depth ih =>
      cases h with
      | scalar writes => exact writes.spells hRest _
      | array writes =>
          simp only [List.cons_append, List.append_assoc]
          exact .array (skipSpace_of_head (by decide) _) (writes.spellsItems ih rest)
      | object writes =>
          simp only [List.cons_append, List.append_assoc]
          exact .object (skipSpace_of_head (by decide) _) (writes.spellsMembers ih rest)

/-! ### What is spelled is written -/

/-- What a list goes on with behind its opening bracket or one of its things, up to its end: spacing
and the closing bracket, or more things, with a comma before them unless they are the first. -/
inductive Continued {α : Type} (Writes : List Char → α → Prop) (close : Char) (rest : List Char) :
    Bool → List Char → List α → Prop where
  | close {first : Bool} {after : List Char} (spacing : Spacing after) :
      Continued Writes close rest first (after ++ close :: rest) []
  | more {first : Bool} {after u : List Char} {as : List α} (spacing : Spacing after)
      (some : as ≠ []) (writes : WritesList Writes u as) :
      Continued Writes close rest first (after ++ (separator first ++ (u ++ close :: rest))) as

section Continued

variable {α : Type} {Writes : List Char → α → Prop} {close : Char} {rest : List Char}

/-- Space may stand in front of a list. -/
theorem WritesList.behind {w t : List Char} {as : List α} (h : WritesList Writes t as)
    (hw : Spacing w) : WritesList Writes (w ++ t) as := by
  cases h with
  | none spacing => exact .none (hw.append spacing)
  | last front writes back =>
      rw [← List.append_assoc]
      exact .last (hw.append front) writes back
  | more front writes back some more =>
      rw [← List.append_assoc]
      exact .more (hw.append front) writes back some more

/-- One more thing before what goes on. -/
theorem Continued.cons {s : List Char} {as : List α} (h : Continued Writes close rest false s as)
    {before t : List Char} {a : α} (front : Spacing before) (writes : Writes t a) :
    ∃ u, WritesList Writes u (a :: as) ∧ before ++ (t ++ s) = u ++ close :: rest := by
  cases h with
  | close spacing => exact ⟨_, .last front writes spacing, by simp⟩
  | more spacing some more => exact ⟨_, .more front writes spacing some more, by simp [separator]⟩

/-- All things of a list, from its opening bracket on. -/
theorem Continued.writesList {s : List Char} {as : List α}
    (h : Continued Writes close rest true s as) :
    ∃ u, WritesList Writes u as ∧ s = u ++ close :: rest := by
  cases h with
  | close spacing => exact ⟨_, .none spacing, rfl⟩
  | more spacing some more => exact ⟨_, more.behind spacing, by simp [separator]⟩

end Continued

theorem WritesScalar.writes {t : List Char} {v : Json} (h : WritesScalar t v) :
    ∀ depth, Writes depth t v
  | 0 => h
  | _ + 1 => .scalar h

/-- Only a double has the sign it is written with. -/
theorem negative_of_value {negative b : Bool} {n : Numeral} {rest : List Char} {x : Binary64}
    (h : n.value negative rest = .ok (.float b x)) : b = negative := by
  unfold Numeral.value at h
  dsimp only at h
  repeat' split at h
  all_goals cases h
  all_goals first | rfl | simp_all

/-- Only digits alone stand for a whole number. -/
theorem plain_of_value {negative : Bool} {n : Numeral} {rest : List Char} {i : Int}
    (h : n.value negative rest = .ok (.int i)) : n.pointed = false ∧ n.exponent = none ∧
      ∃ k, k = Nat.ofDigitChars 10 n.whole 0 ∧ i = (if negative then -(k : Int) else k) ∧
        (negative = true → k ≠ 0) := by
  unfold Numeral.value at h
  dsimp only at h
  split at h
  · repeat' split at h
    all_goals cases h
  · rename_i hPlain
    obtain ⟨hPoint, hExponent, hSurplus⟩ : n.pointed = false ∧ n.exponent = none ∧
        (Decimal.absorb 0 n.whole).2 = [] := by simpa using hPlain
    have hAbsorb := Decimal.eq_ofDigitChars_of_absorb (Prod.ext rfl hSurplus)
    refine ⟨hPoint, hExponent, _, hAbsorb, ?_⟩
    split at h
    · rename_i hNegative
      split at h
      · rename_i hRange
        cases h
        exact ⟨by simp [hNegative], fun _ => Nat.one_le_iff_ne_zero.mp hRange.1⟩
      · split at h <;> cases h
    · rename_i hNegative
      cases h
      exact ⟨by simp [hNegative], fun hSign => absurd hSign hNegative⟩

theorem integer_sign {negative : Bool} {k : Nat} (h : negative = true → k ≠ 0) :
    integer (if negative then -(k : Int) else k) = sign negative ++ Nat.toDigits 10 k := by
  cases negative with
  | false => simp [integer, sign]
  | true =>
      have hSome := h rfl
      simp [integer, sign, hSome]

theorem WritesNumeral.writesScalar {t rest : List Char} {n : Numeral} (h : WritesNumeral t n)
    {negative : Bool} {v : Json} (hValue : n.value negative rest = .ok v) :
    WritesScalar (sign negative ++ t) v := by
  have hOpens := opensWith_of_numeral hValue '-'
  cases v with
  | int i =>
      have hWord := isWord_of_numeral hValue
      obtain ⟨hPoint, hExponent, k, hDigits, rfl, hSome⟩ := plain_of_value hValue
      cases h with
      | plain whole exponent =>
          obtain rfl := hExponent
          obtain ⟨⟩ := exponent
          have hText := toDigits_ofDigitChars whole.1.1 whole.1.2 whole.2
          rw [← hDigits] at hText
          rw [List.append_nil, ← hText, ← integer_sign hSome]
          exact .whole hWord
      | pointed => cases hPoint
  | float b x =>
      obtain rfl := negative_of_value hValue
      refine .float h (eq_ok_of_toOption ?_)
      rw [n.toOption_value b [] rest, hValue]
      rfl
  | _ => cases hOpens

theorem writes_of_number {negative : Bool} {s rest : List Char} {v : Json}
    (h : number negative s = .ok (v, rest)) :
    ∃ t, WritesScalar t v ∧ sign negative ++ s = t ++ rest := by
  obtain ⟨⟨n, r⟩, hNumeral, h⟩ := bind_eq_ok h
  obtain ⟨w, hValue, h⟩ := bind_eq_ok h
  cases h
  obtain ⟨t, hWrites, rfl⟩ := writes_of_numeral hNumeral
  exact ⟨_, hWrites.writesScalar hValue, (List.append_assoc _ _ _).symm⟩

/-- A value at the next token is written before the text that is left. -/
theorem written_of_skipSpace {depth : Nat} {s t rest : List Char} {v : Json}
    (hNext : skipSpace s = t ++ rest) (h : Writes depth t v) :
    ∃ w t, Spacing w ∧ Writes depth t v ∧ s = w ++ (t ++ rest) := by
  obtain ⟨w, hSpacing, hText⟩ := exists_spacing s
  exact ⟨w, t, hSpacing, h, hText.trans (congrArg (w ++ ·) hNext)⟩

mutual

/-- Where a value is spelled it is written, behind some spacing. -/
theorem Spells.written {depth : Nat} {s rest : List Char} {v : Json} :
    Spells depth s v rest → ∃ w t, Spacing w ∧ Writes depth t v ∧ s = w ++ (t ++ rest)
  | .null next => written_of_skipSpace next (WritesScalar.null.writes depth)
  | .yes next => written_of_skipSpace next (WritesScalar.yes.writes depth)
  | .no next => written_of_skipSpace next (WritesScalar.no.writes depth)
  | .string next quoted => by
      obtain ⟨u, hWrites, hText⟩ := writesString_of_stringBody quoted
      exact written_of_skipSpace (next.trans hText) ((WritesScalar.string hWrites).writes depth)
  | .negative next isNumber => by
      obtain ⟨t, hWrites, hText⟩ := writes_of_number isNumber
      exact written_of_skipSpace (next.trans hText) (hWrites.writes depth)
  | .positive next _ isNumber => by
      obtain ⟨t, hWrites, hText⟩ := writes_of_number isNumber
      exact written_of_skipSpace (next.trans hText) (hWrites.writes depth)
  | .array next spells => by
      obtain ⟨u, hWrites, rfl⟩ := spells.written.writesList
      exact written_of_skipSpace (next.trans (by simp)) (.array hWrites)
  | .object next spells => by
      obtain ⟨u, hWrites, rfl⟩ := spells.written.writesList
      exact written_of_skipSpace (next.trans (by simp)) (.object hWrites)

theorem SpellsItems.written {depth : Nat} {first : Bool} {s rest : List Char} {items : List Json} :
    SpellsItems depth first s items rest → Continued (Writes depth) ']' rest first s items
  | .close next => by
      obtain ⟨w, hSpacing, hText⟩ := exists_spacing s
      rw [hText, next]
      exact .close hSpacing
  | .first item items => by
      obtain ⟨w, t, hFront, hWrites, hItem⟩ := item.written
      obtain ⟨u, hMore, hRest⟩ := items.written.cons hFront hWrites
      obtain ⟨w, hSpacing, hText⟩ := exists_spacing s
      rw [hText, hItem, hRest]
      exact .more hSpacing (List.cons_ne_nil _ _) hMore
  | .next (t := x) comma item items => by
      obtain ⟨w, t, hFront, hWrites, hItem⟩ := item.written
      obtain ⟨u, hMore, hRest⟩ := items.written.cons hFront hWrites
      obtain ⟨w, hSpacing, hText⟩ := exists_spacing s
      obtain ⟨w', hSpacing', hAfter⟩ := exists_spacing x
      rw [hText, comma, hAfter, hItem, hRest, ← List.append_assoc]
      exact .more hSpacing (List.cons_ne_nil _ _) (hMore.behind hSpacing')

theorem SpellsMember.written {depth : Nat} {s rest : List Char} {m : String × Json} :
    SpellsMember depth s m rest →
      ∃ w t, Spacing w ∧ WritesMember (Writes depth) t m ∧ s = w ++ (t ++ rest)
  | .member (u := u) next quoted colon spells => by
      obtain ⟨t, hName, hText⟩ := writesString_of_stringBody quoted
      obtain ⟨space, x, hBefore, hWrites, hValue⟩ := spells.written
      obtain ⟨w, hSpacing, hFront⟩ := exists_spacing s
      obtain ⟨gap, hBehind, hGap⟩ := exists_spacing u
      refine ⟨w, _, hSpacing, .named hName hBehind hBefore hWrites, ?_⟩
      rw [hFront, next, hText, hGap, colon, hValue]
      simp

theorem SpellsMembers.written {depth : Nat} {first : Bool} {s rest : List Char}
    {members : List (String × Json)} :
    SpellsMembers depth first s members rest →
      Continued (WritesMember (Writes depth)) '\x7d' rest first s members
  | .close next => by
      obtain ⟨w, hSpacing, hText⟩ := exists_spacing s
      rw [hText, next]
      exact .close hSpacing
  | .first member members => by
      obtain ⟨w, t, hFront, hWrites, hText⟩ := member.written
      obtain ⟨u, hMore, hRest⟩ := members.written.cons hFront hWrites
      have hNone : Spacing [] := List.forall_mem_nil _
      rw [hText, hRest]
      exact .more hNone (List.cons_ne_nil _ _) hMore
  | .next comma member members => by
      obtain ⟨w, t, hFront, hWrites, hMember⟩ := member.written
      obtain ⟨u, hMore, hRest⟩ := members.written.cons hFront hWrites
      obtain ⟨w, hSpacing, hText⟩ := exists_spacing s
      rw [hText, comma, hMember, hRest]
      exact .more hSpacing (List.cons_ne_nil _ _) hMore

end

/-! ### Whole texts -/

/-- Texts are parsed as the values they write, and no others are parsed. -/
theorem parse_eq_ok_iff {text : List Char} {v : Json} : parse text = .ok v ↔ WritesText text v := by
  constructor
  · intro h
    obtain ⟨rest, hSpells, hRest⟩ := parse_spells h
    obtain ⟨w, t, hFront, hWrites, rfl⟩ := hSpells.written
    exact .text hFront hWrites (skipSpace_eq_nil_iff.mp hRest)
  · rintro ⟨front, writes, back⟩
    have hEnd : EndsNumber [] := fun c hc => absurd hc (by simp)
    have hRest := back.endsNumber hEnd
    rw [List.append_nil] at hRest
    exact ((writes.spells hRest).of_skipSpace (skipSpace_append front _)).parse_eq
      (skipSpace_eq_nil_iff.mpr back)

/-- Printing on one line writes the value. -/
theorem Exact.writesText_compact {v : Json} (h : Exact maxDepth v) : WritesText v.compact v := by
  have hParse := h.stands_compact.parse (List.forall_mem_nil _)
  rw [List.append_nil] at hParse
  exact parse_eq_ok_iff.mp hParse

/-- What is refused by the reader writes nothing. -/
theorem not_writesText_of_refused {text : List Char} (h : (parse text).toOption.isNone = true)
    (v : Json) : ¬ WritesText text v := by
  intro hWrites
  rw [parse_eq_ok_iff.mpr hWrites] at h
  cases h

end LintRepair.Json
