import LintRepair.Proofs.Json.Decoding

/-! Readers of truth values and of names against what is read. A name stands for what it is listed
with, and it may be written as a string or as the one member of an object, with `null` behind it. -/

namespace LintRepair.Json

variable {α : Type}

theorem boolean_error {s t : List Char} {c : Char} (hNext : skipSpace s = c :: t) (hTrue : c ≠ 't')
    (hFalse : c ≠ 'f') : ∃ fault, boolean s = .error fault := by
  simp only [boolean, nextToken_of_skipSpace hNext, bind, Except.bind]
  split
  · rename_i hOpen
    exact absurd (List.cons.inj hOpen).1 hTrue
  · rename_i hOpen
    exact absurd (List.cons.inj hOpen).1 hFalse
  · exact wrongKind_error _ _

theorem decodes_boolean : Decodes boolean bool? := by
  intro depth s rest v h
  obtain ⟨c, t, hNext, hOpens⟩ := h.head
  cases v with
  | bool b =>
      cases h with
      | yes next =>
          simp only [boolean, nextToken_of_skipSpace next]
          exact congrArg (Except.map fun p => (true, p.2)) (word_append ['r', 'u', 'e'] rest)
      | no next =>
          simp only [boolean, nextToken_of_skipSpace next]
          exact congrArg (Except.map fun p => (false, p.2)) (word_append ['a', 'l', 's', 'e'] rest)
      | negative _ isNumber => cases opensWith_of_number isNumber '-'
      | positive _ _ isNumber => cases opensWith_of_number isNumber '-'
  | _ => exact boolean_error hNext (ne_of_opensWith hOpens rfl) (ne_of_opensWith hOpens rfl)

/-- What a name stands for. -/
def variant? (names : List (String × α)) : Json → Option α
  | .string name => names.lookup name
  | .object [(name, .null)] => names.lookup name
  | _ => none

theorem variant_error (names : List (String × α)) {s t : List Char} {c : Char}
    (h : skipSpace s = c :: t) (hQuote : c ≠ '"') (hBrace : c ≠ '\x7b') :
    ∃ fault, variant names s = .error fault := by
  simp only [variant, nextToken_of_skipSpace h, bind, Except.bind]
  split
  · rename_i hOpen
    exact absurd (List.cons.inj hOpen).1 hQuote
  · rename_i hOpen
    exact absurd (List.cons.inj hOpen).1 hBrace
  · exact ⟨_, rfl⟩

/-- A string is looked up. -/
theorem gives_variant_string (names : List (String × α)) {s t cs rest : List Char}
    (h : skipSpace s = '"' :: t) (hQuoted : stringBody .read t = .ok (cs, rest)) :
    Gives (variant names s) rest (names.lookup (String.ofList cs)) := by
  simp only [variant, nextToken_of_skipSpace h, bind, Except.bind, hQuoted]
  cases names.lookup (String.ofList cs) with
  | some a => exact gives_ok a rest
  | none => exact ⟨_, rfl⟩

/-- An object without members has no name. -/
theorem variant_empty (names : List (String × α)) {s t rest : List Char} (h : skipSpace s = '\x7b' :: t)
    (hClose : skipSpace t = '\x7d' :: rest) : ∃ fault, variant names s = .error fault := by
  simp only [variant, nextToken_of_skipSpace h, bind, Except.bind, hClose]
  exact ⟨_, rfl⟩

section Member

variable {names : List (String × α)} {depth : Nat} {s t u cs w x y rest : List Char}

/-- The name of the first member must be known. -/
theorem variant_unknown (h : skipSpace s = '\x7b' :: t) (hName : skipSpace t = '"' :: u)
    (hQuoted : stringBody .read u = .ok (cs, w)) (hLookup : names.lookup (String.ofList cs) = none) :
    ∃ fault, variant names s = .error fault := by
  simp only [variant, nextToken_of_skipSpace h, bind, Except.bind, hName, hQuoted, hLookup]
  exact ⟨_, rfl⟩

/-- Nothing but `null` may stand behind the name. -/
theorem variant_valued {a : α} (h : skipSpace s = '\x7b' :: t) (hName : skipSpace t = '"' :: u)
    (hQuoted : stringBody .read u = .ok (cs, w)) (hLookup : names.lookup (String.ofList cs) = some a)
    (hColon : skipSpace w = ':' :: x) {c : Char} (hNext : skipSpace x = c :: y) (hValue : c ≠ 'n') :
    ∃ fault, variant names s = .error fault := by
  obtain ⟨fault, hFault⟩ : ∃ fault, (wrongKind "unit".toList (c :: y) : Except Fault (List Char)) =
    .error fault := wrongKind_error _ _
  simp only [variant, nextToken_of_skipSpace h, bind, Except.bind, hName, hQuoted, hLookup,
    colon_of_skipSpace hColon, nextToken_of_skipSpace hNext]
  split
  · rename_i hOpen
    exact absurd (List.cons.inj hOpen).1 hValue
  · exact ⟨fault, by rw [hFault]⟩

theorem variant_null {a : α} (h : skipSpace s = '\x7b' :: t) (hName : skipSpace t = '"' :: u)
    (hQuoted : stringBody .read u = .ok (cs, w)) (hLookup : names.lookup (String.ofList cs) = some a)
    (hColon : skipSpace w = ':' :: x) (hNull : skipSpace x = 'n' :: 'u' :: 'l' :: 'l' :: y) :
    variant names s = match skipSpace y with
      | '\x7d' :: r => .ok (a, r)
      | [] => failAt .eofInObject []
      | t => failAt .expectedValue t := by
  simp only [variant, nextToken_of_skipSpace h, bind, Except.bind, hName, hQuoted, hLookup,
    colon_of_skipSpace hColon, nextToken_of_skipSpace hNull]
  rfl

/-- A name that is not known is refused. -/
theorem variant?_unknown {name : String} (h : names.lookup name = none) (v : Json)
    (more : List (String × Json)) : variant? names (.object ((name, v) :: more)) = none := by
  unfold variant?
  split
  · rename_i hString
    cases hString
  · rename_i hObject
    cases hObject
    exact h
  · rfl

/-- An object is taken by its first member, if that is all there is to it. -/
theorem gives_variant_member {v : Json} {more : List (String × Json)} (h : skipSpace s = '\x7b' :: t)
    (hName : skipSpace t = '"' :: u) (hQuoted : stringBody .read u = .ok (cs, w))
    (hColon : skipSpace w = ':' :: x) (hValue : Spells depth x v y)
    (hMore : SpellsMembers depth false y more rest) :
    Gives (variant names s) rest (variant? names (.object ((String.ofList cs, v) :: more))) := by
  cases hLookup : names.lookup (String.ofList cs) with
  | none =>
      rw [variant?_unknown hLookup]
      exact variant_unknown h hName hQuoted hLookup
  | some a =>
      obtain ⟨c, z, hNext, hOpens⟩ := hValue.head
      cases v with
      | null =>
          rw [variant_null h hName hQuoted hLookup hColon (spells_null hValue)]
          cases hMore with
          | close next =>
              rw [next, variant?, hLookup]
              exact gives_ok a rest
          | next comma member more =>
              rw [comma]
              exact ⟨_, rfl⟩
      | _ =>
          exact variant_valued h hName hQuoted hLookup hColon hNext (ne_of_opensWith hOpens rfl)

end Member

/-- A reader of variants takes their names, alone or with `null` in an object. -/
theorem decodes_variant (names : List (String × α)) : Decodes (variant names) (variant? names) := by
  intro depth s rest v h
  obtain ⟨c, t, hNext, hOpens⟩ := h.head
  cases v with
  | string name =>
      obtain ⟨t, cs, hNext, hQuoted, rfl⟩ := spells_string h
      exact gives_variant_string names hNext hQuoted
  | object members =>
      obtain ⟨below, t, hNext, hMembers, -⟩ := spells_object h
      cases hMembers with
      | close next => exact variant_empty names hNext next
      | first member more =>
          cases member with
          | member next quoted colon spells =>
              exact gives_variant_member hNext next quoted colon spells more
  | _ => exact variant_error names hNext (ne_of_opensWith hOpens rfl) (ne_of_opensWith hOpens rfl)

end LintRepair.Json
