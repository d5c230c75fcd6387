import LintRepair.Proofs.Json.Spelling

/-! Whatever can be read can be skipped, and the same text is left. Skipping checks less, but it goes
by the same tokens; the depth it is allowed is never used up, since nesting takes text. -/

namespace LintRepair.Json

mutual

/-- What can be read can be skipped: it is nested less deep than it is long. -/
theorem Spells.skipped {depth : Nat} {s rest : List Char} {v : Json} :
    Spells depth s v rest → ∀ limit : Nat, s.length < limit →
      ∃ u, value .skip limit s = .ok (u, rest)
  | .null next, limit, _ => ⟨.null, by
      rw [value.eq_def]
      dsimp only
      rw [next]
      exact congrArg (Except.map _) (word_append ['u', 'l', 'l'] rest)⟩
  | .yes next, limit, _ => ⟨.bool true, by
      rw [value.eq_def]
      dsimp only
      rw [next]
      exact congrArg (Except.map _) (word_append ['r', 'u', 'e'] rest)⟩
  | .no next, limit, _ => ⟨.bool false, by
      rw [value.eq_def]
      dsimp only
      rw [next]
      exact congrArg (Except.map _) (word_append ['a', 'l', 's', 'e'] rest)⟩
  | .string next quoted, limit, _ => by
      obtain ⟨ds, hSkip⟩ := (stringBody_quoted quoted).skipped
      refine ⟨.string (String.ofList ds), ?_⟩
      rw [value.eq_def]
      dsimp only
      rw [next]
      exact congrArg (Except.map _) hSkip
  | .negative next isNumber, limit, _ => by
      obtain ⟨n, hNumeral⟩ := numeral_of_number isNumber
      refine ⟨.null, ?_⟩
      rw [value.eq_def]
      dsimp only
      rw [next]
      exact congrArg (Except.map _) (numeral_read hNumeral).2
  | .positive next isDigit isNumber, limit, _ => by
      obtain ⟨n, hNumeral⟩ := numeral_of_number isNumber
      refine ⟨.null, ?_⟩
      rw [value_of_isDigit .skip next isDigit]
      exact congrArg (Except.map _) (numeral_read hNumeral).2
  | .array (t := t) next spells, limit, hLimit => by
      -- The bracket is part of the text, so a limit above its length is not used up.
      have hNext := length_lt_of_skipSpace next
      have hLength := spells.length_lt
      obtain ⟨below, rfl⟩ := Nat.exists_eq_succ_of_ne_zero (Nat.ne_of_gt (Nat.zero_lt_of_lt hLimit))
      obtain ⟨us, hSkip⟩ := spells.skipped below (t.length + 1) (by omega) (by omega)
      refine ⟨.array us, ?_⟩
      rw [value.eq_def]
      dsimp only
      rw [next]
      exact congrArg (Except.map _) hSkip
  | .object (t := t) next spells, limit, hLimit => by
      have hNext := length_lt_of_skipSpace next
      have hLength := spells.length_lt
      obtain ⟨below, rfl⟩ := Nat.exists_eq_succ_of_ne_zero (Nat.ne_of_gt (Nat.zero_lt_of_lt hLimit))
      obtain ⟨us, hSkip⟩ := spells.skipped below (t.length + 1) [] (by omega) (by omega)
      refine ⟨.object us.reverse, ?_⟩
      rw [value.eq_def]
      dsimp only
      rw [next]
      exact congrArg (Except.map _) hSkip

/-- Items that are spelled are skipped to the same end. -/
theorem SpellsItems.skipped {depth : Nat} {first : Bool} {s rest : List Char} {items : List Json} :
    SpellsItems depth first s items rest → ∀ (limit bound : Nat), s.length < limit →
      items.length < bound → ∃ us, arrayBody .skip (value .skip limit) bound first s = .ok (us, rest)
  | .close next, limit, bound + 1, _, _ => ⟨[], arrayBody_close next bound _⟩
  | .first item items, limit, bound + 1, hLimit, hBound => by
      have hSpace := length_skipSpace_le s
      have hLength := item.length_lt
      obtain ⟨u, hItem⟩ := item.skipped limit (by omega)
      obtain ⟨us, hItems⟩ := items.skipped limit bound (by omega) (Nat.lt_of_succ_lt_succ hBound)
      obtain ⟨c, t, hNext, hOpen⟩ := item.item_head
      rw [hNext] at hItem
      exact ⟨u :: us, arrayBody_first hNext hOpen hItem hItems⟩
  | .next (t := t) comma item items, limit, bound + 1, hLimit, hBound => by
      have hComma := length_lt_of_skipSpace comma
      have hSpace := length_skipSpace_le t
      have hLength := item.length_lt
      obtain ⟨u, hItem⟩ := item.skipped limit (by omega)
      obtain ⟨us, hItems⟩ := items.skipped limit bound (by omega) (Nat.lt_of_succ_lt_succ hBound)
      obtain ⟨c, t, hNext, hOpen⟩ := item.item_head
      rw [hNext] at hItem
      exact ⟨u :: us, arrayBody_next comma hNext hOpen hItem hItems⟩

theorem SpellsMember.skipped {depth : Nat} {s rest : List Char} {m : String × Json} :
    SpellsMember depth s m rest → ∀ limit : Nat, s.length < limit →
      ∃ t u cs, skipSpace s = '"' :: t ∧ stringBody .skip t = .ok (cs, u) ∧
        ∃ v, ∀ sofar, addMember (value .skip limit) cs sofar u = .ok ((String.ofList cs, v) :: sofar, rest)
  | .member next quoted colon spells, limit, hLimit => by
      have hNext := length_lt_of_skipSpace next
      have hName := (stringBody_quoted quoted).length_lt
      have hColon := length_lt_of_skipSpace colon
      obtain ⟨cs, hSkip⟩ := (stringBody_quoted quoted).skipped
      obtain ⟨v, hValue⟩ := spells.skipped limit (by omega)
      refine ⟨_, _, cs, next, hSkip, v, fun sofar => ?_⟩
      simp [addMember, colon_of_skipSpace colon, hValue, bind, Except.bind, pure, Except.pure]

theorem SpellsMembers.skipped {depth : Nat} {first : Bool} {s rest : List Char}
    {members : List (String × Json)} :
    SpellsMembers depth first s members rest → ∀ (limit bound : Nat) (sofar : List (String × Json)),
      s.length < limit → members.length < bound →
      ∃ us, objectBody .skip (addMember (value .skip limit)) bound first sofar s = .ok (us, rest)
  | .close next, limit, bound + 1, sofar, _, _ => ⟨sofar, objectBody_close next bound _ sofar⟩
  | .first member members, limit, bound + 1, sofar, hLimit, hBound => by
      have hLength := member.length_lt
      obtain ⟨t, u, cs, hNext, hName, v, hMember⟩ := member.skipped limit hLimit
      obtain ⟨us, hMembers⟩ := members.skipped limit bound ((String.ofList cs, v) :: sofar) (by omega)
        (Nat.lt_of_succ_lt_succ hBound)
      exact ⟨us, objectBody_first hNext hName (hMember sofar) hMembers⟩
  | .next comma member members, limit, bound + 1, sofar, hLimit, hBound => by
      have hComma := length_lt_of_skipSpace comma
      have hLength := member.length_lt
      obtain ⟨t, u, cs, hNext, hName, v, hMember⟩ := member.skipped limit (by omega)
      obtain ⟨us, hMembers⟩ := members.skipped limit bound ((String.ofList cs, v) :: sofar) (by omega)
        (Nat.lt_of_succ_lt_succ hBound)
      exact ⟨us, objectBody_next comma hNext hName (hMember sofar) hMembers⟩

end

/-- A value that can be read is passed over where nobody wants it. -/
theorem Spells.skipValue_eq {depth : Nat} {s rest : List Char} {v : Json}
    (h : Spells depth s v rest) : skipValue s = .ok ((), rest) := by
  obtain ⟨u, hSkip⟩ := h.skipped (s.length + 1) (Nat.lt_succ_self _)
  rw [skipValue, hSkip]
  rfl

end LintRepair.Json
