import LintRepair.Proofs.Json.Spelling

/-! Written values are read back as values: strings, and what is made of them by arrays and objects,
down to the depth that the reader allows. -/

namespace LintRepair.Json

theorem reads_string (s : String) (limit : Nat) :
    Reads (value .read limit) (quote s) (.string s) := by
  refine ⟨⟨'"', _, quote_eq s, by decide, by decide⟩, fun t rest hNext => ?_⟩
  rw [quote_append] at hNext
  rw [value.eq_def]
  dsimp only
  rw [hNext]
  have hBody := stringBody_escaped s.toList rest
  simp [hBody, Except.map]

/-- An array takes one level more than its items. -/
theorem reads_array {limit depth : Nat} {items : List Json}
    (h : ∀ v ∈ items, Reads (value .read limit) (v.prettyAt (depth + 1)) v) :
    Reads (value .read (limit + 1)) ((Json.array items).prettyAt depth) (.array items) := by
  have hPretty := array_pretty id h
  rw [List.map_id] at hPretty
  constructor
  · obtain ⟨r, hOpen, -⟩ := hPretty []
    rw [List.append_nil] at hOpen
    exact ⟨'[', r, hOpen, by decide, by decide⟩
  · intro s rest hNext
    obtain ⟨r, hOpen, hBody⟩ := hPretty rest
    rw [value.eq_def]
    dsimp only
    rw [hNext.trans hOpen]
    exact congrArg (Except.map _) hBody

theorem addMember_pretty {limit depth : Nat} {v : Json}
    (h : Reads (value .read limit) (v.prettyAt depth) v) (name : String)
    (sofar : List (String × Json)) (rest : List Char) :
    addMember (value .read limit) name.toList sofar (':' :: ' ' :: (v.prettyAt depth ++ rest)) =
      .ok ((name, v) :: sofar, rest) := by
  have hColon : colon (':' :: ' ' :: (v.prettyAt depth ++ rest)) = .ok ((), _) :=
    colon_of_skipSpace (skipSpace_of_head (by decide) _)
  have hRead := h.reads (' ' :: (v.prettyAt depth ++ rest)) rest (h.skipSpace_append rest)
  simp [addMember, hColon, hRead, bind, Except.bind, pure, Except.pure]

/-- Members that are read back are added one after another. -/
theorem takes_addMember {limit depth : Nat} {members : List (String × Json)}
    (h : ∀ m ∈ members, Reads (value .read limit) (m.2.prettyAt depth) m.2)
    (sofar : List (String × Json)) :
    Takes (addMember (value .read limit)) depth sofar members (members.reverse ++ sofar) := by
  induction members generalizing sofar with
  | nil => exact .nil sofar
  | cons m more ih =>
      have hMore := ih (fun n hn => h n (List.mem_cons_of_mem m hn)) (m :: sofar)
      rw [List.reverse_cons, List.append_assoc]
      exact .cons (addMember_pretty (h m List.mem_cons_self) m.1 sofar) hMore

/-- An object takes one level more than its members. -/
theorem reads_object {limit depth : Nat} {members : List (String × Json)}
    (h : ∀ m ∈ members, Reads (value .read limit) (m.2.prettyAt (depth + 1)) m.2) :
    Reads (value .read (limit + 1)) ((Json.object members).prettyAt depth) (.object members) := by
  have hPretty := object_pretty (takes_addMember h [])
  constructor
  · obtain ⟨r, hOpen, -⟩ := hPretty []
    rw [List.append_nil] at hOpen
    exact ⟨'\x7b', r, hOpen, by decide, by decide⟩
  · intro s rest hNext
    obtain ⟨r, hOpen, hBody⟩ := hPretty rest
    rw [value.eq_def]
    dsimp only
    rw [hNext.trans hOpen]
    refine (congrArg (Except.map _) hBody).trans ?_
    simp [Except.map]

/-- A value that is read back where it is written is what its text is parsed as. -/
theorem Reads.parse {v : Json} (h : Reads (value .read maxDepth) v.pretty v) :
    parse (prettyText v).toList = .ok v := by
  rw [prettyText, String.toList_ofList]
  exact h.finish

end LintRepair.Json
