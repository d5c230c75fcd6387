import LintRepair.Proofs.Json.Numbers
import LintRepair.Proofs.Json.Decoding

/-! Both written forms are read back as the value that was written, if its numbers are whole numbers
of 64 bits and it is not nested too deep. What is spelled is read, so it is enough that the forms
spell the value; where they are followed by more text, it must be text that can follow a value. -/

namespace LintRepair.Json

/-! ### What is spelled is read -/

mutual

/-- A value is read where it is spelled. -/
theorem Spells.value_eq {depth : Nat} {s rest : List Char} {v : Json} :
    Spells depth s v rest → value .read depth s = .ok (v, rest)
  | .null next => by
      rw [value.eq_def]
      dsimp only
      rw [next]
      exact congrArg (Except.map _) (word_append ['u', 'l', 'l'] rest)
  | .yes next => by
      rw [value.eq_def]
      dsimp only
      rw [next]
      exact congrArg (Except.map _) (word_append ['r', 'u', 'e'] rest)
  | .no next => by
      rw [value.eq_def]
      dsimp only
      rw [next]
      exact congrArg (Except.map _) (word_append ['a', 'l', 's', 'e'] rest)
  | .string next quoted => by
      rw [value.eq_def]
      dsimp only
      rw [next]
      exact congrArg (Except.map _) quoted
  | .negative next isNumber => by
      rw [value.eq_def]
      dsimp only
      rw [next]
      exact isNumber
  | .positive next isDigit isNumber => by
      rw [value_of_isDigit .read next isDigit]
      exact isNumber
  | .array (t := t) next spells => by
      have hLength := spells.length_lt
      have hItems := spells.value_eq (t.length + 1) (by omega)
      rw [value.eq_def]
      dsimp only
      rw [next]
      exact congrArg (Except.map _) hItems
  | .object (t := t) next spells => by
      have hLength := spells.length_lt
      have hMembers := spells.value_eq (t.length + 1) [] (by omega)
      rw [value.eq_def]
      dsimp only
      rw [next]
      refine (congrArg (Except.map _) hMembers).trans ?_
      simp [Except.map]

theorem SpellsItems.value_eq {depth : Nat} {first : Bool} {s rest : List Char} {items : List Json} :
    SpellsItems depth first s items rest → ∀ bound : Nat, items.length < bound →
      arrayBody .read (value .read depth) bound first s = .ok (items, rest)
  | .close next, bound + 1, _ => arrayBody_close next bound _
  | .first item items, bound + 1, hBound => by
      have hItem := item.value_eq
      have hItems := items.value_eq bound (Nat.lt_of_succ_lt_succ hBound)
      obtain ⟨c, t, hNext, hOpen⟩ := item.item_head
      rw [hNext] at hItem
      exact arrayBody_first hNext hOpen hItem hItems
  | .next comma item items, bound + 1, hBound => by
      have hItem := item.value_eq
      have hItems := items.value_eq bound (Nat.lt_of_succ_lt_succ hBound)
      obtain ⟨c, t, hNext, hOpen⟩ := item.item_head
      rw [hNext] at hItem
      exact arrayBody_next comma hNext hOpen hItem hItems

theorem SpellsMember.value_eq {depth : Nat} {s rest : List Char} {m : String × Json} :
    SpellsMember depth s m rest → ∃ t u cs, skipSpace s = '"' :: t ∧
      stringBody .read t = .ok (cs, u) ∧
      ∀ sofar, addMember (value .read depth) cs sofar u = .ok (m :: sofar, rest)
  | .member next quoted colon spells => by
      refine ⟨_, _, _, next, quoted, fun sofar => ?_⟩
      simp [addMember, colon_of_skipSpace colon, spells.value_eq, bind, Except.bind, pure, Except.pure]

theorem SpellsMembers.value_eq {depth : Nat} {first : Bool} {s rest : List Char}
    {members : List (String × Json)} :
    SpellsMembers depth first s members rest → ∀ (bound : Nat) (sofar : List (String × Json)),
      members.length < bound → objectBody .read (addMember (value .read depth)) bound first sofar s =
        .ok (members.reverse ++ sofar, rest)
  | .close next, bound + 1, sofar, _ => objectBody_close next bound _ sofar
  | .first (m := m) member members, bound + 1, sofar, hBound => by
      obtain ⟨t, u, cs, hNext, hName, hMember⟩ := member.value_eq
      have hMembers := members.value_eq bound (m :: sofar) (Nat.lt_of_succ_lt_succ hBound)
      rw [List.reverse_cons, List.append_assoc]
      exact objectBody_first hNext hName (hMember sofar) hMembers
  | .next (m := m) comma member members, bound + 1, sofar, hBound => by
      obtain ⟨t, u, cs, hNext, hName, hMember⟩ := member.value_eq
      have hMembers := members.value_eq bound (m :: sofar) (Nat.lt_of_succ_lt_succ hBound)
      rw [List.reverse_cons, List.append_assoc]
      exact objectBody_next comma hNext hName (hMember sofar) hMembers

end

/-! ### What is written is spelled -/

/-- A text that spells this value wherever a value may end. -/
def Stands (depth : Nat) (written : List Char) (v : Json) : Prop :=
  ∀ rest, Closes rest → Spells depth (written ++ rest) v rest

theorem stands_null (depth : Nat) : Stands depth (scalar .null) .null :=
  fun _ _ => .null (skipSpace_of_head (by decide) _)

theorem stands_bool (depth : Nat) (b : Bool) : Stands depth (scalar (.bool b)) (.bool b) := by
  intro rest _
  cases b with
  | false => exact .no (skipSpace_of_head (by decide) _)
  | true => exact .yes (skipSpace_of_head (by decide) _)

/-- A whole number of 64 bits stands where it is printed. -/
theorem stands_int (depth : Nat) {i : Int} (h : IsWord i) : Stands depth (scalar (.int i)) (.int i) :=
  fun _ hRest => spells_integer h depth hRest.endsNumber

/-- A string stands where it is quoted. -/
theorem stands_string (depth : Nat) (x : String) : Stands depth (scalar (.string x)) (.string x) := by
  intro rest _
  have hString : Spells depth (quote x ++ rest) (.string (String.ofList x.toList)) rest :=
    .string (skipSpace_quote x rest) (stringBody_escaped x.toList rest)
  rw [String.ofList_toList] at hString
  exact hString

/-- A member of an object, with or without a space behind its colon. -/
theorem spellsMember_quote {depth : Nat} (name : String) {x rest : List Char} {v : Json}
    (h : Spells depth x v rest) : SpellsMember depth (quote name ++ ':' :: x) (name, v) rest := by
  have hMember : SpellsMember depth (quote name ++ ':' :: x) (String.ofList name.toList, v) rest :=
    .member (skipSpace_quote name _) (stringBody_escaped name.toList _)
      (skipSpace_of_head (by decide) x) h
  rw [String.ofList_toList] at hMember
  exact hMember

/-- Space in front of a member has no part in what it spells. -/
theorem SpellsMember.of_skipSpace {depth : Nat} {s t rest : List Char} {m : String × Json}
    (h : SpellsMember depth s m rest) (hSkip : skipSpace t = skipSpace s) :
    SpellsMember depth t m rest := by
  cases h with
  | member next quoted colon spells => exact .member (hSkip.trans next) quoted colon spells

/-- Before every item or member but the first there is a comma. -/
def separator (first : Bool) : List Char := if first then [] else [',']

/-- An item in front of other items, behind a comma unless it is the first. -/
theorem spellsItems_cons {depth : Nat} (first : Bool) {s t rest : List Char} {v : Json}
    {items : List Json} (item : Spells depth s v t) (more : SpellsItems depth false t items rest) :
    SpellsItems depth first (separator first ++ s) (v :: items) rest := by
  cases first with
  | true => exact .first (spells_skipSpace item) more
  | false => exact .next (skipSpace_of_head (by decide) s) (spells_skipSpace item) more

theorem spellsMembers_cons {depth : Nat} (first : Bool) {s t rest : List Char} {m : String × Json}
    {members : List (String × Json)} (member : SpellsMember depth s m t)
    (more : SpellsMembers depth false t members rest) :
    SpellsMembers depth first (separator first ++ s) (m :: members) rest := by
  cases first with
  | true => exact .first member more
  | false => exact .next (skipSpace_of_head (by decide) s) member more

/-- Items that stand on their own stand in the compact form of an array. -/
theorem spellsItems_compact {depth : Nat} {items : List Json}
    (h : ∀ v ∈ items, Stands depth v.compact v) (hSome : items ≠ []) (first : Bool)
    (rest : List Char) :
    SpellsItems depth first (separator first ++ (compactItems items ++ ']' :: rest)) items rest := by
  have hClose : Closes (']' :: rest) := closes_cons.mpr (by decide)
  induction items generalizing first with
  | nil => exact absurd rfl hSome
  | cons v items ih =>
      have hItem := h v List.mem_cons_self
      cases items with
      | nil =>
          exact spellsItems_cons first (hItem _ hClose) (.close (skipSpace_of_head (by decide) rest))
      | cons w more =>
          have hMore :=
            ih (fun x hx => h x (List.mem_cons_of_mem v hx)) (List.cons_ne_nil w more) false
          have hText : compactItems (v :: w :: more) ++ ']' :: rest =
              v.compact ++ (separator false ++ (compactItems (w :: more) ++ ']' :: rest)) := by
            simp [compactItems, separator]
          rw [hText]
          exact spellsItems_cons first (hItem _ (closes_cons.mpr (by decide))) hMore

/-- Values that stand on their own stand in the compact form of an object. -/
theorem spellsMembers_compact {depth : Nat} {members : List (String × Json)}
    (h : ∀ m ∈ members, Stands depth m.2.compact m.2) (hSome : members ≠ []) (first : Bool)
    (rest : List Char) : SpellsMembers depth first
      (separator first ++ (compactMembers members ++ '\x7d' :: rest)) members rest := by
  have hClose : Closes ('\x7d' :: rest) := closes_cons.mpr (by decide)
  induction members generalizing first with
  | nil => exact absurd rfl hSome
  | cons m members ih =>
      obtain ⟨name, v⟩ := m
      have hMember := h (name, v) List.mem_cons_self
      cases members with
      | nil =>
          have hText : compactMembers [(name, v)] ++ '\x7d' :: rest =
              quote name ++ ':' :: (v.compact ++ '\x7d' :: rest) := by
            simp [compactMembers]
          rw [hText]
          exact spellsMembers_cons first (spellsMember_quote name (hMember _ hClose))
            (.close (skipSpace_of_head (by decide) rest))
      | cons w more =>
          have hMore :=
            ih (fun x hx => h x (List.mem_cons_of_mem _ hx)) (List.cons_ne_nil w more) false
          have hText : compactMembers ((name, v) :: w :: more) ++ '\x7d' :: rest =
              quote name ++ ':' :: (v.compact ++
                (separator false ++ (compactMembers (w :: more) ++ '\x7d' :: rest))) := by
            simp [compactMembers, separator]
          rw [hText]
          exact spellsMembers_cons first
            (spellsMember_quote name (hMember _ (closes_cons.mpr (by decide)))) hMore

theorem spells_newline {depth indent : Nat} {s rest : List Char} {v : Json}
    (h : Spells depth s v rest) : Spells depth (newline indent ++ s) v rest :=
  h.of_skipSpace (skipSpace_newline indent s)

/-- The items after the first, up to the closing bracket. -/
theorem spellsItems_pretty {depth indent : Nat} {items : List Json}
    (h : ∀ v ∈ items, Stands depth (v.prettyAt indent) v) (outer : Nat) (rest : List Char) :
    SpellsItems depth false (prettyItems indent items ++ (newline outer ++ ']' :: rest)) items
      rest := by
  induction items with
  | nil =>
      refine .close ?_
      rw [prettyItems, List.nil_append, skipSpace_newline]
      exact skipSpace_of_head (by decide) rest
  | cons v items ih =>
      have hMore := ih fun x hx => h x (List.mem_cons_of_mem v hx)
      have hClose := closes_prettyItems (closes_newline outer (']' :: rest)) indent items
      simp only [prettyItems, List.cons_append, List.append_assoc]
      exact spellsItems_cons false (spells_newline (h v List.mem_cons_self _ hClose)) hMore

/-- Values that stand on their own stand in the pretty form of an object. -/
theorem spellsMembers_pretty {depth indent : Nat} {members : List (String × Json)}
    (h : ∀ m ∈ members, Stands depth (m.2.prettyAt indent) m.2) (outer : Nat) (rest : List Char) :
    SpellsMembers depth false (prettyMembers indent members ++ (newline outer ++ '\x7d' :: rest))
      members rest := by
  induction members with
  | nil =>
      refine .close ?_
      rw [prettyMembers, List.nil_append, skipSpace_newline]
      exact skipSpace_of_head (by decide) rest
  | cons m members ih =>
      obtain ⟨name, v⟩ := m
      have hMore := ih fun x hx => h x (List.mem_cons_of_mem _ hx)
      have hClose := closes_prettyMembers (closes_newline outer ('\x7d' :: rest)) indent members
      have hValue := h (name, v) List.mem_cons_self _ hClose
      simp only [prettyMembers, List.cons_append, List.append_assoc]
      refine spellsMembers_cons false (SpellsMember.of_skipSpace (spellsMember_quote name
        (hValue.of_skipSpace ?_)) (skipSpace_newline indent _)) hMore
      rfl

/-- Values that the written forms keep: nested at most so deep, and with no numbers
but whole ones of 64 bits. -/
inductive Exact : Nat → Json → Prop where
  | null {depth : Nat} : Exact depth .null
  | bool {depth : Nat} (b : Bool) : Exact depth (.bool b)
  | int {depth : Nat} {i : Int} (word : IsWord i) : Exact depth (.int i)
  | string {depth : Nat} (x : String) : Exact depth (.string x)
  | array {depth : Nat} {items : List Json} (exact : ∀ v ∈ items, Exact depth v) :
      Exact (depth + 1) (.array items)
  | object {depth : Nat} {members : List (String × Json)} (exact : ∀ m ∈ members, Exact depth m.2) :
      Exact (depth + 1) (.object members)

theorem Exact.nat {depth n : Nat} (h : n < UInt64.size) : Exact depth (.nat n) :=
  .int (isWord_nat h)

/-- The compact form of an exact value spells it. -/
theorem Exact.stands_compact {depth : Nat} {v : Json} (h : Exact depth v) :
    Stands depth v.compact v := by
  induction h with
  | null => exact stands_null _
  | bool b => exact stands_bool _ b
  | int word => exact stands_int _ word
  | string x => exact stands_string _ x
  | @array depth items _ ih =>
      intro rest _
      simp only [compact, List.cons_append, List.append_assoc, List.nil_append]
      refine .array (skipSpace_of_head (by decide) _) ?_
      by_cases hSome : items = []
      · subst hSome
        exact .close (skipSpace_of_head (by decide) rest)
      · exact spellsItems_compact ih hSome true rest
  | @object depth members _ ih =>
      intro rest _
      simp only [compact, List.cons_append, List.append_assoc, List.nil_append]
      refine .object (skipSpace_of_head (by decide) _) ?_
      by_cases hSome : members = []
      · subst hSome
        exact .close (skipSpace_of_head (by decide) rest)
      · exact spellsMembers_compact ih hSome true rest

/-- The pretty form of an exact value spells it, at every indent. -/
theorem Exact.stands_pretty {depth : Nat} {v : Json} (h : Exact depth v) (indent : Nat) :
    Stands depth (v.prettyAt indent) v := by
  induction h generalizing indent with
  | null => exact stands_null _
  | bool b => exact stands_bool _ b
  | int word => exact stands_int _ word
  | string x => exact stands_string _ x
  | @array depth items _ ih =>
      intro rest _
      cases items with
      | nil =>
          exact .array (skipSpace_of_head (by decide) _) (.close (skipSpace_of_head (by decide) rest))
      | cons v items =>
          have hClose := closes_prettyItems (closes_newline indent (']' :: rest)) (indent + 1) items
          have hItem := ih v List.mem_cons_self (indent + 1) _ hClose
          have hMore := spellsItems_pretty
            (fun w hw => ih w (List.mem_cons_of_mem v hw) (indent + 1)) indent rest
          simp only [prettyAt, List.cons_append, List.append_assoc, List.nil_append]
          exact .array (skipSpace_of_head (by decide) _)
            (spellsItems_cons true (spells_newline hItem) hMore)
  | @object depth members _ ih =>
      intro rest _
      cases members with
      | nil =>
          exact .object (skipSpace_of_head (by decide) _) (.close (skipSpace_of_head (by decide) rest))
      | cons m members =>
          obtain ⟨name, v⟩ := m
          have hClose :=
            closes_prettyMembers (closes_newline indent ('\x7d' :: rest)) (indent + 1) members
          have hValue := ih (name, v) List.mem_cons_self (indent + 1) _ hClose
          have hMore := spellsMembers_pretty
            (fun w hw => ih w (List.mem_cons_of_mem _ hw) (indent + 1)) indent rest
          simp only [prettyAt, List.cons_append, List.append_assoc, List.nil_append]
          refine .object (skipSpace_of_head (by decide) _) (spellsMembers_cons true
            (SpellsMember.of_skipSpace (spellsMember_quote name (hValue.of_skipSpace ?_))
              (skipSpace_newline (indent + 1) _)) hMore)
          rfl

/-! ### Whole texts -/

/-- A text that spells a value with only white space behind it is parsed as that value. -/
theorem Spells.parse_eq {text rest : List Char} {v : Json} (h : Spells maxDepth text v rest)
    (hRest : skipSpace rest = []) : parse text = .ok v := by
  rw [Json.parse, finish, h.value_eq]
  simp only [bind, Except.bind, hRest]
  rfl

/-- A value that stands at the end of a text, with nothing but line breaks behind
it, is what the text is parsed as. -/
theorem Stands.parse {written space : List Char} {v : Json} (h : Stands maxDepth written v)
    (hSpace : ∀ c ∈ space, c = '\n') : parse (written ++ space) = .ok v := by
  have hRest : Closes space := fun c hc => by
    rw [hSpace c (List.mem_of_mem_head? hc)]
    decide
  refine (h _ hRest).parse_eq ?_
  have hAll := skipSpace_append (fun c hc => by rw [hSpace c hc]; rfl) ([] : List Char)
  rwa [List.append_nil] at hAll

/-! ### What is read -/

/-- The value is read somewhere in some text. -/
def Legible (v : Json) : Prop := ∃ depth s rest, Spells depth s v rest

/-- Whatever is read can be read. -/
theorem legible_of_parse {text : List Char} {v : Json} (h : parse text = .ok v) : Legible v := by
  obtain ⟨rest, hSpells, -⟩ := parse_spells h
  exact ⟨_, _, _, hSpells⟩

/-- Whole numbers that are read have 64 bits. -/
theorem Legible.int {i : Int} (h : Legible (.int i)) : IsWord i := by
  obtain ⟨depth, s, rest, h⟩ := h
  cases h with
  | negative _ isNumber => exact isWord_of_number isNumber
  | positive _ _ isNumber => exact isWord_of_number isNumber

theorem legible_of_mem_items {depth : Nat} {first : Bool} {s rest : List Char} {items : List Json}
    (h : SpellsItems depth first s items rest) : ∀ v ∈ items, Legible v := by
  induction items generalizing first s with
  | nil => exact fun v hv => absurd hv List.not_mem_nil
  | cons w items ih =>
      cases h with
      | first item more => exact List.forall_mem_cons.mpr ⟨⟨_, _, _, item⟩, ih more⟩
      | next _ item more => exact List.forall_mem_cons.mpr ⟨⟨_, _, _, item⟩, ih more⟩

theorem Legible.items {items : List Json} (h : Legible (.array items)) : ∀ v ∈ items, Legible v := by
  obtain ⟨depth, s, rest, h⟩ := h
  obtain ⟨below, t, hNext, hItems, -⟩ := spells_array h
  exact legible_of_mem_items hItems

theorem legible_of_member {depth : Nat} {s rest : List Char} {m : String × Json}
    (h : SpellsMember depth s m rest) : Legible m.2 := by
  cases h with
  | member _ _ _ spells => exact ⟨_, _, _, spells⟩

theorem legible_of_mem_members {depth : Nat} {first : Bool} {s rest : List Char}
    {members : List (String × Json)} (h : SpellsMembers depth first s members rest) :
    ∀ m ∈ members, Legible m.2 := by
  induction members generalizing first s with
  | nil => exact fun m hm => absurd hm List.not_mem_nil
  | cons n members ih =>
      cases h with
      | first member more => exact List.forall_mem_cons.mpr ⟨legible_of_member member, ih more⟩
      | next _ member more => exact List.forall_mem_cons.mpr ⟨legible_of_member member, ih more⟩

/-- The members of what is read are read. -/
theorem Legible.members {members : List (String × Json)} (h : Legible (.object members)) :
    ∀ m ∈ members, Legible m.2 := by
  obtain ⟨depth, s, rest, h⟩ := h
  obtain ⟨below, t, hNext, hMembers, -⟩ := spells_object h
  exact legible_of_mem_members hMembers

end LintRepair.Json
