import LintRepair.Json.Record
import LintRepair.Json.Row
import LintRepair.Proofs.Json.Skipping

/-! Readers of known shape against values. A reader takes a value wherever it is spelled if and only
if the value decodes, and then leaves the same rest: so a text that is JSON is decoded by what its
value is, however it is spelled. -/

namespace LintRepair.Json

variable {σ α β : Type}

/-- What a reader makes of a value with this rest behind it: it gives what the value
decodes to, and a fault if the value does not decode. -/
def Gives (result : Except Fault (α × List Char)) (rest : List Char) : Option α → Prop
  | some a => result = .ok (a, rest)
  | none => ∃ fault, result = .error fault

/-- A reader takes the values that decode, and no others. -/
def Decodes (read : Reader α) (decode : Json → Option α) : Prop :=
  ∀ ⦃depth : Nat⦄ ⦃s rest : List Char⦄ ⦃v : Json⦄, Spells depth s v rest →
    Gives (read s) rest (decode v)

/-- The same of the values that are nested at most so deep, for readers that go no
deeper. -/
def DecodesAt (depth : Nat) (read : Reader α) (decode : Json → Option α) : Prop :=
  ∀ ⦃s rest : List Char⦄ ⦃v : Json⦄, Spells depth s v rest → Gives (read s) rest (decode v)

theorem Decodes.within {read : Reader α} {decode : Json → Option α} (h : Decodes read decode)
    (depth : Nat) : DecodesAt depth read decode :=
  fun _ _ _ hSpells => h hSpells

theorem gives_ok (a : α) (rest : List Char) : Gives (.ok (a, rest)) rest (some a) := rfl

/-- What is made of a decoded value is made of what was read. -/
theorem Gives.map {result : Except Fault (α × List Char)} {rest : List Char} {decoded : Option α}
    (h : Gives result rest decoded) (f : α → β) :
    Gives (result.map fun (a, r) => (f a, r)) rest (decoded.map f) := by
  cases decoded with
  | some a =>
      rw [show result = .ok (a, rest) from h]
      exact rfl
  | none =>
      obtain ⟨fault, hFault⟩ := h
      rw [hFault]
      exact ⟨fault, rfl⟩

/-- One reader after another, the second behind what the first leaves. -/
theorem Gives.bind {result : Except Fault (α × List Char)} {mid rest : List Char}
    {decoded : Option α} (h : Gives result mid decoded) {next : α × List Char → Except Fault (β × List Char)}
    {more : α → Option β} (hNext : ∀ a, Gives (next (a, mid)) rest (more a)) :
    Gives (result >>= next) rest (decoded >>= more) := by
  cases decoded with
  | some a =>
      rw [show result = .ok (a, mid) from h]
      exact hNext a
  | none =>
      obtain ⟨fault, hFault⟩ := h
      rw [hFault]
      exact ⟨fault, rfl⟩

/-! ### Kinds of values -/

/-- A fault in the end, whatever the first step gives. -/
theorem bind_error {x : Except Fault α} {f : α → Except Fault β}
    (h : ∀ a, ∃ fault, f a = .error fault) : ∃ fault, x >>= f = .error fault := by
  cases x with
  | error fault => exact ⟨fault, rfl⟩
  | ok a => exact h a

theorem wrongKind_error (expected s : List Char) :
    ∃ fault, (wrongKind expected s : Except Fault α) = .error fault := by
  unfold wrongKind
  split
  · exact ⟨_, rfl⟩
  · exact ⟨_, rfl⟩
  · exact ⟨_, rfl⟩
  · exact bind_error fun _ => ⟨_, rfl⟩
  · exact bind_error fun _ => ⟨_, rfl⟩
  · exact bind_error fun _ => ⟨_, rfl⟩
  · exact bind_error fun _ => ⟨_, rfl⟩
  · split
    · dsimp only
      split
      all_goals
        refine bind_error fun p => ?_
        split <;> exact ⟨_, rfl⟩
    · exact ⟨_, rfl⟩

/-- A text spells a string only if a quoted text is next. -/
theorem spells_string {depth : Nat} {s rest : List Char} {x : String}
    (h : Spells depth s (.string x) rest) : ∃ t cs, skipSpace s = '"' :: t ∧
      stringBody .read t = .ok (cs, rest) ∧ x = String.ofList cs := by
  cases h with
  | string next quoted => exact ⟨_, _, next, quoted, rfl⟩
  | negative _ isNumber => cases opensWith_of_number isNumber '-'
  | positive _ _ isNumber => cases opensWith_of_number isNumber '-'

theorem spells_null {depth : Nat} {s rest : List Char} (h : Spells depth s .null rest) :
    skipSpace s = 'n' :: 'u' :: 'l' :: 'l' :: rest := by
  cases h with
  | null next => exact next
  | negative _ isNumber => cases opensWith_of_number isNumber '-'
  | positive _ _ isNumber => cases opensWith_of_number isNumber '-'

/-- A text spells an array only if a bracket is next, and the items behind it. -/
theorem spells_array {depth : Nat} {s rest : List Char} {items : List Json}
    (h : Spells depth s (.array items) rest) : ∃ below t, skipSpace s = '[' :: t ∧
      SpellsItems below true t items rest ∧ below + 1 = depth := by
  cases h with
  | array next spells => exact ⟨_, _, next, spells, rfl⟩
  | negative _ isNumber => cases opensWith_of_number isNumber '-'
  | positive _ _ isNumber => cases opensWith_of_number isNumber '-'

/-- A text spells an object only if a brace is next, and the members behind it. -/
theorem spells_object {depth : Nat} {s rest : List Char} {members : List (String × Json)}
    (h : Spells depth s (.object members) rest) : ∃ below t, skipSpace s = '\x7b' :: t ∧
      SpellsMembers below true t members rest ∧ below + 1 = depth := by
  cases h with
  | object next spells => exact ⟨_, _, next, spells, rfl⟩
  | negative _ isNumber => cases opensWith_of_number isNumber '-'
  | positive _ _ isNumber => cases opensWith_of_number isNumber '-'

/-! ### Strings, missing values and lists -/

theorem text_error {s t : List Char} {c : Char} (hNext : skipSpace s = c :: t) (hOpen : c ≠ '"') :
    ∃ fault, text s = .error fault := by
  simp only [text, nextToken_of_skipSpace hNext, bind, Except.bind]
  split
  · rename_i hQuote
    exact absurd (List.cons.inj hQuote).1 hOpen
  · exact wrongKind_error _ _

/-- A reader of strings takes every string and refuses all else. -/
theorem decodes_text : Decodes text string? := by
  intro depth s rest v h
  obtain ⟨c, t, hNext, hOpens⟩ := h.head
  cases v with
  | string x =>
      obtain ⟨t, cs, hNext, hQuoted, rfl⟩ := spells_string h
      simp only [text, nextToken_of_skipSpace hNext]
      exact congrArg (Except.map _) hQuoted
  | _ => exact text_error hNext (ne_of_opensWith hOpens rfl)

theorem string?_eq_some {v : Json} {s : String} (h : string? v = some s) : v = .string s := by
  cases v <;> cases h
  rfl

/-- A value that may be missing decodes from `null` too. -/
def optional? (decode : Json → Option α) : Json → Option (Option α)
  | .null => some none
  | v => (decode v).map some

theorem optional?_of_ne_null {decode : Json → Option α} {v : Json} (h : v ≠ .null) :
    optional? decode v = (decode v).map some := by
  unfold optional?
  split
  · exact absurd rfl h
  · rfl

/-- A reader that `null` is allowed for takes it for a value that is left out. -/
theorem DecodesAt.optional {depth : Nat} {read : Reader α} {decode : Json → Option α}
    (h : DecodesAt depth read decode) :
    DecodesAt depth (Json.optional read) (optional? decode) := by
  intro s rest v hSpells
  obtain ⟨c, t, hNext, hOpens⟩ := hSpells.head
  unfold Json.optional
  split
  · rename_i r hNull
    have hOpen : v.opensWith 'n' = true := by
      rw [hNext] at hNull
      cases hNull
      exact hOpens
    obtain rfl : v = .null := by
      cases v with
      | null => rfl
      | _ => cases hOpen
    rw [spells_null hSpells] at hNull
    cases hNull
    exact congrArg (Except.map _) (word_append ['u', 'l', 'l'] rest)
  · rename_i hOpen
    have hNotNull : v ≠ .null := by
      rintro rfl
      exact hOpen _ (spells_null hSpells)
    rw [optional?_of_ne_null hNotNull]
    exact (h (spells_skipSpace hSpells)).map some

theorem Decodes.optional {read : Reader α} {decode : Json → Option α} (h : Decodes read decode) :
    Decodes (Json.optional read) (optional? decode) :=
  fun depth => DecodesAt.optional (h.within depth)

/-- The items of a list, taken one by one. -/
theorem DecodesAt.arrayBody {depth : Nat} {item : Reader α} {decode : Json → Option α}
    (h : DecodesAt depth item decode) {bound : Nat} {first : Bool} {s rest : List Char}
    {items : List Json}
    (hSpells : SpellsItems depth first s items rest) (hBound : items.length < bound) :
    Gives (Json.arrayBody .read item bound first s) rest (items.mapM decode) := by
  induction items generalizing bound first s with
  | nil =>
      obtain ⟨bound, rfl⟩ := Nat.exists_eq_succ_of_ne_zero (Nat.ne_of_gt hBound)
      cases hSpells with
      | close next => exact arrayBody_close next bound first
  | cons v vs ih =>
      obtain ⟨bound, rfl⟩ := Nat.exists_eq_succ_of_ne_zero (Nat.ne_of_gt (Nat.zero_lt_of_lt hBound))
      have hBound := Nat.lt_of_succ_lt_succ hBound
      rw [List.mapM_cons]
      cases hSpells with
      | first hItem hItems =>
          obtain ⟨c, r, hNext, hOpen⟩ := hItem.item_head
          rw [arrayBody_first_eq .read item bound hNext hOpen, ← hNext]
          exact (h hItem).bind fun a => (ih hItems hBound).bind fun as => gives_ok (a :: as) rest
      | next comma hItem hItems =>
          obtain ⟨c, r, hNext, hOpen⟩ := hItem.item_head
          rw [arrayBody_next_eq .read item bound comma hNext hOpen, ← hNext]
          exact (h hItem).bind fun a => (ih hItems hBound).bind fun as => gives_ok (a :: as) rest

/-- A reader of lists takes arrays of what its item reader takes. -/
theorem DecodesAt.list {depth : Nat} {item : Reader α} {decode : Json → Option α}
    (h : ∀ below, below + 1 = depth → DecodesAt below item decode) :
    DecodesAt depth (Json.list item) (list? decode) := by
  intro s rest v hSpells
  obtain ⟨c, t, hNext, hOpens⟩ := hSpells.head
  have hOther (hOpen : c ≠ '[') : ∃ fault, Json.list item s = .error fault := by
    simp only [Json.list, nextToken_of_skipSpace hNext, bind, Except.bind]
    split
    · rename_i hBracket
      exact absurd (List.cons.inj hBracket).1 hOpen
    · exact wrongKind_error _ _
  cases v with
  | array items =>
      obtain ⟨below, t, hNext, hItems, hBelow⟩ := spells_array hSpells
      have hLength := hItems.length_lt
      simp only [Json.list, nextToken_of_skipSpace hNext]
      exact DecodesAt.arrayBody (h below hBelow) hItems (by omega)
  | _ => exact hOther (ne_of_opensWith hOpens rfl)

theorem Decodes.list {item : Reader α} {decode : Json → Option α} (h : Decodes item decode) :
    Decodes (Json.list item) (list? decode) :=
  fun _ => DecodesAt.list fun below _ => h.within below

/-! ### Records -/

/-- A field is set once, by what its reader takes. -/
theorem DecodesAt.field {depth : Nat} {read : Reader α} {decode : Json → Option α}
    (h : DecodesAt depth read decode) (name : String) (required : Bool) (get : σ → Option α)
    (set : σ → α → σ) (state : σ) :
    DecodesAt depth ((Field.of name required get set read).read state) fun v =>
      (decode v).map (set state) :=
  fun _ _ _ hSpells => (h hSpells).map (set state)

theorem Decodes.field {read : Reader α} {decode : Json → Option α} (h : Decodes read decode)
    (name : String) (required : Bool) (get : σ → Option α) (set : σ → α → σ) (state : σ) :
    Decodes ((Field.of name required get set read).read state) fun v => (decode v).map (set state) :=
  fun depth => DecodesAt.field (h.within depth) name required get set state

namespace Shape

variable (shape : Shape σ α) (cell : String → σ → Json → Option σ)

/-- The state with a member of an object in it. A field may not be set twice; members
with other names do not matter. -/
def setMember (state : σ) (m : String × Json) : Option σ :=
  match shape.fields.find? fun f => f.name.toList == m.1.toList with
  | some f => if f.isSet state then none else cell f.name state m.2
  | none => some state

/-- Fields set from the items of an array in their order. Only fields that are not
required may be missing at the end, and nothing may follow. -/
def fromItems : List (Field σ) → σ → List Json → Option σ
  | [], state, [] => some state
  | [], _, _ :: _ => none
  | f :: fields, state, [] => if f.required then none else fromItems fields state []
  | f :: fields, state, v :: vs => cell f.name state v >>= (fromItems fields · vs)

/-- The record that a value decodes to. -/
def decode : Json → Option α
  | .object members => do (shape.build (← members.foldlM (shape.setMember cell) shape.blank)).toOption
  | .array items => do (shape.build (← fromItems cell shape.fields shape.blank items)).toOption
  | _ => none

variable {shape : Shape σ α} {cell : String → σ → Json → Option σ}

/-- The record that an object decodes to was built from its members. -/
theorem decode_object {members : List (String × Json)} {a : α} :
    shape.decode cell (.object members) = some a ↔
      ∃ final, members.foldlM (shape.setMember cell) shape.blank = some final ∧
        shape.build final = .ok a := by
  refine Option.bind_eq_some_iff.trans (exists_congr fun final => and_congr_right fun _ => ?_)
  cases shape.build final with
  | ok b => exact ⟨fun h => congrArg _ (Option.some.inj h), fun h => congrArg _ (Except.ok.inj h)⟩
  | error name => exact ⟨nofun, nofun⟩

theorem member_decodes {depth : Nat}
    (h : ∀ f ∈ shape.fields, ∀ state, DecodesAt depth (f.read state) (cell f.name state))
    {s rest : List Char} {m : String × Json} (hSpells : SpellsMember depth s m rest) :
    ∃ t u cs, skipSpace s = '"' :: t ∧ stringBody .read t = .ok (cs, u) ∧
      ∀ state, Gives (shape.member cs state u) rest (shape.setMember cell state m) := by
  cases hSpells with
  | member next quoted colon spells =>
      refine ⟨_, _, _, next, quoted, fun state => ?_⟩
      rename_i cs _ _ _
      simp only [Shape.member, setMember, String.toList_ofList]
      cases hFind : shape.fields.find? fun f => f.name.toList == cs with
      | none =>
          simp only [colon_of_skipSpace colon, spells.skipValue_eq, bind, Except.bind]
          exact gives_ok state rest
      | some f =>
          dsimp only
          split
          · exact ⟨_, rfl⟩
          · rw [colon_of_skipSpace colon]
            exact h f (List.mem_of_find?_eq_some hFind) state spells

/-- Members are read one after another into the state that they decode to. -/
theorem objectBody_decodes {depth : Nat}
    (h : ∀ f ∈ shape.fields, ∀ state, DecodesAt depth (f.read state) (cell f.name state))
    {bound : Nat} {first : Bool} {s rest : List Char} {members : List (String × Json)}
    (state : σ) (hSpells : SpellsMembers depth first s members rest) (hBound : members.length < bound) :
    Gives (objectBody .read shape.member bound first state s) rest
      (members.foldlM (shape.setMember cell) state) := by
  induction members generalizing bound first s state with
  | nil =>
      obtain ⟨bound, rfl⟩ := Nat.exists_eq_succ_of_ne_zero (Nat.ne_of_gt hBound)
      cases hSpells with
      | close next => exact objectBody_close next bound first state
  | cons m more ih =>
      obtain ⟨bound, rfl⟩ := Nat.exists_eq_succ_of_ne_zero (Nat.ne_of_gt (Nat.zero_lt_of_lt hBound))
      have hBound := Nat.lt_of_succ_lt_succ hBound
      rw [List.foldlM_cons]
      cases hSpells with
      | first hMember hMore =>
          obtain ⟨t, u, cs, hNext, hName, hGives⟩ := member_decodes h hMember
          rw [objectBody_first_eq shape.member bound state hNext hName]
          exact (hGives state).bind fun next => ih next hMore hBound
      | next comma hMember hMore =>
          obtain ⟨t, u, cs, hNext, hName, hGives⟩ := member_decodes h hMember
          rw [objectBody_next_eq shape.member bound state comma hNext hName]
          exact (hGives state).bind fun next => ih next hMore hBound

/-- What goes on does not close. -/
theorem closeArray_error {s t : List Char} {c : Char} (hNext : skipSpace s = c :: t)
    (hOpen : c ≠ ']') : ∃ fault, closeArray s = .error fault := by
  unfold closeArray
  split
  · exact ⟨_, rfl⟩
  · rename_i hClose
    rw [hNext] at hClose
    exact absurd (List.cons.inj hClose).1 hOpen
  · split <;> exact ⟨_, rfl⟩
  · exact ⟨_, rfl⟩

theorem elements_close (f : Field σ) (fields : List (Field σ)) (index : Nat) (first : Bool)
    (state : σ) {s r : List Char} (hNext : skipSpace s = ']' :: r) :
    shape.elements (f :: fields) index first state s =
      if f.required then failAt (.wrongLength index shape.measure) r
      else shape.elements fields (index + 1) first state (']' :: r) := by
  rw [elements, hNext]
  rfl

/-- The first element of a record needs no comma. -/
theorem elements_first_eq (f : Field σ) (fields : List (Field σ)) (index : Nat) (state : σ)
    {s r : List Char} {c : Char} (hNext : skipSpace s = c :: r) (hOpen : c ≠ ']') :
    shape.elements (f :: fields) index true state s = (do
      let (state, r) ← f.read state (c :: r)
      shape.elements fields (index + 1) false state r) := by
  rw [elements, hNext]
  split
  · rename_i hEnd
    cases hEnd
  · rename_i hEnd
    exact absurd (List.cons.inj hEnd).1 hOpen
  · rename_i hSame
    cases hSame
    exact if_pos rfl

theorem elements_next_eq (f : Field σ) (fields : List (Field σ)) (index : Nat) (state : σ)
    {s r t : List Char} {c : Char} (hComma : skipSpace s = ',' :: t) (hNext : skipSpace t = c :: r)
    (hOpen : c ≠ ']') :
    shape.elements (f :: fields) index false state s = (do
      let (state, r) ← f.read state (c :: r)
      shape.elements fields (index + 1) false state r) := by
  rw [elements, hComma]
  simp only [Char.reduceEq, imp_self, Bool.false_eq_true, if_false, if_true, hNext]
  split
  · rename_i hEnd
    cases hEnd
  · rename_i hEnd
    exact absurd (List.cons.inj hEnd).1 hOpen
  · rfl

/-- Items of an array are read in the order of the fields. -/
theorem elements_decodes {depth : Nat} {fields : List (Field σ)}
    (h : ∀ f ∈ fields, ∀ state, DecodesAt depth (f.read state) (cell f.name state))
    {first : Bool} {s rest : List Char} {items : List Json} (index : Nat) (state : σ)
    (hSpells : SpellsItems depth first s items rest) :
    Gives (shape.elements fields index first state s) rest (fromItems cell fields state items) := by
  induction fields generalizing first s items index state with
  | nil =>
      rw [elements]
      cases hSpells with
      | close next =>
          simp only [closeArray, next, bind, Except.bind]
          exact gives_ok state rest
      | first item items =>
          obtain ⟨c, t, hNext, hOpen⟩ := item.item_head
          obtain ⟨fault, hFault⟩ := closeArray_error hNext hOpen
          rw [hFault]
          exact ⟨fault, rfl⟩
      | next comma item items =>
          obtain ⟨fault, hFault⟩ := closeArray_error comma (by decide)
          rw [hFault]
          exact ⟨fault, rfl⟩
  | cons f fields ih =>
      have hField := h f List.mem_cons_self
      have hFields : ∀ g ∈ fields, ∀ state, DecodesAt depth (g.read state) (cell g.name state) :=
        fun g hg => h g (List.mem_cons_of_mem f hg)
      cases hSpells with
      | close next =>
          rw [elements_close f fields index first state next, fromItems]
          split
          · exact ⟨_, rfl⟩
          · exact ih hFields (index + 1) state (.close (skipSpace_of_head (by decide) rest))
      | first item items =>
          obtain ⟨c, t, hNext, hOpen⟩ := item.item_head
          rw [elements_first_eq f fields index state hNext hOpen, ← hNext]
          exact (hField state item).bind fun next => ih hFields (index + 1) next items
      | next comma item items =>
          obtain ⟨c, t, hNext, hOpen⟩ := item.item_head
          rw [elements_next_eq f fields index state comma hNext hOpen, ← hNext]
          exact (hField state item).bind fun next => ih hFields (index + 1) next items

end Shape

/-- The end of a record, when its members or its items have been read. -/
theorem build_decodes (shape : Shape σ α) {result : Except Fault (σ × List Char)} {rest : List Char}
    {decoded : Option σ} (h : Gives result rest decoded) :
    Gives (do
      let (state, r) ← result
      match shape.build state with
      | .ok a => .ok (a, r)
      | .error name => failAt (.missingField name) r) rest
      (decoded >>= fun state => (shape.build state).toOption) := by
  refine h.bind fun state => ?_
  dsimp only
  cases shape.build state with
  | ok a => exact gives_ok a rest
  | error name => exact ⟨_, rfl⟩

/-- A record is decoded from its members or its items, if its fields are. -/
theorem DecodesAt.record {depth : Nat} {shape : Shape σ α} {cell : String → σ → Json → Option σ}
    (h : ∀ below, below + 1 = depth →
      ∀ f ∈ shape.fields, ∀ state, DecodesAt below (f.read state) (cell f.name state)) :
    DecodesAt depth (Json.record shape) (shape.decode cell) := by
  intro s rest v hSpells
  obtain ⟨c, t, hNext, hOpens⟩ := hSpells.head
  have hOther (hBrace : c ≠ '{') (hBracket : c ≠ '[') :
      ∃ fault, Json.record shape s = .error fault := by
    simp only [Json.record, nextToken_of_skipSpace hNext, bind, Except.bind]
    split
    · rename_i hOpen
      exact absurd (List.cons.inj hOpen).1 hBrace
    · rename_i hOpen
      exact absurd (List.cons.inj hOpen).1 hBracket
    · obtain ⟨fault, hFault⟩ := wrongKind_error shape.title (c :: t)
      rw [hFault]
      exact ⟨fault, rfl⟩
  cases v with
  | array items =>
      obtain ⟨below, t, hNext, hItems, hBelow⟩ := spells_array hSpells
      simp only [Json.record, nextToken_of_skipSpace hNext]
      exact build_decodes shape (Shape.elements_decodes (h below hBelow) 0 shape.blank hItems)
  | object members =>
      obtain ⟨below, t, hNext, hMembers, hBelow⟩ := spells_object hSpells
      have hLength := hMembers.length_lt
      simp only [Json.record, nextToken_of_skipSpace hNext]
      exact build_decodes shape
        (Shape.objectBody_decodes (h below hBelow) shape.blank hMembers (by omega))
  | _ => exact hOther (ne_of_opensWith hOpens rfl) (ne_of_opensWith hOpens rfl)

/-- A record is read from objects and from arrays, as its fields are. -/
theorem Decodes.record {shape : Shape σ α} {cell : String → σ → Json → Option σ}
    (h : ∀ f ∈ shape.fields, ∀ state, Decodes (f.read state) (cell f.name state)) :
    Decodes (Json.record shape) (shape.decode cell) :=
  fun _ => DecodesAt.record fun below _ f hf state => (h f hf state).within below

/-! ### Whole texts -/

/-- A text that is JSON is decoded by its value. -/
theorem DecodesAt.finish {read : Reader α} {decode : Json → Option α}
    (h : DecodesAt maxDepth read decode) {text : List Char} {v : Json} (hParse : parse text = .ok v) (a : α) :
    finish read text = .ok a ↔ decode v = some a := by
  obtain ⟨rest, hSpells, hRest⟩ := parse_spells hParse
  have hGives := h hSpells
  unfold Json.finish
  cases hDecode : decode v with
  | some b =>
      rw [hDecode] at hGives
      rw [show read text = .ok (b, rest) from hGives]
      simp only [bind, Except.bind, hRest, Option.some_inj]
      exact ⟨Except.ok.inj, congrArg Except.ok⟩
  | none =>
      rw [hDecode] at hGives
      obtain ⟨fault, hFault⟩ := hGives
      rw [hFault]
      exact ⟨nofun, nofun⟩

theorem Decodes.finish {read : Reader α} {decode : Json → Option α} (h : Decodes read decode)
    {text : List Char} {v : Json} (hParse : parse text = .ok v) (a : α) :
    finish read text = .ok a ↔ decode v = some a :=
  (h.within maxDepth).finish hParse a

end LintRepair.Json
