import LintRepair.Proofs.Config.Sheet
import LintRepair.Proofs.Yaml.Blocks
import LintRepair.Proofs.Yaml.Building

/-! Configurations as YAML documents in blocks. Targets are items below their key, at its column or
deeper, or brackets around nothing, and their texts stand in double quotes; a document that says this is
read as the configuration. -/

namespace LintRepair

open Yaml (Breaks Document Ends IsWord Leads Node Reads ReadsValue Stacked Style Token WritesKey
  WritesLetters isAllowed spaces)
open Yaml.Build (Builds BuildsEntry BuildsItem)

/-! ### Numbers and flags -/

namespace Yaml

theorem isWord_toDigits (n : Nat) : IsWord (Nat.toDigits 10 n) := by
  obtain ⟨c, ds, hDigits, -⟩ := Json.toDigits_eq_cons n
  refine ⟨by simp [hDigits], fun c hc => ?_⟩
  rw [Char.isAlphanum, Json.isDigit_toDigits n c hc, Bool.or_true]

theorem hexValue?_of_isDigit {c : Char} (h : c.isDigit = true) :
    hexValue? c = some (c.toNat - '0'.toNat) := by
  have hRange : '0' ≤ c ∧ c ≤ '9' := by
    simpa [Char.isDigit, Char.le_def, UInt32.le_iff_toNat_le] using h
  rw [hexValue?, if_pos hRange]

theorem numeral?_digits {ds : List Char} (hSome : ds ≠ []) (h : ∀ c ∈ ds, c.isDigit = true) :
    numeral? 10 ds = some (Nat.ofDigitChars 10 ds 0) := by
  have hEach : List.Forall₂ (fun c d => hexValue? c = some d) ds
      (ds.map fun c => c.toNat - '0'.toNat) :=
    List.forall₂_map_right_iff.mpr (List.forall₂_same.mpr fun c hc => hexValue?_of_isDigit (h c hc))
  have hRead : ds.mapM hexValue? = some (ds.map fun c => c.toNat - '0'.toNat) :=
    Json.mapM_of_forall₂ (fun _ _ hc => hc) hEach
  have hSmall : (ds.map fun c => c.toNat - '0'.toNat).any (10 ≤ ·) = false := by
    rw [List.any_eq_false]
    intro d hd
    obtain ⟨c, hc, rfl⟩ := List.mem_map.mp hd
    have hRange := Json.toNat_of_isDigit (h c hc)
    have hZero : '0'.toNat = 48 := rfl
    simp only [hZero, decide_eq_true_eq]
    omega
  have hFold (n : Nat) : (ds.map fun c => c.toNat - '0'.toNat).foldl (fun n d => n * 10 + d) n =
      Nat.ofDigitChars 10 ds n := by
    clear hEach hRead hSmall h hSome
    induction ds generalizing n with
    | nil => rfl
    | cons c ds ih =>
        rw [List.map_cons, List.foldl_cons, ih, Nat.ofDigitChars_cons, Nat.mul_comm 10 n]
  have hEmpty : (ds.map fun c => c.toNat - '0'.toNat).isEmpty = false := by
    rw [List.isEmpty_map]
    exact List.isEmpty_eq_false_iff.mpr hSome
  rw [numeral?, hRead]
  simp only [Option.bind_eq_bind, Option.bind_some]
  rw [hEmpty, hSmall, hFold]
  rfl

/-- A number that is written in decimal digits is read back. -/
theorem natural?_toDigits (n : Nat) : natural? (Nat.toDigits 10 n) = some n := by
  have hValue : Nat.ofDigitChars 10 (Nat.toDigits 10 n) 0 = n := Nat.ofDigitChars_ten_toDigits
  obtain ⟨c, ds, hDigits, hc, hZero⟩ := Json.toDigits_eq_cons n
  have hNumeral := numeral?_digits (by simp [hDigits]) (Json.isDigit_toDigits n)
  rw [hValue] at hNumeral
  rw [hDigits] at hNumeral ⊢
  unfold natural?
  split
  · rename_i hPlus
    cases hPlus
    cases hc
  · dsimp only
    split
    -- a zero in front would mark another base
    · rename_i hMark; cases hMark; cases hZero rfl
    · rename_i hMark; cases hMark; cases hZero rfl
    · rename_i hMark; cases hMark; cases hZero rfl
    · rename_i hMark; cases hMark; cases hZero rfl
    · exact hNumeral

end Yaml

namespace Config

/-! ### Sheets as blocks -/

/-- A text of a row behind its name, in double quotes. -/
inductive WritesPair : List Char → String × String → Prop where
  | pair {k t : List Char} {style : Style} {name text : String} (n : Nat) (key : WritesKey k style name)
      (letters : WritesLetters t text.toList) :
      WritesPair (k ++ ':' :: (spaces (n + 1) ++ '"' :: (t ++ ['"']))) (name, text)

/-- A row behind the hyphen of its item, beside it or below. -/
inductive WritesItem (column : Nat) : List Char → List (String × String) → Prop where
  | beside {t : List Char} {r : List (String × String)} (n : Nat)
      (row : Stacked (column + 2 + n) WritesPair t r) :
      WritesItem column ('-' :: (spaces (n + 1) ++ t)) r
  | below {inner : Nat} {gap t : List Char} {r : List (String × String)} (deeper : column < inner)
      (breaks : Breaks inner gap) (row : Stacked inner WritesPair t r) :
      WritesItem column ('-' :: (gap ++ t)) r

/-- The value of a member behind the colon of its key. -/
inductive WritesDatum (column : Nat) : List Char → Datum → Prop where
  | count (n : Nat) (value : UInt32) :
      WritesDatum column (spaces (n + 1) ++ Nat.toDigits 10 value.toNat) (.count value)
  | truth (n : Nat) (b : Bool) :
      WritesDatum column (spaces (n + 1) ++ (if b then "true" else "false").toList) (.truth b)
  | nothing (n m : Nat) : WritesDatum column (spaces (n + 1) ++ '[' :: (spaces m ++ [']'])) (.rows [])
  | items {inner : Nat} {gap t : List Char} {rs : List (List (String × String))}
      (reaches : column ≤ inner) (breaks : Breaks inner gap)
      (items : Stacked inner (WritesItem inner) t rs) : WritesDatum column (gap ++ t) (.rows rs)

/-- A member: its key and its value. -/
inductive WritesMember (column : Nat) : List Char → String × Datum → Prop where
  | member {k t : List Char} {style : Style} {name : String} {value : Datum}
      (key : WritesKey k style name) (datum : WritesDatum column t value) :
      WritesMember column (k ++ ':' :: t) (name, value)

/-- A YAML document that has just the members of a sheet, in its order. -/
inductive Sheet.WritesYaml (sheet : Sheet) : List Char → Prop where
  | document {column : Nat} {lead t tail : List Char} (leads : Leads column lead)
      (members : Stacked column (WritesMember column) t sheet) (ends : Ends tail)
      (allowed : ∀ c ∈ lead ++ (t ++ tail), isAllowed c = true) :
      WritesYaml sheet (lead ++ (t ++ tail))

/-! ### The nodes of a sheet -/

/-- An entry whose key is a name and whose value is a node of a kind. -/
inductive IsEntry {α : Type} (IsValue : α → Node → Prop) : String × α → Node × Node → Prop where
  | entry {style : Style} {name : String} {a : α} {v : Node} (value : IsValue a v) :
      IsEntry IsValue (name, a) (.scalar none style name, v)

def IsText (text : String) (n : Node) : Prop := n = .scalar none .doubleQuoted text

/-- A row as a mapping of its texts. -/
inductive IsRow : List (String × String) → Node → Prop where
  | row {r : List (String × String)} {entries : List (Node × Node)}
      (texts : List.Forall₂ (IsEntry IsText) r entries) : IsRow r (.mapping none entries)

/-- The value of a member. -/
inductive IsDatum : Datum → Node → Prop where
  | count (value : UInt32) :
      IsDatum (.count value) (.scalar none .plain (String.ofList (Nat.toDigits 10 value.toNat)))
  | truth (b : Bool) : IsDatum (.truth b) (.scalar none .plain (if b then "true" else "false"))
  | rows {rs : List (List (String × String))} {nodes : List Node}
      (items : List.Forall₂ IsRow rs nodes) : IsDatum (.rows rs) (.sequence none nodes)

/-- What is related over something in between, one after another, is so over a list of it. -/
theorem exists_of_forall₂_exists {α β γ : Type} {P : α → γ → Prop} {Q : β → γ → Prop} {as : List α}
    {bs : List β} (h : List.Forall₂ (fun a b => ∃ c, P a c ∧ Q b c) as bs) :
    ∃ cs, List.Forall₂ P as cs ∧ List.Forall₂ Q bs cs := by
  induction h with
  | nil => exact ⟨[], .nil, .nil⟩
  | cons hHead _ ih =>
      obtain ⟨c, hP, hQ⟩ := hHead
      obtain ⟨cs, hPs, hQs⟩ := ih
      exact ⟨c :: cs, .cons hP hPs, .cons hQ hQs⟩

variable {column : Nat} {t : List Char}

/-- A text of a row gives a key, a colon and the text, whatever stands around it. -/
theorem WritesPair.reads {m : String × String} (h : WritesPair t m) :
    ∃ ts, (∃ entry, IsEntry IsText m entry ∧ BuildsEntry ts entry) ∧
      Reads column .blockMappingStart t ts := by
  obtain ⟨n, key, letters⟩ := h
  exact ⟨_, ⟨_, .entry rfl, .entry (.scalar true .doubleQuoted _)⟩, .entry key (.quoted n letters)⟩

/-- The row of an item, wherever it begins. -/
theorem reads_row {r : List (String × String)} (h : Stacked column WritesPair t r) :
    ∃ ts n, IsRow r n ∧ Builds false (.blockMappingStart :: (ts ++ [.blockEnd])) n ∧
      Reads column .blockMappingStart t ts := by
  obtain ⟨tss, hTokens, hReads⟩ := h.reads fun _ _ => WritesPair.reads
  obtain ⟨entries, hTexts, hBuilds⟩ := exists_of_forall₂_exists hTokens
  exact ⟨_, _, .row hTexts, .mapping false hBuilds, hReads⟩

theorem WritesItem.reads {r : List (String × String)} (h : WritesItem column t r) :
    ∃ ts, (∃ n, IsRow r n ∧ BuildsItem ts n) ∧ Reads column .blockSequenceStart t ts := by
  cases h with
  | beside n row =>
      obtain ⟨ts, n, hRow, hBuilds, hReads⟩ := reads_row row
      exact ⟨_, ⟨n, hRow, .item hBuilds⟩, hReads.beside⟩
  | below deeper breaks row =>
      obtain ⟨ts, n, hRow, hBuilds, hReads⟩ := reads_row row
      exact ⟨_, ⟨n, hRow, .item hBuilds⟩, .below deeper breaks hReads⟩

theorem stacked_ne_nil {α : Type} {Writes : List Char → α → Prop} {as : List α}
    (h : Stacked column Writes t as) : as ≠ [] := by
  cases h <;> simp

theorem isWord_flag (b : Bool) : IsWord (if b then "true" else "false").toList := by
  cases b
  · exact ⟨by decide, List.all_eq_true.mp (by decide +kernel)⟩
  · exact ⟨by decide, List.all_eq_true.mp (by decide +kernel)⟩

/-- What a member holds is read as one node, on the line of its name or below it. -/
theorem WritesDatum.reads {d : Datum} (h : WritesDatum column t d) :
    ∃ ts n, IsDatum d n ∧ Builds true ts n ∧ ReadsValue column t ts := by
  cases h with
  | count n value =>
      exact ⟨_, _, .count value, .scalar true .plain _, .word n (Yaml.isWord_toDigits _)⟩
  | truth n b =>
      have hWord : ReadsValue column _ _ := .word n (isWord_flag b)
      rw [String.ofList_toList] at hWord
      exact ⟨_, _, .truth b, .scalar true .plain _, hWord⟩
  | nothing n m => exact ⟨_, _, .rows .nil, .brackets true, .brackets n m⟩
  | items reaches breaks items =>
      obtain ⟨tss, hTokens, hReads⟩ := items.reads fun _ _ => WritesItem.reads
      obtain ⟨nodes, hRows, hBuilds⟩ := exists_of_forall₂_exists hTokens
      rcases Nat.lt_or_eq_of_le reaches with hDeeper | rfl
      · exact ⟨_, _, .rows hRows, .sequence true hBuilds, .deeper hDeeper breaks hReads⟩
      · have hSome : tss ≠ [] := by
          rintro rfl
          cases hTokens
          exact stacked_ne_nil items rfl
        exact ⟨_, _, .rows hRows, .items hBuilds hSome, .level breaks hReads⟩

/-- A member gives the tokens of its name and of what it holds. -/
theorem WritesMember.reads {m : String × Datum} (h : WritesMember column t m) :
    ∃ ts, (∃ entry, IsEntry IsDatum m entry ∧ BuildsEntry ts entry) ∧
      Reads column .blockMappingStart t ts := by
  obtain ⟨key, datum⟩ := h
  obtain ⟨ts, n, hDatum, hBuilds, hReads⟩ := datum.reads
  exact ⟨_, ⟨_, .entry hDatum, .entry hBuilds⟩, .entry key hReads⟩

/-- The document of a sheet is the mapping of its members. -/
theorem Sheet.WritesYaml.parse_eq {sheet : Sheet} {text : List Char} (h : sheet.WritesYaml text) :
    ∃ entries, List.Forall₂ (IsEntry IsDatum) sheet entries ∧
      Document.parse text = some ⟨.mapping none entries, []⟩ := by
  obtain ⟨leads, members, ends, allowed⟩ := h
  obtain ⟨tss, hTokens, hReads⟩ := members.reads fun _ _ => WritesMember.reads
  obtain ⟨entries, hEntries, hBuilds⟩ := exists_of_forall₂_exists hTokens
  exact ⟨entries, hEntries, Document.parse_eq (hReads.tokens?_eq leads ends allowed) hBuilds⟩

/-! ### Documents as configurations -/

section Fields

variable {α : Type} {IsValue : α → Node → Prop} {l : List (String × α)}

/-- What stands under a name, if anything, stands there in the mapping of a list. -/
theorem exists_field {named : List (String × Node)}
    (h : List.Forall₂ (fun m e => m.1 = e.1 ∧ IsValue m.2 e.2) l named) {name : String} {a : Option α}
    (hField : l.filter (·.1 == name) = (a.map fun a => (name, a)).toList) :
    ∃ v : Option Node, named.filter (·.1 == name) = (v.map fun n => (name, n)).toList ∧
      Option.Rel IsValue a v := by
  have hFilter : List.Forall₂ (fun m e => m.1 = e.1 ∧ IsValue m.2 e.2) (l.filter (·.1 == name))
      (named.filter (·.1 == name)) :=
    List.rel_filter (fun m e hSame => by simp only [hSame.1]) h
  rw [hField] at hFilter
  generalize named.filter (·.1 == name) = found at hFilter ⊢
  cases a with
  | none =>
      cases hFilter
      exact ⟨none, rfl, .none⟩
  | some a =>
      obtain _ | ⟨⟨rfl, hValue⟩, _ | _⟩ := hFilter
      exact ⟨_, rfl, .some hValue⟩

/-- The mapping of a list gives for each name what the list has under it. -/
theorem exists_row {entries : List (Node × Node)} (h : List.Forall₂ (IsEntry IsValue) l entries)
    (d : Document) {names : List String} {fields : List (Option α)}
    (hFields : List.Forall₂ (fun name a => l.filter (·.1 == name) = (a.map fun a => (name, a)).toList)
      names fields) :
    ∃ values, List.Forall₂ (Option.Rel IsValue) fields values ∧
      d.row? names (.mapping none entries) = some values := by
  have hNamed : ∃ named : List (String × Node),
      List.Forall₂ (fun m e => m.1 = e.1 ∧ IsValue m.2 e.2) l named ∧
        List.Forall₂ (fun e m => (d.string? e.1).map (fun name => (name, e.2)) = some m) entries named := by
    refine exists_of_forall₂_exists (h.imp fun m e hEntry => ?_)
    obtain ⟨hValue⟩ := hEntry
    exact ⟨_, ⟨rfl, hValue⟩, rfl⟩
  obtain ⟨named, hSame, hRead⟩ := hNamed
  obtain ⟨values, hValues, hRel⟩ := exists_of_forall₂_exists (hFields.imp fun _ _ => exists_field hSame)
  refine ⟨values, hRel, ?_⟩
  have hEntries := Json.mapM_of_forall₂ (fun _ _ hEntry => hEntry) hRead
  rw [Document.row?]
  simp only [Document.resolve, Option.bind_eq_bind, Option.bind_some, hEntries]
  refine Json.mapM_of_forall₂ (fun name v hField => ?_) hValues
  rw [hField]
  cases v <;> rfl

end Fields

/-- A row of the four texts decodes to its target, in whatever order they stand. -/
theorem target?_of_isRow {t : Target} {r : List (String × String)} (h : r.Perm (row t)) {n : Node}
    (hRow : IsRow r n) (d : Document) : d.target? n = some t := by
  obtain ⟨texts⟩ := hRow
  have hText {name text : String} (hName : (name, text) ∈ row t) : r.filter (·.1 == name) =
      ((some text).map fun text => (name, text)).toList := filter_of_row h hName
  obtain ⟨values, hValues, hFields⟩ := exists_row texts d
    (.cons (hText (.head _)) (.cons (hText (.tail _ (.head _)))
      (.cons (hText (.tail _ (.tail _ (.head _))))
        (.cons (hText (.tail _ (.tail _ (.tail _ (.head _))))) .nil))))
  obtain _ | ⟨⟨rfl⟩, _ | ⟨⟨rfl⟩, _ | ⟨⟨rfl⟩, _ | ⟨⟨rfl⟩, _ | _⟩⟩⟩⟩ := hValues
  have hTag : Ecosystem.ofTag? t.ecosystem.tag = some t.ecosystem := by
    cases t.ecosystem <;> rfl
  rw [Document.target?, hFields]
  simp [Document.string?, Document.ecosystem?, Document.resolve, Document.localName?, hTag]

theorem word32?_of_isDatum {value : UInt32} {n : Node} (h : IsDatum (.count value) n) (d : Document) :
    d.word32? n = some value := by
  obtain ⟨⟩ := h
  have hUntyped : d.untyped? "tag:yaml.org,2002:int"
      (.scalar none .plain (String.ofList (Nat.toDigits 10 value.toNat))) =
        some (String.ofList (Nat.toDigits 10 value.toNat)) := rfl
  rw [Document.word32?, hUntyped]
  simp only [Option.bind_eq_bind, Option.bind_some, String.toList_ofList, Yaml.natural?_toDigits]
  rw [if_pos value.toNat_lt, UInt32.ofNat_toNat]

theorem boolean?_of_isDatum {b : Bool} {n : Node} (h : IsDatum (.truth b) n) (d : Document) :
    d.boolean? n = some b := by
  obtain ⟨⟩ := h
  cases b <;> rfl

/-- What two lists are related to one after another, they relate one after another. -/
theorem forall₂_of_forall₂ {α β γ : Type} {P : α → β → Prop} {Q : α → γ → Prop} {as : List α}
    {bs : List β} {cs : List γ} (hP : List.Forall₂ P as bs) (hQ : List.Forall₂ Q as cs) :
    List.Forall₂ (fun b c => ∃ a, P a b ∧ Q a c) bs cs := by
  induction hP generalizing cs with
  | nil =>
      cases hQ
      exact .nil
  | cons hHead _ ih =>
      obtain _ | ⟨hFirst, hMore⟩ := hQ
      exact .cons ⟨_, hHead, hFirst⟩ (ih hMore)

theorem exists_items_of_isDatum {targets : List Target} {rs : List (List (String × String))}
    (hRows : List.Forall₂ (fun r t => List.Perm r (row t)) rs targets) {n : Node}
    (h : IsDatum (.rows rs) n) (d : Document) :
    ∃ nodes, d.items? n = some nodes ∧ nodes.mapM d.target? = some targets := by
  obtain _ | _ | ⟨items⟩ := h
  refine ⟨_, rfl, ?_⟩
  refine Json.mapM_of_forall₂ (fun n t hEach => ?_) (forall₂_of_forall₂ items hRows)
  obtain ⟨r, hRow, hPerm⟩ := hEach
  exact target?_of_isRow hPerm hRow d

/-- Entries of the members of a configuration decode to it, in whatever order they stand. -/
theorem config?_of_entries {c : Contents} {sheet : Sheet} (h : Arranges c sheet)
    {entries : List (Node × Node)} (hEntries : List.Forall₂ (IsEntry IsDatum) sheet entries) :
    Document.config? ⟨.mapping none entries, []⟩ = some c.config := by
  obtain ⟨hRows, hSheet⟩ := h
  have hSays := says_of_perm hSheet
  have hField {β : Type} (name : String) (v : Option β) (g : β → Datum) :
      (v.map fun b => (name, g b)).toList = ((v.map g).map fun a => (name, a)).toList := by
    cases v <;> rfl
  obtain ⟨values, hValues, hFields⟩ := exists_row hEntries ⟨.mapping none entries, []⟩
    (.cons (hSays.limit.trans (hField _ _ _)) (.cons (hSays.parallel.trans (hField _ _ _))
      (.cons (hSays.targets.trans (hField _ (some _) Datum.rows)) .nil)))
  obtain ⟨limit, parallel, targets⟩ := c
  obtain _ | ⟨hLimit, _ | ⟨hParallel, _ | ⟨⟨hTargets⟩, _ | _⟩⟩⟩ := hValues
  obtain ⟨nodes, hItems, hTargets⟩ :=
    exists_items_of_isDatum hRows hTargets ⟨.mapping none entries, []⟩
  rw [Document.config?, hFields]
  cases limit with
  | none =>
      cases hLimit
      cases parallel with
      | none =>
          cases hParallel
          simp [Contents.config, hItems, hTargets]
      | some flag =>
          obtain ⟨hTruth⟩ := hParallel
          simp [Contents.config, boolean?_of_isDatum hTruth, hItems, hTargets]
  | some limit =>
      obtain ⟨hCount⟩ := hLimit
      cases parallel with
      | none =>
          cases hParallel
          simp [Contents.config, word32?_of_isDatum hCount, hItems, hTargets]
      | some flag =>
          obtain ⟨hTruth⟩ := hParallel
          simp [Contents.config, word32?_of_isDatum hCount, boolean?_of_isDatum hTruth, hItems, hTargets]

/-- A YAML document with these contents is read as their configuration. -/
theorem parseConfig_of_writesYaml {c : Contents} {sheet : Sheet} (h : Arranges c sheet)
    {text : List Char} (hText : sheet.WritesYaml text) : Yaml.parseConfig text = some c.config := by
  obtain ⟨entries, hEntries, hParse⟩ := hText.parse_eq
  rw [Yaml.parseConfig, hParse, Option.bind_some]
  exact config?_of_entries h hEntries

end Config

end LintRepair
