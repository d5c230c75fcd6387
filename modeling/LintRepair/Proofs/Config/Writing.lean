import LintRepair.Proofs.Config.Blocks
import LintRepair.Proofs.Config.Tables
import LintRepair.Proofs.Repair.Encoding

/-! One way to write a sheet in each format: JSON on one line, TOML with each statement on a line, and
YAML with its blocks as shallow as they may be. It is good for all texts that print in ASCII. -/

namespace LintRepair.Config

open Toml (Statement WritesDocument WritesStatement)
open Yaml (IsWord Stacked isAllowed spaces)

/-! ### Documents -/

/-- What is between the quotes of a text; quotes and backslashes are escaped. -/
def escaped (cs : List Char) : List Char :=
  cs.flatMap fun c => if c = '"' ∨ c = '\\' then ['\\', c] else [c]

/-- A text in quotes, for TOML and YAML alike. -/
def quoted (text : String) : List Char := '"' :: (escaped text.toList ++ ['"'])

/-- Entries one below another at a column. -/
def stack (column : Nat) : List (List Char) → List Char
  | [] => []
  | [t] => t
  | t :: u :: ts => t ++ ('\n' :: spaces column ++ stack column (u :: ts))

/-- A text of a row in YAML. -/
def pairText (m : String × String) : List Char := m.1.toList ++ ':' :: (spaces 1 ++ quoted m.2)

/-- A row in YAML, beside its hyphen. -/
def itemText (column : Nat) (r : List (String × String)) : List Char :=
  '-' :: (spaces 1 ++ stack (column + 2) (r.map pairText))

/-- A value in YAML behind its colon. -/
def datumText (column : Nat) : Datum → List Char
  | .count n => spaces 1 ++ Nat.toDigits 10 n.toNat
  | .truth b => spaces 1 ++ (if b then "true" else "false").toList
  | .rows [] => spaces 1 ++ ['[', ']']
  | .rows (r :: rs) => '\n' :: spaces column ++ stack column ((r :: rs).map (itemText column))

def memberText (column : Nat) (m : String × Datum) : List Char :=
  m.1.toList ++ ':' :: datumText column m.2

/-- A value in TOML; tables have no text of their own. -/
def valueText : Toml → List Char
  | .string s => quoted s
  | .integer n => Nat.toDigits 10 n.toNat
  | .boolean b => (if b then "true" else "false").toList
  | _ => ['[', ']']

/-- A line of TOML. -/
def statementText : Statement → List Char
  | .entry name v => name.toList ++ ([' '] ++ '=' :: ([' '] ++ valueText v))
  | .header name => '[' :: '[' :: (name.toList ++ [']', ']'])

namespace Sheet

def json (sheet : Sheet) : String :=
  String.ofList (Json.object (sheet.map fun m => (m.1, m.2.toJson))).compact

def toml (sheet : Sheet) : String :=
  String.ofList ((sheet.flatMap fun m => m.2.statements m.1).flatMap fun st => statementText st ++ ['\n'])

def yaml (sheet : Sheet) : String := String.ofList (stack 0 (sheet.map (memberText 0)))

end Sheet

/-! ### What can be written -/

/-- A character of ASCII that prints. -/
def IsPrintable (c : Char) : Prop := 0x20 ≤ c.toNat ∧ c.toNat ≤ 0x7E

/-- All texts of the targets print in ASCII. -/
def Contents.IsPrintable (c : Contents) : Prop :=
  ∀ t ∈ c.targets, ∀ text ∈ [t.pattern, t.check, t.fix], ∀ ch ∈ text.toList, Config.IsPrintable ch

instance (ch : Char) : Decidable (IsPrintable ch) := inferInstanceAs (Decidable (_ ∧ _))

instance (c : Contents) : Decidable c.IsPrintable :=
  decidable_of_iff (c.targets.all fun t => [t.pattern, t.check, t.fix].all fun text =>
    text.toList.all fun ch => decide (IsPrintable ch)) (by simp [Contents.IsPrintable])

/-- The names of members and of the texts of a row. -/
def names : List String :=
  ["maxIterations", "parallel", "targets", "pattern", "ecosystem", "check", "fix"]

/-- A row of printable texts under known names. -/
def IsWritable (r : List (String × String)) : Prop :=
  r ≠ [] ∧ ∀ m ∈ r, m.1 ∈ names ∧ ∀ c ∈ m.2.toList, IsPrintable c

/-- A member with a known name, and with writable rows if it has any. -/
def IsWritableMember (m : String × Datum) : Prop :=
  m.1 ∈ names ∧ ∀ rs, m.2 = .rows rs → ∀ r ∈ rs, IsWritable r

theorem isPrintable_of_isAlphanum {c : Char} (h : c.isAlphanum = true) : IsPrintable c := by
  have hKind : (c.isUpper || c.isLower || c.isDigit) = true := h
  rw [Bool.or_eq_true, Bool.or_eq_true] at hKind
  rcases hKind with (hUpper | hLower) | hDigit
  · have hRange : 65 ≤ c.toNat ∧ c.toNat ≤ 90 := by
      simpa [UInt32.le_iff_toNat_le] using of_decide_eq_true hUpper
    exact ⟨by omega, by omega⟩
  · have hBoth : (decide (97 ≤ c.val) && decide (c.val ≤ 122)) = true := hLower
    have hRange : 97 ≤ c.toNat ∧ c.toNat ≤ 122 := by simpa [UInt32.le_iff_toNat_le] using hBoth
    exact ⟨by omega, by omega⟩
  · have hRange := Json.toNat_of_isDigit hDigit
    exact ⟨by omega, by omega⟩

/-- The texts of a printable target can be written in any order. -/
theorem isWritable_of_row {c : Contents} (hPrint : c.IsPrintable) {t : Target} (ht : t ∈ c.targets)
    {r : List (String × String)} (h : r.Perm (row t)) : IsWritable r := by
  have hTexts := hPrint t ht
  simp only [List.forall_mem_cons] at hTexts
  obtain ⟨hPattern, hCheck, hFix, -⟩ := hTexts
  have hTag : ∀ ch ∈ t.ecosystem.tag.toList, IsPrintable ch := by
    have hAll : t.ecosystem.tag.toList.all Char.isAlphanum = true := by
      cases t.ecosystem <;> decide +kernel
    exact fun ch hch => isPrintable_of_isAlphanum (List.all_eq_true.mp hAll ch hch)
  have hRow : ∀ m ∈ row t, m.1 ∈ names ∧ ∀ ch ∈ m.2.toList, IsPrintable ch := by
    simp only [row, List.forall_mem_cons]
    exact ⟨⟨by simp [names], hPattern⟩, ⟨by simp [names], hTag⟩, ⟨by simp [names], hCheck⟩,
      ⟨by simp [names], hFix⟩, List.forall_mem_nil _⟩
  refine ⟨?_, fun m hm => hRow m (h.subset hm)⟩
  rintro rfl
  cases h.symm.eq_nil

/-- Printable contents make a sheet that can be written, however they are arranged. -/
theorem Arranges.isWritable {c : Contents} (hPrint : c.IsPrintable) {sheet : Sheet}
    (h : Arranges c sheet) : sheet ≠ [] ∧ ∀ m ∈ sheet, IsWritableMember m := by
  obtain ⟨hRows, hSheet⟩ := h
  refine ⟨?_, fun m hm => ⟨?_, fun rs hRs r hr => ?_⟩⟩
  · rintro rfl
    have hNone := hSheet.symm.eq_nil
    simp [Contents.members] at hNone
  · exact List.mem_append_left _ (name_of_members (hSheet.subset hm))
  · obtain ⟨name, d⟩ := m
    obtain rfl : d = .rows rs := hRs
    obtain rfl := rows_of_members (hSheet.subset hm)
    obtain ⟨t, ht, hPerm⟩ := Json.exists_of_forall₂ hRows hr
    exact isWritable_of_row hPrint ht hPerm

/-! ### Names and texts -/

/-- The names of members and texts are plain words, short enough for a key in YAML. -/
theorem word_of_names : ∀ name ∈ names, IsWord name.toList ∧ Text.utf8Length name.toList ≤ 1024 := by
  have hAll : (names.all fun name => !name.toList.isEmpty && name.toList.all Char.isAlphanum &&
      decide (Text.utf8Length name.toList ≤ 1024)) = true := by decide +kernel
  intro name hName
  have hOne := List.all_eq_true.mp hAll name hName
  rw [Bool.and_eq_true, Bool.and_eq_true, Bool.not_eq_true', List.isEmpty_eq_false_iff,
    decide_eq_true_eq] at hOne
  exact ⟨⟨hOne.1.1, List.all_eq_true.mp hOne.1.2⟩, hOne.2⟩

theorem IsPrintable.isAllowed {c : Char} (h : IsPrintable c) : isAllowed c = true := by
  simp [Yaml.isAllowed, h.1, h.2]

/-- What prints in ASCII may stand in a basic string. -/
theorem IsPrintable.isText {c : Char} (h : IsPrintable c) : Toml.isText c = true := by
  obtain ⟨hLow, hHigh⟩ := h
  have hDelete : c.toNat ≠ 0x7F := by omega
  simp [Toml.isText, hLow, hDelete]

theorem IsPrintable.not_isBreak {c : Char} (h : IsPrintable c) : Yaml.isBreak c = false := by
  have hOther (d : Char) (hd : ¬ (0x20 ≤ d.toNat ∧ d.toNat ≤ 0x7E)) : c ≠ d := by
    rintro rfl
    exact hd h
  simp [Yaml.isBreak, hOther]

theorem escaped_cons (c : Char) (cs : List Char) :
    escaped (c :: cs) = (if c = '"' ∨ c = '\\' then ['\\', c] else [c]) ++ escaped cs := rfl

/-- In both formats escaped letters are the letters themselves: quotes and backslashes are escaped
alike, and nothing else is. -/
theorem letters_escaped {cs : List Char} (h : ∀ c ∈ cs, IsPrintable c) :
    Toml.WritesLetters (escaped cs) cs ∧ Yaml.WritesLetters (escaped cs) cs := by
  induction cs with
  | nil => exact ⟨.nil, .nil⟩
  | cons c cs ih =>
      obtain ⟨hc, hcs⟩ := List.forall_mem_cons.mp h
      obtain ⟨hToml, hYaml⟩ := ih hcs
      rw [escaped_cons]
      split
      · rename_i hMark
        refine ⟨.cons (.short ?_) hToml, .cons (.short ?_) hYaml⟩
        · rcases hMark with rfl | rfl <;> rfl
        · rcases hMark with rfl | rfl <;> rfl
      · rename_i hMark
        obtain ⟨hQuote, hEscape⟩ := not_or.mp hMark
        exact ⟨.cons (.plain hc.isText hQuote hEscape) hToml,
          .cons (.plain hQuote hEscape hc.not_isBreak) hYaml⟩

theorem isPrintable_escaped {cs : List Char} (h : ∀ c ∈ cs, IsPrintable c) :
    ∀ c ∈ escaped cs, IsPrintable c := by
  intro d hd
  obtain ⟨c, hc, hd⟩ := List.mem_flatMap.mp hd
  split at hd
  · rcases List.mem_cons.mp hd with rfl | hd
    · exact ⟨by decide, by decide⟩
    · rw [List.mem_singleton.mp hd]
      exact h c hc
  · rw [List.mem_singleton.mp hd]
    exact h c hc

/-! ### YAML -/

theorem isAllowed_spaces (n : Nat) : ∀ c ∈ spaces n, isAllowed c = true := by
  intro c hc
  rw [Yaml.mem_spaces hc]
  rfl

/-- Words hold no character that YAML refuses. -/
theorem isAllowed_word {w : List Char} (hw : IsWord w) : ∀ c ∈ w, isAllowed c = true :=
  fun c hc => (isPrintable_of_isAlphanum (hw.2 c hc)).isAllowed

/-- A line feed and some spaces lead to a column. -/
theorem breaks_feed (column : Nat) : Yaml.Breaks column ('\n' :: spaces column) :=
  .rest (.blank 0) (by simp [spaces]) .feed .indent

/-- Entries that are written one below another stand at the column. -/
theorem stacked_stack {α : Type} {Writes : List Char → α → Prop} {f : α → List Char} (column : Nat)
    {as : List α} (hSome : as ≠ []) (h : ∀ a ∈ as, Writes (f a) a ∧ ∀ c ∈ f a, isAllowed c = true) :
    Stacked column Writes (stack column (as.map f)) as ∧
      ∀ c ∈ stack column (as.map f), isAllowed c = true := by
  induction as with
  | nil => exact absurd rfl hSome
  | cons a as ih =>
      obtain ⟨⟨hWrites, hAllowed⟩, hMore⟩ := List.forall_mem_cons.mp h
      cases as with
      | nil => exact ⟨.last hWrites, hAllowed⟩
      | cons b bs =>
          obtain ⟨hStacked, hRest⟩ := ih (List.cons_ne_nil b bs) hMore
          refine ⟨.more hWrites (breaks_feed column) hStacked, ?_⟩
          simp only [List.map_cons, stack, List.forall_mem_append, List.forall_mem_cons]
          exact ⟨hAllowed, ⟨rfl, isAllowed_spaces column⟩, hRest⟩

theorem writesPair_pairText {m : String × String} (hName : m.1 ∈ names)
    (hText : ∀ c ∈ m.2.toList, IsPrintable c) :
    WritesPair (pairText m) m ∧ ∀ c ∈ pairText m, isAllowed c = true := by
  obtain ⟨hWord, hShort⟩ := word_of_names m.1 hName
  refine ⟨.pair 0 (.plain hWord hShort) (letters_escaped hText).2, ?_⟩
  simp only [pairText, quoted, List.forall_mem_append, List.forall_mem_cons]
  exact ⟨isAllowed_word hWord, rfl, isAllowed_spaces 1, rfl,
    fun c hc => (isPrintable_escaped hText c hc).isAllowed, rfl, List.forall_mem_nil _⟩

/-- A row below a hyphen is written as an item, with its texts in their order. -/
theorem writesItem_itemText (column : Nat) {r : List (String × String)} (h : IsWritable r) :
    WritesItem column (itemText column r) r ∧ ∀ c ∈ itemText column r, isAllowed c = true := by
  obtain ⟨hRow, hAllowed⟩ := stacked_stack (column + 2) h.1
    fun m hm => writesPair_pairText (h.2 m hm).1 (h.2 m hm).2
  refine ⟨.beside 0 hRow, ?_⟩
  simp only [itemText, List.forall_mem_append, List.forall_mem_cons]
  exact ⟨rfl, isAllowed_spaces 1, hAllowed⟩

/-- What a member holds is written in block style, and an empty list in brackets. -/
theorem writesDatum_datumText (column : Nat) {d : Datum}
    (hRows : ∀ rs, d = .rows rs → ∀ r ∈ rs, IsWritable r) :
    WritesDatum column (datumText column d) d ∧ ∀ c ∈ datumText column d, isAllowed c = true := by
  cases d with
  | count value =>
      exact ⟨.count 0 value, List.forall_mem_append.mpr
        ⟨isAllowed_spaces 1, isAllowed_word (Yaml.isWord_toDigits _)⟩⟩
  | truth b =>
      exact ⟨.truth 0 b, List.forall_mem_append.mpr
        ⟨isAllowed_spaces 1, isAllowed_word (isWord_flag b)⟩⟩
  | rows rs =>
      cases rs with
      | nil => exact ⟨.nothing 0 0, by simp [datumText, spaces, isAllowed]⟩
      | cons r rs =>
          obtain ⟨hItems, hAllowed⟩ := stacked_stack column (List.cons_ne_nil r rs)
            fun r hr => writesItem_itemText column (hRows _ rfl r hr)
          refine ⟨.items (Nat.le_refl column) (breaks_feed column) hItems, ?_⟩
          simp only [datumText, List.forall_mem_append, List.forall_mem_cons]
          exact ⟨⟨rfl, isAllowed_spaces column⟩, hAllowed⟩

theorem writesMember_memberText (column : Nat) {m : String × Datum} (h : IsWritableMember m) :
    WritesMember column (memberText column m) m ∧ ∀ c ∈ memberText column m, isAllowed c = true := by
  obtain ⟨hName, hRows⟩ := h
  obtain ⟨hWord, hShort⟩ := word_of_names m.1 hName
  obtain ⟨hDatum, hAllowed⟩ := writesDatum_datumText column hRows
  refine ⟨.member (.plain hWord hShort) hDatum, ?_⟩
  simp only [memberText, List.forall_mem_append, List.forall_mem_cons]
  exact ⟨isAllowed_word hWord, rfl, hAllowed⟩

/-- Every sheet that can be written has a YAML document. -/
theorem Sheet.writesYaml_yaml {sheet : Sheet} (hSome : sheet ≠ [])
    (h : ∀ m ∈ sheet, IsWritableMember m) : sheet.WritesYaml sheet.yaml.toList := by
  obtain ⟨hMembers, hAllowed⟩ := stacked_stack 0 hSome fun m hm => writesMember_memberText 0 (h m hm)
  have hWrites : sheet.WritesYaml (spaces 0 ++ (stack 0 (sheet.map (memberText 0)) ++ spaces 0)) :=
    .document .indent hMembers (.blank 0) (by simpa [spaces] using hAllowed)
  rw [Sheet.yaml, String.toList_ofList]
  simpa [spaces] using hWrites

/-! ### TOML -/

theorem writesKey_name {name : String} (h : name ∈ names) : Toml.WritesKey name.toList name :=
  have hWord := (word_of_names name h).1
  .bare hWord.1 fun c hc => by rw [Toml.isBare, hWord.2 c hc]; rfl

/-- A name that is known and a value make a line of TOML. -/
theorem writesStatement_entry {name : String} {v : Toml} (hName : name ∈ names)
    (hValue : Toml.WritesValue (valueText v) v) :
    WritesStatement (statementText (.entry name v)) (.entry name v) :=
  have hSpace : Toml.Blanks [' '] := List.forall_mem_singleton.mpr rfl
  .entry (writesKey_name hName) hSpace hSpace hValue

/-- A member is an entry, or headers with the entries of their tables. -/
theorem writesStatement_of_member {m : String × Datum} (h : IsWritableMember m) :
    ∀ st ∈ m.2.statements m.1, WritesStatement (statementText st) st := by
  obtain ⟨name, d⟩ := m
  obtain ⟨hName, hRows⟩ := h
  have hOne {v : Toml} (hValue : Toml.WritesValue (valueText v) v) :
      ∀ st ∈ [Statement.entry name v], WritesStatement (statementText st) st :=
    List.forall_mem_singleton.mpr (writesStatement_entry hName hValue)
  cases d with
  | count value => exact hOne (.count value.toNat)
  | truth b =>
      cases b with
      | true => exact hOne .yes
      | false => exact hOne .no
  | rows rs =>
      cases rs with
      | nil => exact hOne (.nothing (List.forall_mem_nil _))
      | cons r rs =>
          intro st hst
          obtain ⟨row, hRow, hst⟩ := List.mem_flatMap.mp hst
          rcases List.mem_cons.mp hst with rfl | hst
          · exact .header (List.forall_mem_nil _) (writesKey_name hName) (List.forall_mem_nil _)
          · obtain ⟨m, hm, rfl⟩ := List.mem_map.mp hst
            obtain ⟨hKey, hText⟩ := (hRows _ rfl row hRow).2 m hm
            exact writesStatement_entry hKey (.string (letters_escaped hText).1)

theorem writesDocument_lines {statements : List Statement}
    (h : ∀ st ∈ statements, WritesStatement (statementText st) st) :
    WritesDocument (statements.flatMap fun st => statementText st ++ ['\n']) statements := by
  induction statements with
  | nil => exact .nil (.blank (List.forall_mem_nil _))
  | cons st statements ih =>
      obtain ⟨hStatement, hMore⟩ := List.forall_mem_cons.mp h
      have hDocument := WritesDocument.cons (List.forall_mem_nil _) hStatement
        (.blank (List.forall_mem_nil _)) .feed (ih hMore)
      simpa using hDocument

/-- Every sheet that can be written and has its tables last has a TOML document. -/
theorem Sheet.writesToml_toml {sheet : Sheet} (hLast : sheet.TablesLast)
    (h : ∀ m ∈ sheet, IsWritableMember m) : sheet.WritesToml sheet.toml.toList := by
  refine ⟨hLast, ?_⟩
  rw [Sheet.toml, String.toList_ofList]
  refine writesDocument_lines fun st hst => ?_
  obtain ⟨m, hm, hst⟩ := List.mem_flatMap.mp hst
  exact writesStatement_of_member (h m hm) st hst

/-! ### JSON -/

theorem Datum.exact_toJson (d : Datum) (depth : Nat) : Json.Exact (depth + 2) d.toJson := by
  cases d with
  | count value => exact Json.exact_count value
  | truth b => exact .bool b
  | rows rs =>
      refine .array fun v hv => ?_
      obtain ⟨r, -, rfl⟩ := List.mem_map.mp hv
      refine .object fun m hm => ?_
      obtain ⟨text, -, rfl⟩ := List.mem_map.mp hm
      exact .string _

/-- Every sheet has a JSON document. -/
theorem Sheet.writesJson_json (sheet : Sheet) : sheet.WritesJson sheet.json.toList := by
  have hExact : Json.Exact (126 + 1) (.object (sheet.map fun m => (m.1, m.2.toJson))) := by
    refine .object fun m hm => ?_
    obtain ⟨m, -, rfl⟩ := List.mem_map.mp hm
    exact m.2.exact_toJson 124
  rw [Sheet.json, String.toList_ofList]
  exact hExact.writesText_compact

end LintRepair.Config
