import LintRepair.Proofs.Json.Trimming
import LintRepair.Proofs.Report.Locality
import LintRepair.Proofs.Text.Occurrences

/-! What a stream of messages says. A record gives its message by the members that are looked up, in
whatever order they stand and whatever else is between them, and the diagnostics of a text that holds
one record in each line are those its messages tell. -/

namespace LintRepair

namespace Json

/-- Members that are held stay so when others are taken away. -/
theorem Holds.filter {name : String} {v : Json} {members : List (String × Json)}
    (h : Holds name v members) {p : String × Json → Bool} (hp : p (name, v) = true) :
    Holds name v (members.filter p) := by
  obtain ⟨front, back⟩ := h
  rw [List.filter_append, List.filter_cons_of_pos hp]
  exact .amid (fun m hm => front m (List.mem_filter.mp hm).1) fun m hm => back m (List.mem_filter.mp hm).1

end Json

namespace Report.MessageStream

open Json (Exact Holds Lacks WritesText)
open Text (Lined)

/-! ### Records -/

/-- Members that give a thing by its name, or a fixed one without that name. -/
inductive GivesOr {α : Type} (write : α → Json) (missing : α) (name : String)
    (members : List (String × Json)) : α → Prop where
  | absent (lacks : Lacks name members) : GivesOr write missing name members missing
  | present {a : α} (holds : Holds name (write a) members) : GivesOr write missing name members a

/-- Members that give a list of things by an array of this name, or none without that name. -/
inductive GivesList {α : Type} (Gives : Json → α → Prop) (name : String)
    (members : List (String × Json)) : List α → Prop where
  | absent (lacks : Lacks name members) : GivesList Gives name members []
  | present {items : List Json} {as : List α} (holds : Holds name (.array items) members)
      (gives : List.Forall₂ Gives items as) : GivesList Gives name members as

/-- An object that gives a place. It is primary only if it says so. -/
inductive GivesSpan : Json → Span → Prop where
  | object {members : List (String × Json)} {s : Span}
      (file : Holds "file_name" (.string s.file) members)
      (line : Holds "line_start" (.count s.line) members)
      (column : Holds "column_start" (.count s.column) members)
      (primary : GivesOr .bool false "is_primary" members s.primary) : GivesSpan (.object members) s

/-- An object that gives a note. -/
inductive GivesNote : Json → Note → Prop where
  | object {members : List (String × Json)} {n : Note}
      (level : GivesOr .string "" "level" members n.level)
      (message : GivesOr .string "" "message" members n.message) : GivesNote (.object members) n

/-- Members that give the name of a lint, which may be missing or `null`. -/
inductive GivesCode (members : List (String × Json)) : Option String → Prop where
  | absent (lacks : Lacks "code" members) : GivesCode members none
  | null (holds : Holds "code" .null members) : GivesCode members none
  | named {inner : List (String × Json)} {name : String} (holds : Holds "code" (.object inner) members)
      (code : Holds "code" (.string name) inner) : GivesCode members (some name)

/-- An object that gives a message. -/
inductive GivesMessage : Json → CompilerMessage → Prop where
  | object {members : List (String × Json)} {m : CompilerMessage}
      (message : Holds "message" (.string m.message) members)
      (level : Holds "level" (.string m.level) members) (code : GivesCode members m.code)
      (spans : GivesList GivesSpan "spans" members m.spans)
      (notes : GivesList GivesNote "children" members m.notes) : GivesMessage (.object members) m

/-- A line with the record of a message. -/
inductive WritesRecord (line : List Char) (m : CompilerMessage) : Prop where
  | record {members : List (String × Json)} {v : Json} (inside : '\n' ∉ line)
      (writes : WritesText line (.object members))
      (reason : Holds "reason" (.string "compiler-message") members)
      (message : Holds "message" v members) (gives : GivesMessage v m) : WritesRecord line m

/-! ### Decoding -/

theorem GivesOr.orElse? {α : Type} {write : α → Json} {missing : α} {name : String}
    {members : List (String × Json)} {a : α} (h : GivesOr write missing name members a)
    {item : Json → Option α} (hItem : ∀ a, item (write a) = some a) :
    ∃ cell, Json.member? name members = some cell ∧ Json.orElse? missing item cell = some a := by
  cases h with
  | absent lacks => exact ⟨none, Json.member?_of_lacks lacks, rfl⟩
  | present holds => exact ⟨_, Json.member?_of_holds holds, hItem a⟩

theorem GivesList.orElse? {α : Type} {Gives : Json → α → Prop} {name : String}
    {members : List (String × Json)} {as : List α} (h : GivesList Gives name members as)
    {item : Json → Option α} (hItem : ∀ v a, Gives v a → item v = some a) :
    ∃ cell, Json.member? name members = some cell ∧
      Json.orElse? [] (Json.list? item) cell = some as := by
  cases h with
  | absent lacks => exact ⟨none, Json.member?_of_lacks lacks, rfl⟩
  | present holds gives => exact ⟨_, Json.member?_of_holds holds, Json.mapM_of_forall₂ hItem gives⟩

theorem GivesCode.orElse? {members : List (String × Json)} {code : Option String}
    (h : GivesCode members code) :
    ∃ cell, Json.member? "code" members = some cell ∧ Json.orElse? none code? cell = some code := by
  cases h with
  | absent lacks => exact ⟨none, Json.member?_of_lacks lacks, rfl⟩
  | null holds => exact ⟨_, Json.member?_of_holds holds, rfl⟩
  | named holds code =>
      refine ⟨_, Json.member?_of_holds holds, ?_⟩
      simp [Json.orElse?, code?, Json.row?, Json.member?_of_holds code, Json.string?]

/-- An object that gives a place is read as it. -/
theorem GivesSpan.ofJson? {v : Json} {s : Span} (h : GivesSpan v s) : Span.ofJson? v = some s := by
  have hBool (b : Bool) : Json.bool? (.bool b) = some b := rfl
  obtain ⟨file, line, column, primary⟩ := h
  obtain ⟨cell, hMember, hCell⟩ := primary.orElse? hBool
  simp [Span.ofJson?, Json.row?, Json.member?_of_holds file, Json.member?_of_holds line,
    Json.member?_of_holds column, hMember, hCell, Json.string?, Json.word32?_count]

theorem GivesNote.ofJson? {v : Json} {n : Note} (h : GivesNote v n) : Note.ofJson? v = some n := by
  have hString (s : String) : Json.string? (.string s) = some s := rfl
  obtain ⟨level, message⟩ := h
  obtain ⟨_, hLevel, hLevelCell⟩ := level.orElse? hString
  obtain ⟨_, hMessage, hMessageCell⟩ := message.orElse? hString
  simp [Note.ofJson?, Json.row?, hLevel, hLevelCell, hMessage, hMessageCell]

/-- An object that gives a message is read as it. -/
theorem GivesMessage.ofJson? {v : Json} {m : CompilerMessage} (h : GivesMessage v m) :
    CompilerMessage.ofJson? v = some m := by
  obtain ⟨message, level, code, spans, notes⟩ := h
  obtain ⟨_, hCode, hCodeCell⟩ := code.orElse?
  obtain ⟨_, hSpans, hSpansCell⟩ := spans.orElse? fun _ _ => GivesSpan.ofJson?
  obtain ⟨_, hNotes, hNotesCell⟩ := notes.orElse? fun _ _ => GivesNote.ofJson?
  simp [CompilerMessage.ofJson?, Json.row?, Json.member?_of_holds message, Json.member?_of_holds level,
    Json.string?, hCode, hCodeCell, hSpans, hSpansCell, hNotes, hNotesCell]

/-- A line with a record is read as its message, whatever blanks stand around it. -/
theorem WritesRecord.message? {line : List Char} {m : CompilerMessage} (h : WritesRecord line m) :
    MessageStream.message? (Text.trim line) = some m := by
  obtain ⟨inside, writes, reason, message, gives⟩ := h
  have hMessage := message.filter (p := fun m => m.1 != "reason") (by simp)
  simp [MessageStream.message?, Json.parse_eq_ok_iff.mpr writes.trim, reason?,
    Json.member?_of_holds reason, Json.string?, Json.row?, Json.member?_of_holds hMessage,
    gives.ofJson?]

/-! ### Diagnostics -/

/-- The first place that is primary. -/
inductive FirstPrimary (s : Span) : List Span → Prop where
  | amid {before after : List Span} (earlier : ∀ b ∈ before, b.primary = false)
      (primary : s.primary = true) : FirstPrimary s (before ++ s :: after)

/-- What a diagnostic says of a message and of its place. -/
structure Tells (m : CompilerMessage) (s : Span) (d : Diagnostic) : Prop where
  file : d.file = s.file
  line : d.line = max s.line 1
  column : d.column = max s.column 1
  named : ∀ name, m.code = some name → name ≠ "" → d.rule = name
  unnamed : m.code = none ∨ m.code = some "" → d.rule = "clippy"
  severity : d.severity = .error ↔ m.level = "error"
  message : d.message = m.message
  fixable : d.fixable = true ↔
    ∃ n ∈ m.notes, n.level = "help" ∧ "did you mean".toList <:+: n.message.toList

/-- The diagnostics of some messages: one for each that has a primary place, in their order. -/
inductive Told : List CompilerMessage → List Diagnostic → Prop where
  | nil : Told [] []
  | silent {m : CompilerMessage} {ms : List CompilerMessage} {ds : List Diagnostic}
      (none : ∀ s ∈ m.spans, s.primary = false) (rest : Told ms ds) : Told (m :: ms) ds
  | told {m : CompilerMessage} {ms : List CompilerMessage} {s : Span} {d : Diagnostic}
      {ds : List Diagnostic} (first : FirstPrimary s m.spans) (tells : Tells m s d)
      (rest : Told ms ds) : Told (m :: ms) (d :: ds)

/-- A suggestion is a help that asks whether something else was meant. -/
theorem CompilerMessage.hasSuggestion_iff (m : CompilerMessage) : m.hasSuggestion = true ↔
    ∃ n ∈ m.notes, n.level = "help" ∧ "did you mean".toList <:+: n.message.toList := by
  have hWords : "did you mean".toList = suggestion := rfl
  rw [hWords]
  simp only [CompilerMessage.hasSuggestion, List.any_eq_true, Bool.and_eq_true, beq_iff_eq,
    Text.hasInfix_iff]

theorem firstPrimary_of_find? {spans : List Span} {s : Span} (h : spans.find? Span.primary = some s) :
    FirstPrimary s spans := by
  obtain ⟨hPrimary, before, after, rfl, hEarlier⟩ := List.find?_eq_some_iff_append.mp h
  exact .amid (fun b hb => by simpa using hEarlier b hb) hPrimary

/-- A message in front of others is told in front of them, if it has a primary place. -/
theorem CompilerMessage.told (m : CompilerMessage) {ms : List CompilerMessage} {ds : List Diagnostic}
    (h : Told ms ds) : Told (m :: ms) (m.diagnostic?.toList ++ ds) := by
  unfold CompilerMessage.diagnostic?
  cases hFind : m.spans.find? Span.primary with
  | none =>
      refine .silent (fun s hs => ?_) h
      simpa using List.find?_eq_none.mp hFind s hs
  | some s =>
      refine .told (firstPrimary_of_find? hFind) ⟨rfl, rfl, rfl, ?_, ?_, ?_, rfl, ?_⟩ h
      · intro name hCode hSome
        simp [CompilerMessage.rule, hCode, hSome]
      · rintro (hCode | hCode) <;> simp [CompilerMessage.rule, hCode, unnamedRule]
      · by_cases hLevel : m.level = "error" <;> simp [hLevel]
      · exact m.hasSuggestion_iff

/-- A line with a record gives what its message gives. -/
theorem WritesRecord.ownDiagnostics_eq {line : List Char} {m : CompilerMessage}
    (h : WritesRecord line m) : ownDiagnostics line = m.diagnostic?.toList := by
  have hMessage := h.message?
  obtain ⟨inside⟩ := h
  rw [MessageStream.ownDiagnostics_eq inside, lineDiagnostic?, hMessage]
  rfl

/-- Lines with records tell their messages in order. -/
theorem told_of_records {lines : List (List Char)} {records : List CompilerMessage}
    (h : List.Forall₂ WritesRecord lines records) : Told records (lines.flatMap ownDiagnostics) := by
  induction h with
  | nil => exact .nil
  | @cons line m _ _ hRecord _ ih =>
      rw [List.flatMap_cons, hRecord.ownDiagnostics_eq]
      exact m.told ih

theorem FirstPrimary.exists {s : Span} {spans : List Span} (h : FirstPrimary s spans) :
    ∃ s ∈ spans, s.primary = true := by
  obtain ⟨-, primary⟩ := h
  exact ⟨s, List.mem_append_right _ List.mem_cons_self, primary⟩

/-- A message is told exactly if one of its places is primary. -/
theorem Told.ne_nil_iff {m : CompilerMessage} {ds : List Diagnostic} (h : Told [m] ds) :
    ds ≠ [] ↔ ∃ s ∈ m.spans, s.primary = true := by
  cases h with
  | silent none rest =>
      cases rest
      refine iff_of_false (fun hSome => hSome rfl) ?_
      rintro ⟨s, hs, hPrimary⟩
      exact Bool.false_ne_true ((none s hs).symm.trans hPrimary)
  | told first => exact iff_of_true (List.cons_ne_nil _ _) first.exists

/-- A line with a record has a diagnostic exactly if some place of its message is primary, and it is
told of the message and the first such place. A text with one record in each line has the diagnostics
of its records one after another. -/
theorem records_told :
    (∀ (line : List Char) (m : CompilerMessage), WritesRecord line m →
      (ownDiagnostics line ≠ [] ↔ ∃ s ∈ m.spans, s.primary = true) ∧
        Told [m] (ownDiagnostics line)) ∧
      ∀ (lines : List (List Char)) (records : List CompilerMessage) (text : String),
        List.Forall₂ WritesRecord lines records →
        Lined text.toList lines ∨ Lined text.toList (lines ++ [[]]) →
          Told records (diagnostics text) ∧ diagnostics text = lines.flatMap ownDiagnostics := by
  constructor
  · intro line m hRecord
    have hTold := told_of_records (.cons hRecord .nil)
    rw [List.flatMap_singleton] at hTold
    exact ⟨hTold.ne_nil_iff, hTold⟩
  · intro lines records text hRecords hText
    have hEmpty : ownDiagnostics [] = [] := rfl
    have hDiagnostics : diagnostics text = lines.flatMap ownDiagnostics := by
      rcases hText with hText | hText
      · exact diagnostics_of_lined hText
      · rw [diagnostics_of_lined hText, List.flatMap_append, List.flatMap_singleton, hEmpty,
          List.append_nil]
    exact ⟨hDiagnostics ▸ told_of_records hRecords, hDiagnostics⟩

/-- A message with two places, the second of them primary. -/
def helpfulMessage : CompilerMessage where
  message := "m"
  level := "error"
  code := none
  spans := [⟨"a.rs", 1, 1, false⟩, ⟨"b.rs", 5, 0, true⟩]
  notes := [⟨"help", "did you mean x"⟩]

/-- Its places as values. The first one does not say that it is primary. -/
def helpfulSpans : List Json :=
  [.object [("file_name", .string "a.rs"), ("column_start", .nat 1), ("line_start", .nat 1)],
    .object [("is_primary", .bool true), ("line_start", .nat 5), ("column_start", .nat 0),
      ("file_name", .string "b.rs")]]

/-- The members of its record, with the reason at the end and a member of another name. -/
def helpfulMembers : List (String × Json) :=
  [("package_id", .null),
    ("message", .object [("spans", .array helpfulSpans),
      ("children", .array [.object [("message", .string "did you mean x"), ("level", .string "help")]]),
      ("code", .null), ("level", .string "error"), ("message", .string "m")]),
    ("reason", .string "compiler-message")]

theorem exact_helpfulMembers : Exact 127 (.object helpfulMembers) := by
  have hSpans : ∀ v ∈ helpfulSpans, Exact 124 v := by
    simp only [helpfulSpans, List.forall_mem_cons]
    refine ⟨.object ?_, .object ?_, List.forall_mem_nil _⟩ <;> simp only [List.forall_mem_cons]
    · exact ⟨.string _, .nat (by decide), .nat (by decide), List.forall_mem_nil _⟩
    · exact ⟨.bool _, .nat (by decide), .nat (by decide), .string _, List.forall_mem_nil _⟩
  refine .object ?_
  simp only [helpfulMembers, List.forall_mem_cons]
  refine ⟨.null, .object ?_, .string _, List.forall_mem_nil _⟩
  simp only [List.forall_mem_cons]
  refine ⟨.array hSpans, .array ?_, .null, .string _, .string _, List.forall_mem_nil _⟩
  simp only [List.forall_mem_singleton]
  refine .object ?_
  simp only [List.forall_mem_cons]
  exact ⟨.string _, .string _, List.forall_mem_nil _⟩

theorem writesRecord_helpful :
    WritesRecord (Json.object helpfulMembers).compact helpfulMessage := by
  have hWrites := exact_helpfulMembers.writesText_compact
  refine .record (fun hMem => ?_) hWrites (Json.holds_of_member? rfl) (Json.holds_of_member? rfl) ?_
  · exact absurd (Json.le_toNat_of_mem_compact _ hMem) (by decide)
  · refine .object (Json.holds_of_member? rfl) (Json.holds_of_member? rfl)
      (.null (Json.holds_of_member? rfl)) (.present (Json.holds_of_member? rfl) ?_)
      (.present (Json.holds_of_member? rfl) ?_)
    · refine .cons (.object (Json.holds_of_member? rfl) (Json.holds_of_member? rfl)
        (Json.holds_of_member? rfl) (.absent (by decide))) (.cons (.object (Json.holds_of_member? rfl)
        (Json.holds_of_member? rfl) (Json.holds_of_member? rfl)
        (.present (Json.holds_of_member? rfl))) .nil)
    · exact .cons (.object (.present (Json.holds_of_member? rfl)) (.present (Json.holds_of_member? rfl)))
        .nil

/-- A text of one record and a line feed. -/
theorem records_told_helpful :
    List.Forall₂ WritesRecord [(Json.object helpfulMembers).compact] [helpfulMessage] ∧
    Lined (String.ofList ((Json.object helpfulMembers).compact ++ ['\n'])).toList
      ([(Json.object helpfulMembers).compact] ++ [[]]) ∧
    ownDiagnostics (Json.object helpfulMembers).compact ≠ [] ∧
    Told [helpfulMessage]
      (diagnostics (String.ofList ((Json.object helpfulMembers).compact ++ ['\n']))) := by
  have hRecord := writesRecord_helpful
  have hRecords := List.Forall₂.cons hRecord .nil
  have hLined : Lined (String.ofList ((Json.object helpfulMembers).compact ++ ['\n'])).toList
      ([(Json.object helpfulMembers).compact] ++ [[]]) := by
    obtain ⟨inside⟩ := hRecord
    rw [String.toList_ofList]
    exact .feed inside (.last List.not_mem_nil)
  have hPrimary : ∃ s ∈ helpfulMessage.spans, s.primary = true :=
    ⟨⟨"b.rs", 5, 0, true⟩, List.mem_cons_of_mem _ List.mem_cons_self, rfl⟩
  exact ⟨hRecords, hLined, (records_told.1 _ _ hRecord).1.mpr hPrimary,
    (records_told.2 _ _ _ hRecords (.inr hLined)).1⟩

end Report.MessageStream

end LintRepair
