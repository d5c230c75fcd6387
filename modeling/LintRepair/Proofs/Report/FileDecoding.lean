import LintRepair.Proofs.Json.Cells
import LintRepair.Proofs.Json.Documents
import LintRepair.Proofs.Json.Members
import LintRepair.Proofs.Report.RelativePaths

/-! What a report by files says. Each message has one diagnostic, whatever order the members stand in
and whatever else the report holds, and one faulty message or file is enough for the whole report to be
given up. -/

namespace LintRepair.Report.FileReports

open Json (DecodesAt Decodes Exact Holds Lacks WritesText)
open Json.Shape (Faulty Found Given exists_decode)

namespace Problem

/-- What a member sets in a problem. -/
def cell (name : String) (d : Draft) (v : Json) : Option Draft :=
  if name = "ruleId" then
    (Json.optional? Json.string? v).map fun rule => { d with rule := some rule }
  else if name = "severity" then
    (Json.whole? Int64.minValue.toInt Int64.maxValue.toInt v).map fun i => { d with severity := some i }
  else if name = "message" then (Json.string? v).map fun s => { d with message := some s }
  else if name = "line" then
    (Json.optional? Json.word32? v).map fun line => { d with line := some line }
  else if name = "column" then
    (Json.optional? Json.word32? v).map fun column => { d with column := some column }
  else (Json.optional? some v).map fun edit => { d with edit := some edit }

def decode : Json → Option Problem := shape.decode cell

theorem decodesAt : DecodesAt (editDepth + 1) (Json.record shape) decode := by
  refine DecodesAt.record fun below hBelow f hf state => ?_
  obtain rfl : below = editDepth := by omega
  simp only [shape, List.mem_cons, List.not_mem_nil, or_false] at hf
  rcases hf with rfl | rfl | rfl | rfl | rfl | rfl
  · exact DecodesAt.field (Json.decodes_text.optional.within _) "ruleId" false Draft.rule _ state
  · exact DecodesAt.field (Json.decodes_signed64.within _) "severity" true Draft.severity _ state
  · exact DecodesAt.field (Json.decodes_text.within _) "message" true Draft.message _ state
  · exact DecodesAt.field (Json.decodes_word32.optional.within _) "line" false Draft.line _ state
  · exact DecodesAt.field (Json.decodes_word32.optional.within _) "column" false Draft.column _ state
  · exact DecodesAt.field (Json.decodesAt_value _).optional "fix" false Draft.edit _ state

/-- Each field is kept by itself. -/
theorem keeps : shape.Keeps cell "ruleId" Draft.rule (Json.optional? Json.string?) ∧
    shape.Keeps cell "severity" Draft.severity
      (Json.whole? Int64.minValue.toInt Int64.maxValue.toInt) ∧
    shape.Keeps cell "message" Draft.message Json.string? ∧
    shape.Keeps cell "line" Draft.line (Json.optional? Json.word32?) ∧
    shape.Keeps cell "column" Draft.column (Json.optional? Json.word32?) ∧
    shape.Keeps cell "fix" Draft.edit (Json.optional? some) := by
  refine ⟨?_, ?_, ?_, ?_, ?_, ?_⟩
  all_goals
    refine ⟨by simp [shape, Json.Field.of], by simp [shape, Json.Field.of], fun state v => ?_, ?_⟩
    · simp [cell, Option.map_map, Function.comp_def]
    · intro f hf hName state next v hSet
      simp only [shape, List.mem_cons, List.not_mem_nil, or_false] at hf
      rcases hf with rfl | rfl | rfl | rfl | rfl | rfl
      all_goals first
        | exact absurd rfl hName
        | obtain ⟨b, -, rfl⟩ := Option.map_eq_some_iff.mp hSet
          rfl

/-- The problem of an object by what its members give for each field. -/
theorem decode_of_found {members : List (String × Json)} {rule : Option (Option String)}
    {severity : Option Int} {message : Option String} {line column : Option (Option UInt32)}
    {edit : Option (Option Json)}
    (hRule : Found "ruleId" (Json.optional? Json.string?) members rule)
    (hSeverity : Found "severity" (Json.whole? Int64.minValue.toInt Int64.maxValue.toInt) members
      severity)
    (hMessage : Found "message" Json.string? members message)
    (hLine : Found "line" (Json.optional? Json.word32?) members line)
    (hColumn : Found "column" (Json.optional? Json.word32?) members column)
    (hEdit : Found "fix" (Json.optional? some) members edit) :
    decode (.object members) =
      (shape.build ⟨rule, severity, message, line, column, edit⟩).toOption := by
  obtain ⟨kRule, kSeverity, kMessage, kLine, kColumn, kEdit⟩ := keeps
  have hGiven : ∀ f ∈ shape.fields, Given shape cell members f.name := by
    simp only [shape, List.forall_mem_cons]
    exact ⟨.given kRule hRule rfl, .given kSeverity hSeverity rfl, .given kMessage hMessage rfl,
      .given kLine hLine rfl, .given kColumn hColumn rfl, .given kEdit hEdit rfl,
      List.forall_mem_nil _⟩
  obtain ⟨final, hFold, hDecode⟩ := exists_decode hGiven
  have hFinal : final = ⟨rule, severity, message, line, column, edit⟩ := by
    cases final
    rw [Draft.mk.injEq]
    exact ⟨kRule.get_eq hRule rfl hFold, kSeverity.get_eq hSeverity rfl hFold,
      kMessage.get_eq hMessage rfl hFold, kLine.get_eq hLine rfl hFold,
      kColumn.get_eq hColumn rfl hFold, kEdit.get_eq hEdit rfl hFold⟩
  rw [decode, hDecode, hFinal]

end Problem

namespace FileReport

/-- What a member sets in a file entry. -/
def cell (name : String) (d : Draft) (v : Json) : Option Draft :=
  if name = "filePath" then (Json.string? v).map fun path => { d with path := some path }
  else (Json.list? Problem.decode v).map fun problems => { d with problems := some problems }

/-- The file entry that a value decodes to. -/
def decode : Json → Option FileReport := shape.decode cell

theorem decodesAt : DecodesAt (editDepth + 3) (Json.record shape) decode := by
  refine DecodesAt.record fun below hBelow f hf state => ?_
  obtain rfl : below = editDepth + 2 := by omega
  have hProblems : DecodesAt (editDepth + 2) (Json.list (Json.record Problem.shape))
      (Json.list? Problem.decode) := by
    refine DecodesAt.list fun level hLevel => ?_
    obtain rfl : level = editDepth + 1 := by omega
    exact Problem.decodesAt
  rcases List.mem_pair.mp hf with rfl | rfl
  · exact DecodesAt.field (Json.decodes_text.within _) "filePath" true Draft.path _ state
  · exact DecodesAt.field hProblems "messages" true Draft.problems _ state

theorem keeps : shape.Keeps cell "filePath" Draft.path Json.string? ∧
    shape.Keeps cell "messages" Draft.problems (Json.list? Problem.decode) := by
  refine ⟨?_, ?_⟩
  all_goals
    refine ⟨by simp [shape, Json.Field.of], by simp [shape, Json.Field.of], fun state v => ?_, ?_⟩
    · simp [cell, Option.map_map, Function.comp_def]
    · intro f hf hName state next v hSet
      rcases List.mem_pair.mp hf with rfl | rfl
      all_goals first
        | exact absurd rfl hName
        | obtain ⟨b, -, rfl⟩ := Option.map_eq_some_iff.mp hSet
          rfl

/-- The report of an object by what its members give for the path and for the messages. -/
theorem decode_of_found {members : List (String × Json)} {path : Option String}
    {problems : Option (List Problem)} (hPath : Found "filePath" Json.string? members path)
    (hProblems : Found "messages" (Json.list? Problem.decode) members problems) :
    decode (.object members) = (shape.build ⟨path, problems⟩).toOption := by
  obtain ⟨kPath, kProblems⟩ := keeps
  have hGiven : ∀ f ∈ shape.fields, Given shape cell members f.name := by
    simp only [shape, List.forall_mem_cons]
    exact ⟨.given kPath hPath rfl, .given kProblems hProblems rfl, List.forall_mem_nil _⟩
  obtain ⟨final, hFold, hDecode⟩ := exists_decode hGiven
  have hFinal : final = ⟨path, problems⟩ := by
    cases final
    rw [Draft.mk.injEq]
    exact ⟨kPath.get_eq hPath rfl hFold, kProblems.get_eq hProblems rfl hFold⟩
  rw [decode, hDecode, hFinal]

end FileReport

/-! ### Reports as values -/

/-- A message about a file, with the edit that would fix it. -/
structure Finding where
  rule : Option String
  severity : Int64
  message : String
  line : Option UInt32
  column : Option UInt32
  fix : Option Json

/-- The messages about one file. -/
structure FileFindings where
  path : String
  findings : List Finding

/-- Members that may give a value by this name: there is none without such a member, or if the member
is `null`. -/
inductive GivesOptional (name : String) (members : List (String × Json)) : Option Json → Prop where
  | absent (lacks : Lacks name members) : GivesOptional name members none
  | null (holds : Holds name .null members) : GivesOptional name members none
  | present {v : Json} (holds : Holds name v members) (notNull : v ≠ .null) :
      GivesOptional name members (some v)

/-- An object that gives a message. -/
inductive GivesFinding : Json → Finding → Prop where
  | object {members : List (String × Json)} {x : Finding}
      (rule : GivesOptional "ruleId" members (x.rule.map .string))
      (severity : Holds "severity" (.int x.severity.toInt) members)
      (message : Holds "message" (.string x.message) members)
      (line : GivesOptional "line" members (x.line.map .count))
      (column : GivesOptional "column" members (x.column.map .count))
      (fix : GivesOptional "fix" members x.fix) : GivesFinding (.object members) x

/-- An object that gives a file and the messages about it. -/
inductive GivesFile : Json → FileFindings → Prop where
  | object {members : List (String × Json)} {f : FileFindings} {items : List Json}
      (path : Holds "filePath" (.string f.path) members)
      (messages : Holds "messages" (.array items) members)
      (gives : List.Forall₂ GivesFinding items f.findings) : GivesFile (.object members) f

theorem GivesOptional.found {α : Type} {name : String} {members : List (String × Json)}
    {write : α → Json} {a : Option α} (h : GivesOptional name members (a.map write))
    {item : Json → Option α} (hItem : ∀ a, item (write a) = some a) :
    ∃ found, Found name (Json.optional? item) members found ∧ found.join = a := by
  generalize hValue : a.map write = value at h
  cases h with
  | absent lacks =>
      rw [Option.map_eq_none_iff] at hValue
      exact ⟨none, .none lacks, hValue.symm⟩
  | null holds =>
      rw [Option.map_eq_none_iff] at hValue
      exact ⟨some none, .some holds rfl, hValue.symm⟩
  | present holds notNull =>
      obtain ⟨b, rfl, rfl⟩ := Option.map_eq_some_iff.mp hValue
      refine ⟨some (some b), .some holds ?_, rfl⟩
      rw [Json.optional?_of_ne_null notNull, hItem]
      rfl

/-- What is kept of a message. -/
def Finding.problem (x : Finding) : Problem :=
  ⟨x.rule, x.severity.toInt, x.message, x.line, x.column, x.fix.isSome⟩

/-- An object that gives a finding decodes to what is kept of it. -/
theorem GivesFinding.decode {v : Json} {x : Finding} (h : GivesFinding v x) :
    Problem.decode v = some x.problem := by
  obtain @⟨members, x, rule, severity, message, line, column, fix⟩ := h
  have fix : GivesOptional "fix" members (x.fix.map id) := by simpa using fix
  obtain ⟨_, hRule, hRuleValue⟩ := rule.found (fun s => (rfl : Json.string? (.string s) = some s))
  obtain ⟨_, hLine, hLineValue⟩ := line.found Json.word32?_count
  obtain ⟨_, hColumn, hColumnValue⟩ := column.found Json.word32?_count
  obtain ⟨_, hFix, hFixValue⟩ := fix.found (fun v => (rfl : some (id v) = some v))
  rw [Problem.decode_of_found hRule (.some severity (Json.whole?_int64 x.severity)) (.some message rfl)
    hLine hColumn hFix, Finding.problem, ← hRuleValue, ← hLineValue, ← hColumnValue, ← hFixValue]
  rfl

/-- An object that gives the findings of a file decodes to them. -/
theorem GivesFile.decode {v : Json} {f : FileFindings} (h : GivesFile v f) :
    FileReport.decode v = some ⟨f.path, f.findings.map Finding.problem⟩ := by
  obtain @⟨members, f, items, path, messages, gives⟩ := h
  have hProblems : Json.list? Problem.decode (.array items) = some (f.findings.map Finding.problem) :=
    Json.mapM_of_forall₂ (fun _ _ hItem => hItem) (List.forall₂_map_right_iff.mpr
      (gives.imp fun _ _ => GivesFinding.decode))
  rw [FileReport.decode_of_found (.some path rfl) (.some messages hProblems)]
  rfl

/-! ### Faulty reports -/

/-- A value that is no record of any kind. -/
inductive IsScalar : Json → Prop where
  | null : IsScalar .null
  | bool (b : Bool) : IsScalar (.bool b)
  | int (i : Int) : IsScalar (.int i)
  | float (negative : Bool) (m : Decimal.Binary64) : IsScalar (.float negative m)
  | string (s : String) : IsScalar (.string s)

/-- A message that lacks a member or has one of a wrong type or out of its range. -/
inductive FaultyFinding : Json → Prop where
  | kind {v : Json} (scalar : IsScalar v) : FaultyFinding v
  | severity {members : List (String × Json)}
      (faulty : Faulty true "severity" (fun v => ∃ i : Int64, v = .int i.toInt) members) :
      FaultyFinding (.object members)
  | message {members : List (String × Json)}
      (faulty : Faulty true "message" (fun v => ∃ s, v = .string s) members) :
      FaultyFinding (.object members)
  | rule {members : List (String × Json)}
      (faulty : Faulty false "ruleId" (fun v => v = .null ∨ ∃ s, v = .string s) members) :
      FaultyFinding (.object members)
  | place {members : List (String × Json)} {name : String} (isPlace : name = "line" ∨ name = "column")
      (faulty : Faulty false name (fun v => v = .null ∨ ∃ n : UInt32, v = .count n) members) :
      FaultyFinding (.object members)

/-- A file that lacks a member, has one of a wrong type, or has a faulty message. -/
inductive FaultyFile : Json → Prop where
  | kind {v : Json} (scalar : IsScalar v) : FaultyFile v
  | path {members : List (String × Json)}
      (faulty : Faulty true "filePath" (fun v => ∃ s, v = .string s) members) :
      FaultyFile (.object members)
  | messages {members : List (String × Json)}
      (faulty : Faulty true "messages" (fun v => ∃ items, v = .array items) members) :
      FaultyFile (.object members)
  | finding {members : List (String × Json)} {items : List Json} {v : Json}
      (messages : Holds "messages" (.array items) members) (mem : v ∈ items)
      (faulty : FaultyFinding v) : FaultyFile (.object members)

/-- No record is read from a scalar. -/
theorem isScalar_decode {α σ : Type} (shape : Json.Shape σ α) (cell : String → σ → Json → Option σ)
    {v : Json} (h : IsScalar v) : shape.decode cell v = none := by
  cases h <;> rfl

theorem Problem.build_ne_ok {d : Problem.Draft} (h : d.severity = none ∨ d.message = none)
    (x : Problem) : Problem.shape.build d ≠ .ok x := by
  obtain ⟨rule, severity, message, line, column, edit⟩ := d
  cases severity with
  | none => exact nofun
  | some i =>
      obtain rfl := h.resolve_left nofun
      exact nofun

/-- A faulty finding does not decode. -/
theorem FaultyFinding.decode {v : Json} (h : FaultyFinding v) : Problem.decode v = none := by
  obtain ⟨kRule, kSeverity, kMessage, kLine, kColumn, -⟩ := Problem.keeps
  cases h with
  | kind scalar => exact isScalar_decode _ _ scalar
  | severity faulty =>
      exact kSeverity.decode_of_faulty faulty (fun _ _ => Json.exists_int64_of_whole?) rfl
        fun _ d x hNone => Problem.build_ne_ok (.inl hNone) x
  | message faulty =>
      exact kMessage.decode_of_faulty faulty (fun _ _ => Json.exists_eq_string_of_string?) rfl
        fun _ d x hNone => Problem.build_ne_ok (.inr hNone) x
  | rule faulty =>
      exact kRule.decode_of_faulty faulty (Json.optional?_fits fun _ _ => Json.exists_eq_string_of_string?) rfl nofun
  | place isPlace faulty =>
      have hFits := Json.optional?_fits fun v n (hValue : Json.word32? v = some n) =>
        Exists.intro n (Json.eq_count_of_word32? hValue)
      rcases isPlace with rfl | rfl
      · exact kLine.decode_of_faulty faulty hFits rfl nofun
      · exact kColumn.decode_of_faulty faulty hFits rfl nofun

/-- A file with a faulty finding does not decode. -/
theorem FaultyFile.decode {v : Json} (h : FaultyFile v) : FileReport.decode v = none := by
  obtain ⟨kPath, kProblems⟩ := FileReport.keeps
  have hBuild {d : FileReport.Draft} (hNone : d.path = none ∨ d.problems = none) (x : FileReport) :
      FileReport.shape.build d ≠ .ok x := by
    obtain ⟨path, problems⟩ := d
    cases path with
    | none => exact nofun
    | some path =>
        obtain rfl := hNone.resolve_left nofun
        exact nofun
  have hItems (v : Json) (ps : List Problem) (hList : Json.list? Problem.decode v = some ps) :
      ∃ items, v = .array items ∧ ∀ w ∈ items, ¬ FaultyFinding w := by
    cases v with
    | array items =>
        refine ⟨items, rfl, fun w hw hFaulty => ?_⟩
        have hNone : Json.list? Problem.decode (.array items) = none :=
          Json.mapM_eq_none hw hFaulty.decode
        cases hNone.symm.trans hList
    | _ => cases hList
  cases h with
  | kind scalar => exact isScalar_decode _ _ scalar
  | path faulty =>
      exact kPath.decode_of_faulty faulty (fun _ _ => Json.exists_eq_string_of_string?) rfl
        fun _ d x hNone => hBuild (.inl hNone) x
  | messages faulty =>
      refine kProblems.decode_of_faulty faulty (fun v ps hList => ?_) rfl
        fun _ d x hNone => hBuild (.inr hNone) x
      obtain ⟨items, hArray, -⟩ := hItems v ps hList
      exact ⟨items, hArray⟩
  | @finding members items w messages mem faulty =>
      have hFaulty : Faulty false "messages"
          (fun v => ∃ items, v = .array items ∧ ∀ w ∈ items, ¬ FaultyFinding w) members := by
        refine .wrong messages ?_
        rintro ⟨_, hArray, hGood⟩
        cases hArray
        exact hGood w mem faulty
      exact kProblems.decode_of_faulty hFaulty hItems rfl nofun

/-! ### Diagnostics -/

/-- The messages about a file beside its path. -/
def FileFindings.placed (f : FileFindings) : List (String × Finding) :=
  f.findings.map fun x => (f.path, x)

/-- What a diagnostic says of a message about the file at a path, if the project lies at the root. -/
structure Tells (root : String) (placed : String × Finding) (d : Diagnostic) : Prop where
  file : IsRelative root.toList placed.1.toList d.file.toList
  line : d.line = max (placed.2.line.getD 1) 1
  column : d.column = max (placed.2.column.getD 1) 1
  rule : d.rule = placed.2.rule.getD "unknown"
  severity : d.severity = .error ↔ placed.2.severity = 2
  message : d.message = placed.2.message
  fixable : d.fixable = true ↔ ∃ v, placed.2.fix = some v

/-- The diagnostic of a message about the file at a path. -/
def diagnosticOf (root : String) (placed : String × Finding) : Diagnostic :=
  placed.2.problem.diagnostic (String.ofList (relativeTo placed.1.toList root.toList))

theorem tells_diagnosticOf (root : String) (placed : String × Finding) :
    Tells root placed (diagnosticOf root placed) := by
  refine ⟨?_, rfl, rfl, rfl, ?_, rfl, Option.isSome_iff_exists⟩
  · rw [isRelative_iff]
    exact String.toList_ofList.symm
  · have hSeverity : placed.2.severity.toInt = 2 ↔ placed.2.severity = 2 := Int64.toInt_inj (y := 2)
    rw [← hSeverity]
    by_cases hTwo : placed.2.severity.toInt = 2 <;>
      simp [diagnosticOf, Problem.diagnostic, Finding.problem, hTwo]

theorem decodesAt_report :
    DecodesAt Json.maxDepth (Json.list (Json.record FileReport.shape))
      (Json.list? FileReport.decode) := by
  refine DecodesAt.list fun below hBelow => ?_
  have hDepth : Json.maxDepth = editDepth + 4 := rfl
  obtain rfl : below = editDepth + 3 := by omega
  exact FileReport.decodesAt

/-- A report that decodes is told entry by entry. -/
theorem diagnostics_of_decode {text : String} {v : Json} (hWrites : WritesText text.toList v)
    {reports : List FileReport} (hDecode : Json.list? FileReport.decode v = some reports)
    (root : String) : diagnostics text root = reports.flatMap fun f => f.diagnostics root := by
  rw [diagnostics, (decodesAt_report.finish (Json.parse_eq_ok_iff.mpr hWrites) reports).mpr hDecode]

/-- A report that does not decode gives nothing at all. -/
theorem diagnostics_of_decode_none {text : String} {v : Json} (hWrites : WritesText text.toList v)
    (hDecode : Json.list? FileReport.decode v = none) (root : String) : diagnostics text root = [] := by
  unfold diagnostics
  split
  · rename_i reports hFinish
    have hSome := (decodesAt_report.finish (Json.parse_eq_ok_iff.mpr hWrites) reports).mp hFinish
    cases hDecode.symm.trans hSome
  · rfl

/-- Findings are told file by file, in the order of the report. -/
theorem diagnostics_eq {text : String} {items : List Json}
    (hWrites : WritesText text.toList (.array items)) {files : List FileFindings}
    (hGives : List.Forall₂ GivesFile items files) (root : String) :
    diagnostics text root = (files.flatMap FileFindings.placed).map (diagnosticOf root) := by
  have hDecode : Json.list? FileReport.decode (.array items) =
      some (files.map fun f => ⟨f.path, f.findings.map Finding.problem⟩) :=
    Json.mapM_of_forall₂ (fun _ _ hItem => hItem) (List.forall₂_map_right_iff.mpr
      (hGives.imp fun _ _ => GivesFile.decode))
  rw [diagnostics_of_decode hWrites hDecode, List.map_flatMap, List.flatMap_map]
  simp only [FileReport.diagnostics, FileFindings.placed, List.map_map]
  rfl

/-- Every message of a report has one diagnostic, told of the message and of its file, and they stand
in the order of the files and of the messages about each. A report with a faulty file or message in it
has no diagnostics, whatever else it holds. -/
theorem findings_told (text root : String) (items : List Json)
    (hWrites : WritesText text.toList (.array items)) :
    (∀ files : List FileFindings, List.Forall₂ GivesFile items files →
      List.Forall₂ (Tells root) (files.flatMap FileFindings.placed) (diagnostics text root)) ∧
      ∀ v ∈ items, FaultyFile v → diagnostics text root = [] := by
  constructor
  · intro files hGives
    rw [diagnostics_eq hWrites hGives, List.forall₂_map_right_iff, List.forall₂_same]
    exact fun placed _ => tells_diagnosticOf root placed
  · intro v hv hFaulty
    exact diagnostics_of_decode_none hWrites (Json.mapM_eq_none hv hFaulty.decode) root

/-- A file with two messages. -/
def styledFile : FileFindings where
  path := "/w/a.js"
  findings := [⟨some "semi", 2, "m", some 3, some 0, some (.object [])⟩,
    ⟨none, 1, "n", none, none, none⟩]

/-- Its messages as values. The second one leaves out what it can. -/
def styledMessages : List Json :=
  [.object [("fix", .object []), ("line", .nat 3), ("column", .nat 0), ("severity", .nat 2),
      ("nodeType", .null), ("message", .string "m"), ("ruleId", .string "semi")],
    .object [("message", .string "n"), ("ruleId", .null), ("severity", .nat 1), ("fix", .null)]]

def styledEntry : Json := .object [("messages", .array styledMessages), ("filePath", .string "/w/a.js")]

/-- An entry without a path. -/
def strayEntry : Json := .object [("messages", .array [])]

theorem exact_styledEntry : Exact 126 styledEntry := by
  have hMessages : ∀ v ∈ styledMessages, Exact 124 v := by
    simp only [styledMessages, List.forall_mem_cons]
    refine ⟨.object ?_, .object ?_, List.forall_mem_nil _⟩ <;> simp only [List.forall_mem_cons]
    · exact ⟨.object (List.forall_mem_nil _), .nat (by decide), .nat (by decide), .nat (by decide),
        .null, .string _, .string _, List.forall_mem_nil _⟩
    · exact ⟨.string _, .null, .nat (by decide), .null, List.forall_mem_nil _⟩
  refine .object ?_
  simp only [List.forall_mem_cons]
  exact ⟨.array hMessages, .string _, List.forall_mem_nil _⟩

theorem givesFile_styled : GivesFile styledEntry styledFile := by
  refine .object (Json.holds_of_member? rfl) (Json.holds_of_member? rfl) (.cons ?_ (.cons ?_ .nil))
  · exact .object (.present (Json.holds_of_member? rfl) nofun) (Json.holds_of_member? rfl)
      (Json.holds_of_member? rfl) (.present (Json.holds_of_member? rfl) nofun)
      (.present (Json.holds_of_member? rfl) nofun) (.present (Json.holds_of_member? rfl) nofun)
  · exact .object (.null (Json.holds_of_member? rfl)) (Json.holds_of_member? rfl)
      (Json.holds_of_member? rfl) (.absent (by decide)) (.absent (by decide))
      (.null (Json.holds_of_member? rfl))

/-- A report of one file, and the same report with an entry behind it that has no path. -/
theorem findings_told_styled :
    List.Forall₂ GivesFile [styledEntry] [styledFile] ∧ FaultyFile strayEntry ∧
    List.Forall₂ (Tells "/w/") styledFile.placed
      (diagnostics (String.ofList (Json.array [styledEntry]).compact) "/w/") ∧
    diagnostics (String.ofList (Json.array [styledEntry, strayEntry]).compact) "/w/" = [] := by
  have hStray : Exact 126 strayEntry := by
    refine .object ?_
    simp only [List.forall_mem_singleton]
    exact .array (List.forall_mem_nil _)
  have hWrites (items : List Json) (hItems : ∀ v ∈ items, Exact 126 v) :
      WritesText (String.ofList (Json.array items).compact).toList (.array items) := by
    rw [String.toList_ofList]
    exact (Exact.array hItems).writesText_compact
  have hGives := List.Forall₂.cons givesFile_styled .nil
  have hFaulty : FaultyFile strayEntry := .path (.missing rfl (by decide))
  refine ⟨hGives, hFaulty, ?_, ?_⟩
  · refine (findings_told _ "/w/" _ (hWrites _ ?_)).1 [styledFile] hGives
    exact List.forall_mem_singleton.mpr exact_styledEntry
  · refine (findings_told _ "/w/" _ (hWrites _ ?_)).2 strayEntry ?_ hFaulty
    · exact List.forall_mem_cons.mpr ⟨exact_styledEntry, List.forall_mem_singleton.mpr hStray⟩
    · exact List.mem_cons_of_mem _ List.mem_cons_self

end LintRepair.Report.FileReports
