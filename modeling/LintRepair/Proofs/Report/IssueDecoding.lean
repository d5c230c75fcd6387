import LintRepair.Proofs.Json.Cells
import LintRepair.Proofs.Json.Documents
import LintRepair.Proofs.Json.Members
import LintRepair.Report.IssueList

/-! What a report by issues says. Each issue has one diagnostic, whatever order the members stand in
and whatever else the report holds. Which values give an issue is said exactly, so a single one that
gives none is enough for the whole report to be given up. -/

namespace LintRepair.Report.IssueList

open Json (Decodes Exact Holds Lacks WritesText)
open Json.Shape (Faulty Found Given exists_decode)

/-! ### Reports as values -/

/-- Where an issue is; the column may be left open. -/
structure Spot where
  file : String
  line : UInt32
  column : Option UInt32

/-- What a report says of an issue. -/
structure Remark where
  linter : String
  text : String
  spot : Spot

/-- Members that give a column, or none. A column is never given as `null`. -/
inductive GivesColumn (members : List (String × Json)) : Option UInt32 → Prop where
  | absent (lacks : Lacks "Column" members) : GivesColumn members none
  | present {n : UInt32} (holds : Holds "Column" (.count n) members) : GivesColumn members (some n)

/-- A place is given by an object, with its members in any order and any others between them, or by
its fields one after the other. -/
inductive GivesSpot : Json → Spot → Prop where
  | object {members : List (String × Json)} {s : Spot}
      (file : Holds "Filename" (.string s.file) members)
      (line : Holds "Line" (.count s.line) members)
      (column : GivesColumn members s.column) : GivesSpot (.object members) s
  | pair (file : String) (line : UInt32) :
      GivesSpot (.array [.string file, .count line]) ⟨file, line, none⟩
  | row (file : String) (line column : UInt32) :
      GivesSpot (.array [.string file, .count line, .count column]) ⟨file, line, some column⟩

/-- An issue is given in the same two ways. -/
inductive GivesRemark : Json → Remark → Prop where
  | object {members : List (String × Json)} {v : Json} {r : Remark}
      (linter : Holds "FromLinter" (.string r.linter) members)
      (text : Holds "Text" (.string r.text) members)
      (place : Holds "Pos" v members) (gives : GivesSpot v r.spot) : GivesRemark (.object members) r
  | row {v : Json} {spot : Spot} (linter text : String) (gives : GivesSpot v spot) :
      GivesRemark (.array [.string linter, .string text, v]) ⟨linter, text, spot⟩

/-! ### Decoding -/

namespace Place

/-- What a member sets in a place. -/
def cell (name : String) (d : Draft) (v : Json) : Option Draft :=
  if name = "Filename" then (Json.string? v).map fun s => { d with file := some s }
  else if name = "Line" then (Json.word32? v).map fun n => { d with line := some n }
  else (Json.word32? v).map fun n => { d with column := some n }

def decode : Json → Option Place := shape.decode cell

theorem decodes : Decodes (Json.record shape) decode := by
  refine Decodes.record fun f hf state => ?_
  simp only [shape, List.mem_cons, List.not_mem_nil, or_false] at hf
  rcases hf with rfl | rfl | rfl
  · exact Decodes.field Json.decodes_text "Filename" true Draft.file _ state
  · exact Decodes.field Json.decodes_word32 "Line" true Draft.line _ state
  · exact Decodes.field Json.decodes_word32 "Column" false Draft.column _ state

/-- Each field is kept by itself. -/
theorem keeps : shape.Keeps cell "Filename" Draft.file Json.string? ∧
    shape.Keeps cell "Line" Draft.line Json.word32? ∧
    shape.Keeps cell "Column" Draft.column Json.word32? := by
  refine ⟨?_, ?_, ?_⟩
  all_goals
    refine ⟨by simp [shape, Json.Field.of], by simp [shape, Json.Field.of], fun state v => ?_, ?_⟩
    · simp [cell, Option.map_map, Function.comp_def]
    · intro f hf hName state next v hSet
      simp only [shape, List.mem_cons, List.not_mem_nil, or_false] at hf
      rcases hf with rfl | rfl | rfl
      all_goals first
        | exact absurd rfl hName
        | obtain ⟨b, -, rfl⟩ := Option.map_eq_some_iff.mp hSet
          rfl

/-- The place of an object is built from what its members give for each field. -/
theorem decode_object_iff {members : List (String × Json)} {p : Place} :
    decode (.object members) = some p ↔ ∃ d : Draft, (Found "Filename" Json.string? members d.file ∧
      Found "Line" Json.word32? members d.line ∧ Found "Column" Json.word32? members d.column) ∧
      shape.build d = .ok p := by
  obtain ⟨kFile, kLine, kColumn⟩ := keeps
  refine Json.Shape.decode_object_iff_of_found (fun final hFold => ?_) (fun d hd => ?_)
    fun d e hd he => ?_
  · exact ⟨kFile.found_of_foldlM rfl hFold, kLine.found_of_foldlM rfl hFold,
      kColumn.found_of_foldlM rfl hFold⟩
  · simp only [shape, List.forall_mem_cons]
    obtain ⟨hFile, hLine, hColumn⟩ := hd
    exact ⟨.given kFile hFile rfl, .given kLine hLine rfl, .given kColumn hColumn rfl, List.forall_mem_nil _⟩
  · cases d
    cases e
    rw [Draft.mk.injEq]
    exact ⟨hd.1.unique he.1, hd.2.1.unique he.2.1, hd.2.2.unique he.2.2⟩

/-- A place needs a file and a line; a column that is missing is zero. -/
theorem build_eq_ok_iff {d : Draft} {p : Place} : shape.build d = .ok p ↔
    d.file = some p.file ∧ d.line = some p.line ∧ d.column.getD 0 = p.column := by
  obtain ⟨file, line, column⟩ := d
  obtain ⟨file', line', column'⟩ := p
  cases file with
  | none => exact ⟨nofun, nofun⟩
  | some file =>
      cases line with
      | none => exact ⟨nofun, nofun⟩
      | some line => simp [shape, pure, Except.pure]

theorem decode_short (v : Json) : decode (.array [v]) = none := by
  simp [decode, Json.Shape.decode, Json.Shape.fromItems, shape, Json.Field.of]

/-- An array of two gives a file and a line. -/
theorem decode_pair (v w : Json) : decode (.array [v, w]) =
    (Json.string? v).bind fun file => (Json.word32? w).map fun line => ⟨file, line, 0⟩ := by
  simp only [decode, Json.Shape.decode, Json.Shape.fromItems, shape, Json.Field.of, cell]
  cases Json.string? v <;> cases Json.word32? w <;> rfl

/-- A place may be written as a row of its three fields. -/
theorem decode_row (v w x : Json) : decode (.array [v, w, x]) =
    (Json.string? v).bind fun file => (Json.word32? w).bind fun line =>
      (Json.word32? x).map fun column => ⟨file, line, column⟩ := by
  simp only [decode, Json.Shape.decode, Json.Shape.fromItems, shape, Json.Field.of, cell]
  cases Json.string? v <;> cases Json.word32? w <;> cases Json.word32? x <;> rfl

theorem decode_long (v w x y : Json) (rest : List Json) :
    decode (.array (v :: w :: x :: y :: rest)) = none := by
  simp [decode, Json.Shape.decode, Json.Shape.fromItems, shape, Json.Field.of]

end Place

namespace Issue

/-- What a member sets in an issue. -/
def cell (name : String) (d : Draft) (v : Json) : Option Draft :=
  if name = "FromLinter" then (Json.string? v).map fun s => { d with linter := some s }
  else if name = "Text" then (Json.string? v).map fun s => { d with text := some s }
  else (Place.decode v).map fun p => { d with place := some p }

def decode : Json → Option Issue := shape.decode cell

theorem decodes : Decodes (Json.record shape) decode := by
  refine Decodes.record fun f hf state => ?_
  simp only [shape, List.mem_cons, List.not_mem_nil, or_false] at hf
  rcases hf with rfl | rfl | rfl
  · exact Decodes.field Json.decodes_text "FromLinter" true Draft.linter _ state
  · exact Decodes.field Json.decodes_text "Text" true Draft.text _ state
  · exact Decodes.field Place.decodes "Pos" true Draft.place _ state

theorem keeps : shape.Keeps cell "FromLinter" Draft.linter Json.string? ∧
    shape.Keeps cell "Text" Draft.text Json.string? ∧
    shape.Keeps cell "Pos" Draft.place Place.decode := by
  refine ⟨?_, ?_, ?_⟩
  all_goals
    refine ⟨by simp [shape, Json.Field.of], by simp [shape, Json.Field.of], fun state v => ?_, ?_⟩
    · simp [cell, Option.map_map, Function.comp_def]
    · intro f hf hName state next v hSet
      simp only [shape, List.mem_cons, List.not_mem_nil, or_false] at hf
      rcases hf with rfl | rfl | rfl
      all_goals first
        | exact absurd rfl hName
        | obtain ⟨b, -, rfl⟩ := Option.map_eq_some_iff.mp hSet
          rfl

/-- The issue of an object is built from what its members give for each field. -/
theorem decode_object_iff {members : List (String × Json)} {i : Issue} :
    decode (.object members) = some i ↔ ∃ d : Draft, (Found "FromLinter" Json.string? members d.linter ∧
      Found "Text" Json.string? members d.text ∧ Found "Pos" Place.decode members d.place) ∧
      shape.build d = .ok i := by
  obtain ⟨kLinter, kText, kPlace⟩ := keeps
  refine Json.Shape.decode_object_iff_of_found (fun final hFold => ?_) (fun d hd => ?_)
    fun d e hd he => ?_
  · exact ⟨kLinter.found_of_foldlM rfl hFold, kText.found_of_foldlM rfl hFold,
      kPlace.found_of_foldlM rfl hFold⟩
  · simp only [shape, List.forall_mem_cons]
    obtain ⟨hLinter, hText, hPlace⟩ := hd
    exact ⟨.given kLinter hLinter rfl, .given kText hText rfl, .given kPlace hPlace rfl, List.forall_mem_nil _⟩
  · cases d
    cases e
    rw [Draft.mk.injEq]
    exact ⟨hd.1.unique he.1, hd.2.1.unique he.2.1, hd.2.2.unique he.2.2⟩

/-- An issue needs all of its three fields. -/
theorem build_eq_ok_iff {d : Draft} {i : Issue} : shape.build d = .ok i ↔
    d.linter = some i.linter ∧ d.text = some i.text ∧ d.place = some i.place := by
  obtain ⟨linter, text, place⟩ := d
  obtain ⟨linter', text', place'⟩ := i
  cases linter with
  | none => exact ⟨nofun, nofun⟩
  | some linter =>
      cases text with
      | none => exact ⟨nofun, nofun⟩
      | some text =>
          cases place with
          | none => exact ⟨nofun, nofun⟩
          | some place => simp [shape, pure, Except.pure]

theorem decode_row (v w x : Json) : decode (.array [v, w, x]) =
    (Json.string? v).bind fun linter => (Json.string? w).bind fun text =>
      (Place.decode x).map fun place => ⟨linter, text, place⟩ := by
  simp only [decode, Json.Shape.decode, Json.Shape.fromItems, shape, Json.Field.of, cell]
  cases Json.string? v <;> cases Json.string? w <;> cases Place.decode x <;> rfl

/-- An array of any other length gives no issue. -/
theorem decode_array_eq_none {items : List Json} (h : items.length ≠ 3) :
    decode (.array items) = none := by
  rcases items with _ | ⟨v, _ | ⟨w, _ | ⟨x, _ | ⟨y, rest⟩⟩⟩⟩
  case cons.cons.cons.nil => exact absurd rfl h
  all_goals simp [decode, Json.Shape.decode, Json.Shape.fromItems, shape, Json.Field.of]

end Issue

/-- What is kept of a place: an open column is written as zero. -/
def Spot.place (s : Spot) : Place := ⟨s.file, s.line, s.column.getD 0⟩

theorem GivesColumn.found {members : List (String × Json)} {column : Option UInt32}
    (h : GivesColumn members column) : Found "Column" Json.word32? members column := by
  cases h with
  | absent lacks => exact .none lacks
  | present holds => exact .some holds (Json.word32?_count _)

/-- What is found of a column is what the members give. -/
theorem givesColumn_of_found {members : List (String × Json)} {column : Option UInt32}
    (h : Found "Column" Json.word32? members column) : GivesColumn members column := by
  cases h with
  | none lacks => exact .absent lacks
  | some holds decodes => exact .present (Json.eq_count_of_word32? decodes ▸ holds)

theorem holds_string_of_found {name : String} {members : List (String × Json)} {s : String}
    (h : Found name Json.string? members (some s)) : Holds name (.string s) members := by
  cases h with
  | some holds decodes => exact Json.string?_eq_some decodes ▸ holds

theorem holds_count_of_found {name : String} {members : List (String × Json)} {n : UInt32}
    (h : Found name Json.word32? members (some n)) : Holds name (.count n) members := by
  cases h with
  | some holds decodes => exact Json.eq_count_of_word32? decodes ▸ holds

/-- A value decodes to a place exactly if it gives one. -/
theorem decode_spot_iff {v : Json} {p : Place} :
    Place.decode v = some p ↔ ∃ s, GivesSpot v s ∧ s.place = p := by
  constructor
  · intro h
    cases v with
    | object members =>
        obtain ⟨⟨file, line, column⟩, ⟨hFile, hLine, hColumn⟩, hBuild⟩ :=
          Place.decode_object_iff.mp h
        obtain ⟨rfl, rfl, hPlace⟩ := Place.build_eq_ok_iff.mp hBuild
        refine ⟨⟨p.file, p.line, column⟩, ?_, ?_⟩
        · exact .object (holds_string_of_found hFile) (holds_count_of_found hLine)
            (givesColumn_of_found hColumn)
        · rw [Spot.place, show column.getD 0 = p.column from hPlace]
    | array items =>
        -- Rows of two and of three values have a place; shorter and longer ones have not.
        rcases items with _ | ⟨v, _ | ⟨w, _ | ⟨x, _ | ⟨y, rest⟩⟩⟩⟩
        · cases h
        · rw [Place.decode_short] at h
          cases h
        · rw [Place.decode_pair] at h
          obtain ⟨file, hFile, h⟩ := Option.bind_eq_some_iff.mp h
          obtain ⟨line, hLine, rfl⟩ := Option.map_eq_some_iff.mp h
          rw [Json.string?_eq_some hFile, Json.eq_count_of_word32? hLine]
          exact ⟨_, .pair file line, rfl⟩
        · rw [Place.decode_row] at h
          obtain ⟨file, hFile, h⟩ := Option.bind_eq_some_iff.mp h
          obtain ⟨line, hLine, h⟩ := Option.bind_eq_some_iff.mp h
          obtain ⟨column, hColumn, rfl⟩ := Option.map_eq_some_iff.mp h
          rw [Json.string?_eq_some hFile, Json.eq_count_of_word32? hLine,
            Json.eq_count_of_word32? hColumn]
          exact ⟨_, .row file line column, rfl⟩
        · rw [Place.decode_long] at h
          cases h
    | _ => cases h
  · rintro ⟨s, hGives, rfl⟩
    cases hGives with
    | object file line column =>
        exact Place.decode_object_iff.mpr ⟨⟨some s.file, some s.line, s.column⟩,
          ⟨.some file rfl, .some line (Json.word32?_count _), column.found⟩, rfl⟩
    | pair file line =>
        rw [Place.decode_pair, Json.word32?_count]
        rfl
    | row file line column =>
        rw [Place.decode_row, Json.word32?_count, Json.word32?_count]
        rfl

def Remark.issue (r : Remark) : Issue := ⟨r.linter, r.text, r.spot.place⟩

/-- A value decodes to an issue exactly if it gives one. -/
theorem decode_remark_iff {v : Json} {i : Issue} :
    Issue.decode v = some i ↔ ∃ r, GivesRemark v r ∧ r.issue = i := by
  constructor
  · intro h
    cases v with
    | object members =>
        obtain ⟨⟨linter, text, place⟩, ⟨hLinter, hText, hPlace⟩, hBuild⟩ :=
          Issue.decode_object_iff.mp h
        obtain ⟨rfl, rfl, rfl⟩ := Issue.build_eq_ok_iff.mp hBuild
        obtain ⟨v, hHolds, hDecode⟩ : ∃ v, Holds "Pos" v members ∧ Place.decode v = some i.place := by
          cases hPlace with
          | some holds decodes => exact ⟨_, holds, decodes⟩
        obtain ⟨s, hSpot, hKept⟩ := decode_spot_iff.mp hDecode
        refine ⟨⟨i.linter, i.text, s⟩, ?_, ?_⟩
        · exact .object (holds_string_of_found hLinter) (holds_string_of_found hText) hHolds hSpot
        · rw [Remark.issue, hKept]
    | array items =>
        by_cases hLength : items.length = 3
        · obtain ⟨v, w, x, rfl⟩ := List.length_eq_three.mp hLength
          rw [Issue.decode_row] at h
          obtain ⟨linter, hLinter, h⟩ := Option.bind_eq_some_iff.mp h
          obtain ⟨text, hText, h⟩ := Option.bind_eq_some_iff.mp h
          obtain ⟨place, hPlace, rfl⟩ := Option.map_eq_some_iff.mp h
          obtain ⟨s, hSpot, rfl⟩ := decode_spot_iff.mp hPlace
          rw [Json.string?_eq_some hLinter, Json.string?_eq_some hText]
          exact ⟨_, .row linter text hSpot, rfl⟩
        · rw [Issue.decode_array_eq_none hLength] at h
          cases h
    | _ => cases h
  · rintro ⟨r, hGives, rfl⟩
    cases hGives with
    | object linter text place gives =>
        have hPlace := decode_spot_iff.mpr ⟨_, gives, rfl⟩
        exact Issue.decode_object_iff.mpr ⟨⟨some r.linter, some r.text, some r.spot.place⟩,
          ⟨.some linter rfl, .some text rfl, .some place hPlace⟩, rfl⟩
    | row linter text gives =>
        rw [Issue.decode_row, decode_spot_iff.mpr ⟨_, gives, rfl⟩]
        rfl

/-! ### Reports -/

/-- What a member sets in a report. -/
def cell (_ : String) (_ : Option (Option (List Issue))) (v : Json) :
    Option (Option (Option (List Issue))) :=
  (Json.optional? (Json.list? Issue.decode) v).map some

def decode : Json → Option (List Issue) := shape.decode cell

theorem decodes : Decodes (Json.record shape) decode := by
  refine Decodes.record fun f hf state => ?_
  obtain rfl := List.mem_singleton.mp hf
  exact Decodes.field Issue.decodes.list.optional "Issues" false id _ state

theorem keeps : shape.Keeps cell "Issues" id (Json.optional? (Json.list? Issue.decode)) := by
  refine ⟨by simp [shape, Json.Field.of], by simp [shape, Json.Field.of], fun state v => ?_, ?_⟩
  · simp [cell]
  · intro f hf hName
    obtain rfl := List.mem_singleton.mp hf
    exact absurd rfl hName

/-- The issues of an object by what its members give for them. -/
theorem decode_of_found {members : List (String × Json)} {issues : Option (Option (List Issue))}
    (hIssues : Found "Issues" (Json.optional? (Json.list? Issue.decode)) members issues) :
    decode (.object members) = some (issues.join.getD []) := by
  have hGiven : ∀ f ∈ shape.fields, Given shape cell members f.name := by
    simp only [shape, List.forall_mem_singleton]
    exact .given keeps hIssues rfl
  obtain ⟨final, hFold, hDecode⟩ := exists_decode hGiven
  have hFinal : final = issues := keeps.get_eq hIssues rfl hFold
  rw [decode, hDecode, hFinal]
  rfl

/-- A report that decodes is told issue by issue. -/
theorem diagnostics_of_decode {text : String} {v : Json} (hWrites : WritesText text.toList v)
    {issues : List Issue} (hDecode : decode v = some issues) :
    diagnostics text = issues.map Issue.diagnostic := by
  rw [diagnostics, (decodes.finish (Json.parse_eq_ok_iff.mpr hWrites) issues).mpr hDecode]

/-- A report that does not decode gives nothing at all. -/
theorem diagnostics_of_decode_none {text : String} {v : Json} (hWrites : WritesText text.toList v)
    (hDecode : decode v = none) : diagnostics text = [] := by
  unfold diagnostics
  split
  · rename_i issues hFinish
    have hSome := (decodes.finish (Json.parse_eq_ok_iff.mpr hWrites) issues).mp hFinish
    cases hDecode.symm.trans hSome
  · rfl

/-- Remarks are told in the order of the report. -/
theorem diagnostics_eq {text : String} {members : List (String × Json)}
    (hWrites : WritesText text.toList (.object members)) {items : List Json}
    (hIssues : Holds "Issues" (.array items) members) {remarks : List Remark}
    (hGives : List.Forall₂ GivesRemark items remarks) :
    diagnostics text = remarks.map fun r => r.issue.diagnostic := by
  have hList : Json.list? Issue.decode (.array items) = some (remarks.map Remark.issue) :=
    Json.mapM_of_forall₂ (fun _ _ hItem => hItem) (List.forall₂_map_right_iff.mpr
      (hGives.imp fun _ r hGives => decode_remark_iff.mpr ⟨r, hGives, rfl⟩))
  have hValue : Json.optional? (Json.list? Issue.decode) (.array items) =
      some (some (remarks.map Remark.issue)) := by
    rw [Json.optional?_of_ne_null (v := .array items) nofun, hList]
    rfl
  rw [diagnostics_of_decode hWrites (decode_of_found (.some hIssues hValue))]
  exact List.map_map

/-- Without a list of issues, or with `null` for it, nothing is found. -/
theorem diagnostics_eq_nil_of_none {text : String} {members : List (String × Json)}
    (hWrites : WritesText text.toList (.object members))
    (hNone : Lacks "Issues" members ∨ Holds "Issues" .null members) : diagnostics text = [] := by
  rcases hNone with hLacks | hNull
  · exact diagnostics_of_decode hWrites (decode_of_found (.none hLacks))
  · exact diagnostics_of_decode hWrites (decode_of_found (.some hNull rfl))

/-- One faulty issue spoils the whole report. -/
theorem diagnostics_eq_nil_of_faulty {text : String} {members : List (String × Json)}
    (hWrites : WritesText text.toList (.object members)) {items : List Json}
    (hIssues : Holds "Issues" (.array items) members) {v : Json} (hv : v ∈ items)
    (hFaulty : ∀ r, ¬ GivesRemark v r) : diagnostics text = [] := by
  have hItem : Issue.decode v = none := by
    refine Option.eq_none_iff_forall_ne_some.mpr fun i hDecode => ?_
    obtain ⟨r, hGives, -⟩ := decode_remark_iff.mp hDecode
    exact hFaulty r hGives
  have hValue : Json.optional? (Json.list? Issue.decode) (.array items) = none := by
    have hList : Json.list? Issue.decode (.array items) = none := Json.mapM_eq_none hv hItem
    rw [Json.optional?_of_ne_null (v := .array items) nofun, hList]
    rfl
  have hMember : Faulty false "Issues"
      (fun v => Json.optional? (Json.list? Issue.decode) v ≠ none) members :=
    .wrong hIssues fun hSome => hSome hValue
  exact diagnostics_of_decode_none hWrites (keeps.decode_of_faulty hMember
    (fun _ _ hDecode => hDecode ▸ Option.some_ne_none _) rfl nofun)

/-- What a diagnostic says of an issue. -/
structure Tells (r : Remark) (d : Diagnostic) : Prop where
  file : d.file = r.spot.file
  line : d.line = max r.spot.line 1
  column : d.column = max (r.spot.column.getD 1) 1
  rule : d.rule = r.linter
  severity : d.severity = .error
  message : d.message = r.text
  fixable : d.fixable = false

/-- The diagnostic of an issue says all that was remarked. -/
theorem tells_diagnostic (r : Remark) : Tells r r.issue.diagnostic := by
  refine ⟨rfl, rfl, ?_, rfl, rfl, rfl, rfl⟩
  obtain ⟨linter, text, file, line, column⟩ := r
  cases column with
  | none => exact (by decide : max (0 : UInt32) 1 = max 1 1)
  | some column => rfl

/-- Every issue of a report has one diagnostic, told of the issue, and they stand in the order of the
issues. A report without issues has none, and one with an issue in it that does not give what it
should has none either, whatever else it holds. -/
theorem issues_told (text : String) (members : List (String × Json))
    (hWrites : WritesText text.toList (.object members)) :
    (∀ items remarks, Holds "Issues" (.array items) members → List.Forall₂ GivesRemark items remarks →
      List.Forall₂ Tells remarks (diagnostics text)) ∧
      (Lacks "Issues" members ∨ Holds "Issues" .null members → diagnostics text = []) ∧
      ∀ items, Holds "Issues" (.array items) members → ∀ v ∈ items, (∀ r, ¬ GivesRemark v r) →
        diagnostics text = [] := by
  refine ⟨fun items remarks hIssues hGives => ?_, diagnostics_eq_nil_of_none hWrites,
    fun items hIssues v hv hFaulty => diagnostics_eq_nil_of_faulty hWrites hIssues hv hFaulty⟩
  rw [diagnostics_eq hWrites hIssues hGives, List.forall₂_map_right_iff, List.forall₂_same]
  exact fun r _ => tells_diagnostic r

/-- Two issues as values, with members in another order, one that nothing reads, and a column only in
the first. -/
def lintedItems : List Json :=
  [.object [("Pos", .object [("Column", .nat 0), ("Offset", .nat 9), ("Line", .nat 3),
      ("Filename", .string "a.go")]), ("Text", .string "m"), ("FromLinter", .string "vet")],
    .object [("FromLinter", .string "lll"), ("Text", .string "n"),
      ("Pos", .object [("Filename", .string "b.go"), ("Line", .nat 0)])]]

/-- An issue whose column is `null`. -/
def strayItem : Json :=
  .object [("FromLinter", .string "lll"), ("Text", .string "n"),
    ("Pos", .object [("Filename", .string "b.go"), ("Line", .nat 0), ("Column", .null)])]

theorem exact_lintedItems : ∀ v ∈ lintedItems, Exact 125 v := by
  simp only [lintedItems, List.forall_mem_cons]
  refine ⟨.object ?_, .object ?_, List.forall_mem_nil _⟩ <;> simp only [List.forall_mem_cons]
  · refine ⟨.object ?_, .string _, .string _, List.forall_mem_nil _⟩
    simp only [List.forall_mem_cons]
    exact ⟨.nat (by decide), .nat (by decide), .nat (by decide), .string _, List.forall_mem_nil _⟩
  · refine ⟨.string _, .string _, .object ?_, List.forall_mem_nil _⟩
    simp only [List.forall_mem_cons]
    exact ⟨.string _, .nat (by decide), List.forall_mem_nil _⟩

theorem exact_strayItem : Exact 125 strayItem := by
  refine .object ?_
  simp only [List.forall_mem_cons]
  refine ⟨.string _, .string _, .object ?_, List.forall_mem_nil _⟩
  simp only [List.forall_mem_cons]
  exact ⟨.string _, .nat (by decide), .null, List.forall_mem_nil _⟩

theorem givesRemark_linted : List.Forall₂ GivesRemark lintedItems
    [⟨"vet", "m", "a.go", 3, some 0⟩, ⟨"lll", "n", "b.go", 0, none⟩] := by
  refine .cons (.object (Json.holds_of_member? rfl) (Json.holds_of_member? rfl)
    (Json.holds_of_member? rfl) (.object (Json.holds_of_member? rfl) (Json.holds_of_member? rfl)
    (.present (Json.holds_of_member? rfl)))) (.cons ?_ .nil)
  exact .object (Json.holds_of_member? rfl) (Json.holds_of_member? rfl) (Json.holds_of_member? rfl)
    (.object (Json.holds_of_member? rfl) (Json.holds_of_member? rfl) (.absent (by decide)))

/-- No column is given as `null`. -/
theorem not_givesRemark_stray (r : Remark) : ¬ GivesRemark strayItem r := by
  intro hGives
  have hNone : Issue.decode strayItem = none := by decide
  cases hNone.symm.trans (decode_remark_iff.mpr ⟨r, hGives, rfl⟩)

/-- A report of two issues, one whose issues are `null`, and the first one again with an issue behind
it whose column is `null`. -/
theorem issues_told_linted :
    List.Forall₂ Tells [⟨"vet", "m", "a.go", 3, some 0⟩, ⟨"lll", "n", "b.go", 0, none⟩]
      (diagnostics (String.ofList (Json.object [("Issues", .array lintedItems)]).compact)) ∧
    diagnostics (String.ofList (Json.object [("Issues", .null)]).compact) = [] ∧
    diagnostics (String.ofList
      (Json.object [("Issues", .array (lintedItems ++ [strayItem]))]).compact) = [] := by
  have hWrites (v : Json) (hv : Exact 126 v) :
      WritesText (String.ofList (Json.object [("Issues", v)]).compact).toList
        (.object [("Issues", v)]) := by
    rw [String.toList_ofList]
    exact (Exact.object (List.forall_mem_singleton.mpr hv)).writesText_compact
  have hHolds (v : Json) : Holds "Issues" v [("Issues", v)] := Json.holds_of_member? rfl
  refine ⟨?_, ?_, ?_⟩
  · exact (issues_told _ _ (hWrites _ (.array exact_lintedItems))).1 _ _ (hHolds _) givesRemark_linted
  · exact (issues_told _ _ (hWrites _ .null)).2.1 (.inr (hHolds _))
  · refine (issues_told _ _ (hWrites _ (.array ?_))).2.2 _ (hHolds _) strayItem ?_
      not_givesRemark_stray
    · exact List.forall_mem_append.mpr
        ⟨exact_lintedItems, List.forall_mem_singleton.mpr exact_strayItem⟩
    · exact List.mem_append_right _ List.mem_cons_self

end LintRepair.Report.IssueList
