import LintRepair.Proofs.Json.Documents
import LintRepair.Proofs.Json.Members
import LintRepair.Proofs.Text.Lines
import LintRepair.Report.MessageStream

/-! A stream of messages is read line by line and nothing is carried over: the diagnostics of a text
are those of its lines, in their order. Blanks at the ends of a line do not count, a carriage return
among them, so it makes no difference how a line ends. -/

namespace LintRepair.Report.MessageStream

open Json (WritesText)
open Text (Lined)

theorem lineDiagnostic?_of_blank {line : List Char} (h : ∀ c ∈ line, Text.isBlank c = true) :
    lineDiagnostic? line = none := by
  rw [lineDiagnostic?, Text.trim_of_blank h]
  rfl

/-- A return at the end of a line has no part in it. -/
theorem lineDiagnostic?_return (line : List Char) :
    lineDiagnostic? (line ++ ['\r']) = lineDiagnostic? line := by
  rw [lineDiagnostic?, lineDiagnostic?, Text.trim_concat (by decide)]

/-- The diagnostics can be collected from the pieces between the line feeds. -/
theorem diagnostics_eq_pieces (s : String) :
    diagnostics s = (s.toList.splitOn '\n').filterMap lineDiagnostic? :=
  Text.filterMap_lines lineDiagnostic?_return (lineDiagnostic?_of_blank (List.forall_mem_nil _)) _

/-- Two outputs with a line feed between them give the diagnostics of both. -/
theorem diagnostics_append (a b : String) :
    diagnostics (a ++ "\n" ++ b) = diagnostics a ++ diagnostics b := by
  have hText : (a ++ "\n" ++ b).toList = a.toList ++ '\n' :: b.toList := by simp
  rw [diagnostics_eq_pieces, hText, List.splitOn_append_cons_self, List.filterMap_append,
    ← diagnostics_eq_pieces, ← diagnostics_eq_pieces]

/-! ### The lines of a text -/

/-- The diagnostics of a line that stands alone. -/
def ownDiagnostics (line : List Char) : List Diagnostic := diagnostics (String.ofList line)

theorem ownDiagnostics_eq {line : List Char} (h : '\n' ∉ line) :
    ownDiagnostics line = (lineDiagnostic? line).toList := by
  rw [ownDiagnostics, diagnostics_eq_pieces, String.toList_ofList, List.splitOn_eq_singleton h]
  cases hLine : lineDiagnostic? line <;> simp [hLine]

/-- An output gives what its lines give, each on its own. -/
theorem diagnostics_of_lined {text : String} {lines : List (List Char)}
    (h : Lined text.toList lines) : diagnostics text = lines.flatMap ownDiagnostics := by
  have hOwn : lines.flatMap ownDiagnostics = lines.flatMap fun line => (lineDiagnostic? line).toList :=
    List.flatMap_congr fun line hLine => ownDiagnostics_eq (h.notMem line hLine)
  rw [hOwn, ← List.filterMap_eq_flatMap_toList]
  exact h.filterMap_lines lineDiagnostic?_return (lineDiagnostic?_of_blank (List.forall_mem_nil _))

/-! ### Lines that say nothing -/

/-- A line without a message: it is blank, or what stands between the blanks at its ends is no JSON, or
is a record with no such reason as that of messages. -/
inductive IsIdle (line : List Char) : Prop where
  | blank (blank : ∀ c ∈ line, Text.isBlank c = true)
  | unreadable (unreadable : ∀ v, ¬ WritesText (Text.trim line) v)
  | other {members : List (String × Json)} (writes : WritesText (Text.trim line) (.object members))
      (reason : ("reason", .string "compiler-message") ∉ members)

/-- An object that is not for a compiler message gives none. -/
theorem message?_of_object {members : List (String × Json)} {text : List Char}
    (h : WritesText text (.object members)) (hReason : ("reason", .string "compiler-message") ∉ members) :
    message? text = none := by
  rw [message?, Json.parse_eq_ok_iff.mpr h]
  cases hMember : Json.member? "reason" members with
  | none => simp [reason?, hMember]
  | some cell =>
      cases cell with
      | none => simp [reason?, hMember]
      | some v =>
          have hMem := (Json.holds_of_member? hMember).mem
          cases v with
          | string reason =>
              have hOther : reason ≠ "compiler-message" := fun hSame => hReason (hSame ▸ hMem)
              simp [reason?, hMember, Json.string?, hOther]
          | _ => simp [reason?, hMember, Json.string?]

/-- An idle line gives nothing. -/
theorem IsIdle.lineDiagnostic? {line : List Char} (h : IsIdle line) :
    MessageStream.lineDiagnostic? line = none := by
  cases h with
  | blank blank => exact lineDiagnostic?_of_blank blank
  | unreadable unreadable =>
      rw [MessageStream.lineDiagnostic?, message?]
      cases hParse : Json.parse (Text.trim line) with
      | error fault => rfl
      | ok v => exact absurd (Json.parse_eq_ok_iff.mp hParse) (unreadable v)
  | other writes reason =>
      rw [MessageStream.lineDiagnostic?, message?_of_object writes reason]
      rfl

/-! ### Line by line -/

/-- A record behind a no-break space, which is a blank and no JSON spacing. -/
def paddedRecord : List Char :=
  '\u00a0' :: (Json.object [("reason", .string "compiler-message"),
    ("message", .object [("message", .string "m"), ("level", .string "error"),
      ("spans", .array [.object [("file_name", .string "a.rs"), ("line_start", .nat 1),
        ("column_start", .nat 1), ("is_primary", .bool true)]])])]).compact

theorem notMem_paddedRecord : '\n' ∉ paddedRecord := by decide +kernel

theorem length_paddedRecord : (ownDiagnostics paddedRecord).length = 1 := by
  have hHeard : (lineDiagnostic? paddedRecord).isSome = true := by decide +kernel
  obtain ⟨d, hDiagnostic⟩ := Option.isSome_iff_exists.mp hHeard
  rw [ownDiagnostics_eq notMem_paddedRecord, hDiagnostic]
  rfl

/-- Such a line is no JSON by itself. It has a diagnostic all the same, wherever it is inserted. -/
theorem padded_record_heard : (∀ v, ¬ WritesText paddedRecord v) ∧
    (diagnostics ("" ++ "\n" ++ String.ofList paddedRecord)).length = 1 ∧ diagnostics "" = [] := by
  have hNone : diagnostics "" = [] := rfl
  refine ⟨Json.not_writesText_of_refused (by decide +kernel), ?_, hNone⟩
  rw [diagnostics_append, hNone, List.nil_append]
  exact length_paddedRecord

/-- Each line has its own diagnostics, one at most, and a text has those of its lines in their order,
however the lines end. An idle line has none wherever it is inserted; a line that is replaced or taken
away leaves the diagnostics of all other lines as they were. -/
theorem diagnostics_line_by_line :
    (∀ a b : String, diagnostics (a ++ "\n" ++ b) = diagnostics a ++ diagnostics b) ∧
      (∀ text : String, ∃ lines, Lined text.toList lines) ∧
      ∀ (text : String) (lines : List (List Char)), Lined text.toList lines →
        diagnostics text = lines.flatMap ownDiagnostics ∧
        (∀ line ∈ lines, (ownDiagnostics line).length ≤ 1) ∧
        (∀ (before after : List (List Char)) (idle : List Char) (longer : String),
          lines = before ++ after → IsIdle idle → Lined longer.toList (before ++ idle :: after) →
            diagnostics longer = diagnostics text) ∧
        ∀ (before after : List (List Char)) (line : List Char), lines = before ++ line :: after →
          diagnostics text = before.flatMap ownDiagnostics ++
            (ownDiagnostics line ++ after.flatMap ownDiagnostics) ∧
          (∀ (changed : List Char) (other : String), Lined other.toList (before ++ changed :: after) →
            diagnostics other = before.flatMap ownDiagnostics ++
              (ownDiagnostics changed ++ after.flatMap ownDiagnostics)) ∧
          ∀ shorter : String, Lined shorter.toList (before ++ after) →
            diagnostics shorter =
              before.flatMap ownDiagnostics ++ after.flatMap ownDiagnostics := by
  refine ⟨diagnostics_append, fun text => Text.exists_lined _, fun text lines hLined => ?_⟩
  have hText := diagnostics_of_lined hLined
  refine ⟨hText, fun line hLine => ?_, ?_, ?_⟩
  · rw [ownDiagnostics_eq (hLined.notMem line hLine)]
    cases lineDiagnostic? line <;> simp
  · rintro before after idle longer rfl hIdle hLonger
    have hNone : ownDiagnostics idle = [] := by
      rw [ownDiagnostics_eq (hLonger.notMem idle (by simp)), hIdle.lineDiagnostic?]
      rfl
    rw [hText, diagnostics_of_lined hLonger, List.flatMap_append, List.flatMap_append,
      List.flatMap_cons, hNone, List.nil_append]
  · rintro before after line rfl
    refine ⟨?_, fun changed other hOther => ?_, fun shorter hShorter => ?_⟩
    · rw [hText, List.flatMap_append, List.flatMap_cons]
    · rw [diagnostics_of_lined hOther, List.flatMap_append, List.flatMap_cons]
    · rw [diagnostics_of_lined hShorter, List.flatMap_append]

/-- A record between a blank line and an unfinished one, with different ends of lines. -/
def noisyReport : String :=
  String.ofList ('\t' :: '\r' :: '\n' :: (paddedRecord ++ '\n' :: ['\x7b']))

theorem diagnostics_line_by_line_noisy : IsIdle ['\x7b'] ∧
    Lined noisyReport.toList [['\t'], paddedRecord, ['\x7b']] ∧
    (diagnostics noisyReport).length = 1 := by
  have hIdle : IsIdle ['\x7b'] := .unreadable (Json.not_writesText_of_refused (by decide))
  have hBlank : '\n' ∉ ['\t'] := by decide
  have hEnd : Lined ['\x7b'] [['\x7b']] := .last (by decide)
  have hShort : Lined (String.ofList ('\t' :: '\r' :: '\n' :: paddedRecord)).toList
      [['\t'], paddedRecord] := by
    rw [String.toList_ofList]
    exact .returnFeed hBlank (.last notMem_paddedRecord)
  have hLong : Lined noisyReport.toList [['\t'], paddedRecord, ['\x7b']] := by
    rw [noisyReport, String.toList_ofList]
    exact .returnFeed hBlank (.feed notMem_paddedRecord hEnd)
  obtain ⟨hText, -, hInsert, -⟩ := diagnostics_line_by_line.2.2 _ _ hShort
  have hTab : ownDiagnostics ['\t'] = [] := by
    rw [ownDiagnostics_eq hBlank]
    rfl
  refine ⟨hIdle, hLong, ?_⟩
  rw [hInsert [['\t'], paddedRecord] [] ['\x7b'] _ rfl hIdle hLong, hText, List.flatMap_cons, hTab,
    List.nil_append, List.flatMap_singleton, length_paddedRecord]

end LintRepair.Report.MessageStream
