import LintRepair.Proofs.Json.Printing
import LintRepair.Proofs.Text.Occurrences
import LintRepair.Terminal.Output

/-! The marker of a fix request in written JSON. It opens with a quote, and the quote in its middle
follows a plain letter, so it can only stand where a member with the name of the task begins. In the
compact form that is once for each such member; in the pretty form a space stands behind every
colon, and the marker stands nowhere. -/

namespace LintRepair

open Text (occurrences)

namespace Message

/-- The end of a member's name, with a quote before it, that the marker opens with. -/
def opening : List Char := ['"', 't', 'a', 's', 'k']

theorem marker_eq :
    marker = opening ++ '"' :: ':' :: Json.quote FixRequest.task := rfl

/-- A text makes a request if the marker is anywhere in it. -/
theorem isFixRequest_userText (text : String) :
    (userText text).isFixRequest = true ↔ marker <:+: text.toList := by
  simp [isFixRequest, userText, texts, Text.hasInfix_iff]

theorem occurrences_marker_cons {c : Char} (h : '"' ≠ c) (rest : List Char) :
    occurrences marker (c :: rest) = occurrences marker rest :=
  Text.occurrences_cons_of_ne h marker.tail rest

/-- A stretch without quotes holds no start of the marker. -/
theorem occurrences_marker_append {stretch : List Char} (h : '"' ∉ stretch) (rest : List Char) :
    occurrences marker (stretch ++ rest) = occurrences marker rest :=
  Text.occurrences_append_of_notMem h marker.tail rest

end Message

namespace Json

open Message

/-- Whether a member of this name and value spells the marker. The name need not
be the task's name: an escaped quote inside a name serves as well. -/
def spellsMarker (name : String) : Json → Bool
  | .string s => s == FixRequest.task && opening.isSuffixOf ('"' :: name.toList)
  | _ => false

mutual

/-- How many members of a value, at any depth, spell the marker. -/
def markerCount : Json → Nat
  | .array items => markerCountItems items
  | .object members => markerCountMembers members
  | _ => 0

/-- The count over the items of an array. -/
def markerCountItems : List Json → Nat
  | [] => 0
  | v :: rest => v.markerCount + markerCountItems rest

/-- The count over the members of an object. -/
def markerCountMembers : List (String × Json) → Nat
  | [] => 0
  | (name, v) :: rest =>
    (spellsMarker name v).toNat + v.markerCount + markerCountMembers rest

end

/-- Behind a quote the rest of a name has to be the task's, and the value that
follows has to be the task. -/
theorem marker_prefix_iff (s rest : List Char) :
    marker <+: '"' :: (escaped s ++ '"' :: rest) ↔
      s = ['t', 'a', 's', 'k'] ∧ ':' :: quote FixRequest.task <+: rest := by
  have hPlain : ∀ c ∈ ['t', 'a', 's', 'k'], IsPlain c := by simp [IsPlain]
  rw [← plain_quote_prefix_iff hPlain]
  simp [marker_eq, opening]

/-- At an opening quote the marker stands only where the whole name is `task` and its value is the task of
a request. -/
theorem occurrences_quote_cons (s rest : List Char) :
    occurrences marker ('"' :: (escaped s ++ '"' :: rest)) =
      (if s = ['t', 'a', 's', 'k'] ∧ ':' :: quote FixRequest.task <+: rest then 1 else 0) +
        occurrences marker (escaped s ++ '"' :: rest) := by
  rw [Text.occurrences_cons]
  simp only [marker_prefix_iff]

theorem opening_suffix_cons_of_ne {c : Char} (h : c ≠ '"') (s : List Char) :
    opening <:+ c :: s ↔ opening <:+ s := by
  rw [List.suffix_cons_iff, or_iff_right]
  intro hEq
  exact h (List.cons.inj hEq).1.symm

theorem opening_suffix_quote_cons (s : List Char) :
    opening <:+ '"' :: s ↔ s = ['t', 'a', 's', 'k'] ∨ opening <:+ s := by
  rw [List.suffix_cons_iff]
  exact or_congr_left ⟨fun h => (List.cons.inj h).2.symm, fun h => h ▸ rfl⟩

/-- A quote in front adds the one start at which all of the string is the rest
of the name. The four letters alone are too short for the opening to end them. -/
theorem opening_count_quote_cons (s : List Char) (follows : Prop) [Decidable follows] :
    (if s = ['t', 'a', 's', 'k'] ∧ follows then 1 else 0) + (if opening <:+ s ∧ follows then 1 else 0) =
      if opening <:+ '"' :: s ∧ follows then 1 else 0 := by
  simp only [opening_suffix_quote_cons]
  by_cases hName : s = ['t', 'a', 's', 'k']
  · have hShort : ¬ opening <:+ s := by
      rw [hName]
      decide
    simp [hName, hName ▸ hShort]
  · simp [hName]

/-- Inside a string the marker can start only at an escaped quote. -/
theorem occurrences_escaped (s : List Char) {rest : List Char} (hRest : ∀ c ∈ rest.head?, c ≠ 't') :
    occurrences marker (escaped s ++ '"' :: rest) =
      (if opening <:+ s ∧ ':' :: quote FixRequest.task <+: rest then 1 else 0) +
        occurrences marker rest := by
  induction s with
  | nil =>
      have hNot : ¬ marker <+: '"' :: rest := by
        cases rest with
        | nil => decide
        | cons c rest =>
            have hNe : 't' ≠ c := (hRest c (by simp)).symm
            simp [marker_eq, opening, hNe]
      simp [Text.occurrences_cons, hNot, opening]
  | cons c s ih =>
      rw [escaped_cons, List.append_assoc]
      by_cases hPlain : IsPlain c
      · rw [escapeChar_of_isPlain hPlain, List.singleton_append,
          occurrences_marker_cons hPlain.1.symm, ih]
        simp only [opening_suffix_cons_of_ne hPlain.1]
      · obtain ⟨tail, hEq, hCase, -⟩ := escapeChar_of_not_isPlain hPlain
        rw [hEq, List.cons_append, occurrences_marker_cons (by decide)]
        rcases hCase with ⟨rfl, rfl⟩ | ⟨hNe, hTail⟩
        · rw [List.singleton_append, occurrences_quote_cons, ih, ← Nat.add_assoc,
            opening_count_quote_cons]
        · rw [occurrences_marker_append hTail, ih]
          simp only [opening_suffix_cons_of_ne hNe]

/-- In a written string, its delimiters included, the marker starts where the
string ends with the opening and the value of the task stands behind it. -/
theorem occurrences_quote (name : String) {rest : List Char} (hRest : ∀ c ∈ rest.head?, c ≠ 't') :
    occurrences marker (quote name ++ rest) =
      (if opening <:+ '"' :: name.toList ∧ ':' :: quote FixRequest.task <+: rest then 1 else 0) +
        occurrences marker rest := by
  rw [quote_eq, List.append_assoc, List.cons_append, List.singleton_append,
    occurrences_quote_cons, occurrences_escaped _ hRest, ← Nat.add_assoc, opening_count_quote_cons]

/-- A string that is no member's name holds no start of the marker. -/
theorem occurrences_quote_of_closes (s : String) {rest : List Char} (hRest : Closes rest) :
    occurrences marker (quote s ++ rest) = occurrences marker rest := by
  have hHead : ∀ c ∈ rest.head?, c ≠ 't' ∧ ':' ≠ c := by
    intro c hc
    have hMem := hRest c hc
    constructor <;> rintro rfl <;> simp at hMem
  rw [occurrences_quote s fun c hc => (hHead c hc).1, if_neg, Nat.zero_add]
  rintro ⟨-, hPrefix⟩
  cases rest with
  | nil => exact absurd hPrefix (by decide)
  | cons c rest => exact (hHead c (by simp)).2 (List.cons_prefix_cons.mp hPrefix).1

/-- A scalar holds no marker: the quotes inside it are escaped. -/
theorem occurrences_scalar (v : Json) {rest : List Char} (hRest : Closes rest) :
    occurrences marker (v.scalar ++ rest) = occurrences marker rest := by
  by_cases hString : ∃ s, v = .string s
  · obtain ⟨s, rfl⟩ := hString
    exact occurrences_quote_of_closes s hRest
  · apply occurrences_marker_append
    intro hMem
    exact (isPlain_of_mem_scalar (not_exists.mp hString) hMem).1 rfl

/-- Only a written string begins with a quote. -/
theorem head_compact_ne_quote {v : Json} (hNotString : ∀ s, v ≠ .string s) {rest : List Char}
    (hRest : Closes rest) : ∀ c ∈ (v.compact ++ rest).head?, c ≠ '"' := by
  have hScalar : ∀ c ∈ (v.scalar ++ rest).head?, c ≠ '"' := by
    intro c hc
    rw [List.head?_append, Option.mem_def, Option.or_eq_some_iff] at hc
    rcases hc with hc | ⟨-, hc⟩
    · exact (isPlain_of_mem_scalar hNotString (List.mem_of_mem_head? hc)).1
    · have hMem := hRest c hc
      rintro rfl
      simp at hMem
  cases v with
  | array items => simp [compact]
  | object members => simp [compact]
  | null => exact hScalar
  | bool b => exact hScalar
  | int i => exact hScalar
  | float negative m => exact hScalar
  | string s => exact absurd rfl (hNotString s)

/-- The value of the task stands in front exactly when the value written there
is it. -/
theorem task_prefix_iff (v : Json) {rest : List Char} (hRest : Closes rest) :
    quote FixRequest.task <+: v.compact ++ rest ↔ v = .string FixRequest.task := by
  have hQuote : quote FixRequest.task = '"' :: (FixRequest.task.toList ++ ['"']) := by decide
  by_cases hString : ∃ s, v = .string s
  · obtain ⟨s, rfl⟩ := hString
    have hPlain : ∀ c ∈ FixRequest.task.toList, IsPlain c := by simp [FixRequest.task, IsPlain]
    have hIff : FixRequest.task.toList ++ '"' :: [] <+: escaped s.toList ++ '"' :: rest ↔
        s.toList = FixRequest.task.toList ∧ [] <+: rest := plain_quote_prefix_iff hPlain
    simp only [List.nil_prefix, and_true] at hIff
    simp [compact, scalar, hQuote, quote_eq, hIff, String.toList_inj]
  · have hHead := head_compact_ne_quote (not_exists.mp hString) hRest
    refine iff_of_false ?_ fun h => hString ⟨_, h⟩
    rw [hQuote]
    rintro ⟨tail, hEq⟩
    exact hHead '"' (by simp [← hEq]) rfl

/-- A member spells the marker if its name is the first word of it, or ends in that word behind a
quote, and its value is the task of a request. -/
theorem spellsMarker_iff (name : String) (v : Json) :
    spellsMarker name v = true ↔ opening <:+ '"' :: name.toList ∧ v = .string FixRequest.task := by
  cases v with
  | string s => simp [spellsMarker, and_comm]
  | _ => simp [spellsMarker]

/-- A member adds a start of the marker exactly when it spells the marker. -/
theorem occurrences_member (name : String) (v : Json) {rest : List Char} (hRest : Closes rest) :
    occurrences marker (quote name ++ ':' :: (v.compact ++ rest)) =
      (spellsMarker name v).toNat + occurrences marker (v.compact ++ rest) := by
  have hIff : (opening <:+ '"' :: name.toList ∧
      ':' :: quote FixRequest.task <+: ':' :: (v.compact ++ rest)) ↔ spellsMarker name v = true := by
    rw [List.cons_prefix_cons, task_prefix_iff v hRest, spellsMarker_iff, and_iff_right rfl]
  rw [occurrences_quote name (by simp), occurrences_marker_cons (by decide)]
  congr 1
  cases hSpells : spellsMarker name v with
  | true => exact if_pos (hIff.mpr hSpells)
  | false => exact if_neg fun h => Bool.eq_false_iff.mp hSpells (hIff.mp h)

mutual

/-- In the compact form the marker stands once for each member that spells it,
whatever else the value holds. -/
theorem occurrences_compact {rest : List Char} (hRest : Closes rest) :
    (v : Json) → occurrences marker (v.compact ++ rest) = v.markerCount + occurrences marker rest
  | .array items => by
      simp only [compact, List.cons_append, List.append_assoc, List.nil_append]
      rw [occurrences_marker_cons (by decide),
        occurrences_compactItems (closes_cons.mpr (by decide)) items,
        occurrences_marker_cons (by decide), markerCount]
  | .object members => by
      simp only [compact, List.cons_append, List.append_assoc, List.nil_append]
      rw [occurrences_marker_cons (by decide),
        occurrences_compactMembers (closes_cons.mpr (by decide)) members,
        occurrences_marker_cons (by decide), markerCount]
  | .null => (occurrences_scalar .null hRest).trans (Nat.zero_add _).symm
  | .bool b => (occurrences_scalar (.bool b) hRest).trans (Nat.zero_add _).symm
  | .int i => (occurrences_scalar (.int i) hRest).trans (Nat.zero_add _).symm
  | .float negative m => (occurrences_scalar (.float negative m) hRest).trans (Nat.zero_add _).symm
  | .string s => (occurrences_scalar (.string s) hRest).trans (Nat.zero_add _).symm

theorem occurrences_compactItems {rest : List Char} (hRest : Closes rest) : (items : List Json) →
    occurrences marker (compactItems items ++ rest) = markerCountItems items + occurrences marker rest
  | [] => by simp [compactItems, markerCountItems]
  | [v] => by simp [compactItems, markerCountItems, occurrences_compact hRest v]
  | v :: w :: more => by
      simp only [compactItems, List.cons_append, List.append_assoc]
      rw [occurrences_compact (closes_cons.mpr (by decide)) v, occurrences_marker_cons (by decide),
        occurrences_compactItems hRest (w :: more), ← Nat.add_assoc]
      rfl

theorem occurrences_compactMembers {rest : List Char} (hRest : Closes rest) :
    (members : List (String × Json)) → occurrences marker (compactMembers members ++ rest) =
      markerCountMembers members + occurrences marker rest
  | [] => by simp [compactMembers, markerCountMembers]
  | [(name, v)] => by
      simp only [compactMembers, List.cons_append, List.append_assoc]
      rw [occurrences_member name v hRest, occurrences_compact hRest v, ← Nat.add_assoc]
      rfl
  | (name, v) :: w :: more => by
      simp only [compactMembers, List.cons_append, List.append_assoc]
      have hNext : Closes (',' :: (compactMembers (w :: more) ++ rest)) := closes_cons.mpr (by decide)
      rw [occurrences_member name v hNext, occurrences_compact hNext v,
        occurrences_marker_cons (by decide), occurrences_compactMembers hRest (w :: more)]
      simp only [markerCountMembers]
      omega

end

/-- A member's name in the pretty form: the space behind the colon keeps the
value's quote away from it. -/
theorem occurrences_prettyName (name : String) (rest : List Char) :
    occurrences marker (quote name ++ ':' :: ' ' :: rest) = occurrences marker rest := by
  have hSpace : ¬ ':' :: quote FixRequest.task <+: ':' :: ' ' :: rest := by
    simp [quote_eq]
  rw [occurrences_quote name (by simp), if_neg fun h => hSpace h.2, Nat.zero_add,
    occurrences_marker_cons (by decide), occurrences_marker_cons (by decide)]

theorem occurrences_newline (depth : Nat) (rest : List Char) :
    occurrences marker (newline depth ++ rest) = occurrences marker rest := by
  apply occurrences_marker_append
  simp [newline]

mutual

/-- In the pretty form the marker stands nowhere, whatever the value holds. -/
theorem occurrences_prettyAt {rest : List Char} (hRest : Closes rest) (depth : Nat) :
    (v : Json) → occurrences marker (v.prettyAt depth ++ rest) = occurrences marker rest
  | .array [] => by
      simp only [prettyAt, List.cons_append, List.nil_append]
      rw [occurrences_marker_cons (by decide), occurrences_marker_cons (by decide)]
  | .array (v :: more) => by
      have hClose := closes_newline depth (']' :: rest)
      simp only [prettyAt, List.cons_append, List.append_assoc, List.nil_append]
      rw [occurrences_marker_cons (by decide), occurrences_newline,
        occurrences_prettyAt (closes_prettyItems hClose (depth + 1) more) (depth + 1) v,
        occurrences_prettyItems hClose (depth + 1) more, occurrences_newline,
        occurrences_marker_cons (by decide)]
  | .object [] => by
      simp only [prettyAt, List.cons_append, List.nil_append]
      rw [occurrences_marker_cons (by decide), occurrences_marker_cons (by decide)]
  | .object ((name, v) :: more) => by
      have hClose := closes_newline depth ('\x7d' :: rest)
      simp only [prettyAt, List.cons_append, List.append_assoc, List.nil_append]
      rw [occurrences_marker_cons (by decide), occurrences_newline, occurrences_prettyName,
        occurrences_prettyAt (closes_prettyMembers hClose (depth + 1) more) (depth + 1) v,
        occurrences_prettyMembers hClose (depth + 1) more, occurrences_newline,
        occurrences_marker_cons (by decide)]
  | .null => occurrences_scalar .null hRest
  | .bool b => occurrences_scalar (.bool b) hRest
  | .int i => occurrences_scalar (.int i) hRest
  | .float negative m => occurrences_scalar (.float negative m) hRest
  | .string s => occurrences_scalar (.string s) hRest

theorem occurrences_prettyItems {rest : List Char} (hRest : Closes rest) (depth : Nat) :
    (items : List Json) →
      occurrences marker (prettyItems depth items ++ rest) = occurrences marker rest
  | [] => by simp [prettyItems]
  | v :: more => by
      simp only [prettyItems, List.cons_append, List.append_assoc]
      rw [occurrences_marker_cons (by decide), occurrences_newline,
        occurrences_prettyAt (closes_prettyItems hRest depth more) depth v,
        occurrences_prettyItems hRest depth more]

theorem occurrences_prettyMembers {rest : List Char} (hRest : Closes rest) (depth : Nat) :
    (members : List (String × Json)) →
      occurrences marker (prettyMembers depth members ++ rest) = occurrences marker rest
  | [] => by simp [prettyMembers]
  | (name, v) :: more => by
      simp only [prettyMembers, List.cons_append, List.append_assoc]
      rw [occurrences_marker_cons (by decide), occurrences_newline, occurrences_prettyName,
        occurrences_prettyAt (closes_prettyMembers hRest depth more) depth v,
        occurrences_prettyMembers hRest depth more]

end

/-- Behind a colon the pretty form has a space, which the marker has not. -/
theorem not_marker_infix_pretty (v : Json) : ¬ marker <:+: v.pretty := by
  have hPretty := occurrences_prettyAt closes_nil 0 v
  rw [List.append_nil] at hPretty
  rw [← Text.occurrences_eq_zero_iff]
  exact hPretty.trans (Text.occurrences_cons_nil '"' marker.tail)

theorem markerCountItems_eq_zero {items : List Json} (h : ∀ v ∈ items, v.markerCount = 0) :
    markerCountItems items = 0 := by
  induction items with
  | nil => rfl
  | cons v more ih =>
      rw [markerCountItems, h v (List.mem_cons_self ..),
        ih fun w hw => h w (List.mem_cons_of_mem _ hw)]

/-- Members whose names do not end the way the marker opens spell it only inside
their values. -/
theorem markerCountMembers_eq_zero {members : List (String × Json)}
    (h : ∀ m ∈ members, opening.isSuffixOf ('"' :: m.1.toList) = false ∧ m.2.markerCount = 0) :
    markerCountMembers members = 0 := by
  induction members with
  | nil => rfl
  | cons m more ih =>
      obtain ⟨name, v⟩ := m
      obtain ⟨hName, hValue⟩ := h (name, v) (List.mem_cons_self ..)
      have hSpells : spellsMarker name v = false := by
        rw [Bool.eq_false_iff, ne_eq, spellsMarker_iff, ← List.isSuffixOf_iff_suffix, hName]
        simp
      rw [markerCountMembers, hSpells, hValue, ih fun w hw => h w (List.mem_cons_of_mem _ hw)]
      rfl

end Json

theorem Diagnostic.markerCount_toJson (d : Diagnostic) : d.toJson.markerCount = 0 := by
  apply Json.markerCountMembers_eq_zero
  simp [Message.opening, List.isSuffixOf, List.isPrefixOf, Json.markerCount, Severity.toJson, Json.count]

theorem Summary.markerCount_toJson (s : Summary) : s.toJson.markerCount = 0 := by
  apply Json.markerCountMembers_eq_zero
  simp [Message.opening, List.isSuffixOf, List.isPrefixOf, Json.markerCount, Json.nat]

theorem CheckResult.markerCount_toJson (r : CheckResult) : r.toJson.markerCount = 0 := by
  have hDiagnostics : (Diagnostic.listJson r.diagnostics).markerCount = 0 := by
    apply Json.markerCountItems_eq_zero
    simp [Diagnostic.markerCount_toJson]
  apply Json.markerCountMembers_eq_zero
  simp [Message.opening, List.isSuffixOf, List.isPrefixOf, Json.markerCount, Ecosystem.toJson, hDiagnostics,
    Summary.markerCount_toJson]

theorem CheckResult.markerCount_listJson (rs : List CheckResult) : (listJson rs).markerCount = 0 := by
  apply Json.markerCountItems_eq_zero
  simp [CheckResult.markerCount_toJson]

/-- Of all members of a request only the first spells the marker: no other member,
of the request or of its results, has a name that ends that way. -/
theorem FixRequest.markerCount_toJson (r : FixRequest) : r.toJson.markerCount = 1 := by
  have hTask : Json.spellsMarker "task" (.string task) = true := by decide
  have hRest : Json.markerCountMembers [("instruction", .string instruction),
      ("iteration", .count r.iteration), ("maxIterations", .count r.maxIterations),
      ("results", CheckResult.listJson r.results)] = 0 := by
    apply Json.markerCountMembers_eq_zero
    simp [Message.opening, List.isSuffixOf, List.isPrefixOf, Json.markerCount, Json.count,
      CheckResult.markerCount_listJson]
  rw [toJson, Json.markerCount, Json.markerCountMembers, hTask, hRest]
  rfl

namespace FixRequest

open Message (marker)

theorem toList_payload (r : FixRequest) : r.payload.toList = r.toJson.compact :=
  String.toList_ofList

/-- A payload holds the marker once, whatever the diagnostics in it quote. -/
theorem occurrences_payload (r : FixRequest) : occurrences marker r.payload.toList = 1 := by
  have hCompact := Json.occurrences_compact Json.closes_nil r.toJson
  rw [List.append_nil, markerCount_toJson] at hCompact
  rw [toList_payload, hCompact]
  rfl

/-- A message that holds a payload, whatever else it says, is a fix request. -/
theorem isFixRequest_of_payload_infix (r : FixRequest) {text : String}
    (h : r.payload.toList <:+: text.toList) : (Message.userText text).isFixRequest = true := by
  have hMarker : marker <:+: r.payload.toList := by
    by_contra hNot
    rw [← Text.occurrences_eq_zero_iff, occurrences_payload] at hNot
    exact absurd hNot (by decide)
  exact (Message.isFixRequest_userText text).mpr (hMarker.trans h)

end FixRequest

end LintRepair
