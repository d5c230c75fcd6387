import LintRepair.Proofs.Lint.Canonicity

/-! Colour is decoration. A text from which all styling sequences are deleted is the text that is
written without styles, as long as no sequence could begin in what is set off by them. -/

namespace LintRepair.Terminal

/-! ### Deleting styles -/

/-- The character that every control sequence begins with. -/
def escape : Char := '\x1b'

/-- A character of the numbers in a styling sequence: digits, and what stands between numbers. -/
def isParameter (c : Char) : Bool := c.isDigit || c == ';' || c == ':'

/-- How many characters belong to the numbers of a styling sequence and the letter that ends it. -/
def numbersLength? : List Char → Option Nat
  | [] => none
  | c :: rest =>
    if isParameter c then (numbersLength? rest).map (· + 1) else if c = 'm' then some 1 else none

/-- How many characters follow an escape that begins a styling sequence and belong to it. -/
def sequenceLength? : List Char → Option Nat
  | '[' :: rest => (numbersLength? rest).map (· + 1)
  | _ => none

/-- A text without the styling sequences in it, the first characters being passed over. -/
def unstyledFrom : Nat → List Char → List Char
  | _, [] => []
  | skip + 1, _ :: rest => unstyledFrom skip rest
  | 0, c :: rest =>
    match if c = escape then sequenceLength? rest else none with
    | some length => unstyledFrom length rest
    | none => c :: unstyledFrom 0 rest

/-- A text without the styling sequences in it. All else stays, other control sequences too. -/
def unstyled (text : List Char) : List Char := unstyledFrom 0 text

theorem unstyledFrom_append (front rest : List Char) :
    unstyledFrom front.length (front ++ rest) = unstyled rest := by
  induction front with
  | nil => rfl
  | cons c front ih => exact ih

/-- Nothing begins in a stretch without an escape. -/
theorem unstyled_append {stretch : List Char} (h : escape ∉ stretch) (rest : List Char) :
    unstyled (stretch ++ rest) = stretch ++ unstyled rest := by
  induction stretch with
  | nil => rfl
  | cons c stretch ih =>
      obtain ⟨hHead, hTail⟩ := not_or.mp (mt List.mem_cons.mpr h)
      rw [List.cons_append, unstyled, unstyledFrom, if_neg (Ne.symm hHead)]
      exact congrArg (c :: ·) (ih hTail)

theorem numbersLength?_append {code : List Char} (hCode : ∀ c ∈ code, isParameter c = true)
    (rest : List Char) : numbersLength? (code ++ 'm' :: rest) = some (code ++ ['m']).length := by
  induction code with
  | nil => rfl
  | cons c code ih =>
      obtain ⟨hHead, hTail⟩ := List.forall_mem_cons.mp hCode
      rw [List.cons_append, numbersLength?, if_pos hHead, ih hTail]
      rfl

/-- A control sequence leaves nothing behind. -/
theorem unstyled_control {code : List Char} (hCode : ∀ c ∈ code, isParameter c = true)
    (rest : List Char) : unstyled (control code ++ rest) = unstyled rest := by
  have hText : control code ++ rest = escape :: '[' :: (code ++ ['m'] ++ rest) := by
    simp [control, escape]
  have hLength : sequenceLength? ('[' :: (code ++ ['m'] ++ rest)) =
      some ('[' :: (code ++ ['m'])).length := by
    rw [sequenceLength?, List.append_assoc, List.singleton_append, numbersLength?_append hCode]
    rfl
  rw [hText, unstyled, unstyledFrom, if_pos rfl, hLength]
  exact unstyledFrom_append _ rest

/-! ### Lines -/

/-- Styles are switched by numbers alone. -/
theorem isParameter_code (s : Style) : ∀ c ∈ s.code, isParameter c = true :=
  List.all_eq_true.mp (by cases s <;> decide)

theorem isParameter_closing (s : Style) : ∀ c ∈ s.closing, isParameter c = true :=
  List.all_eq_true.mp (by cases s <;> decide)

/-- A text without an escape is got back from between its styles, however they are nested. -/
theorem unstyled_wrap {text : List Char} (h : escape ∉ text) (styles : List Style)
    (rest : List Char) : unstyled (wrap styles text ++ rest) = text ++ unstyled rest := by
  induction styles generalizing rest with
  | nil => exact unstyled_append h rest
  | cons style styles ih =>
      rw [wrap, List.append_assoc, List.append_assoc, unstyled_control (isParameter_code style), ih,
        unstyled_control (isParameter_closing style)]

/-- Without its control sequences a piece is its text. -/
theorem unstyled_piece {p : Piece} (h : escape ∉ p.text) (rest : List Char) :
    unstyled (p.render true ++ rest) = p.render false ++ unstyled rest :=
  unstyled_wrap h p.styles rest

/-- Without its control sequences a line is the one without colours. -/
theorem unstyled_render {line : List Piece} (h : ∀ p ∈ line, escape ∉ p.text) (rest : List Char) :
    unstyled (render true line ++ rest) = render false line ++ unstyled rest := by
  induction line with
  | nil => rfl
  | cons p line ih =>
      obtain ⟨hHead, hTail⟩ := List.forall_mem_cons.mp h
      have hLine (color : Bool) : render color (p :: line) = p.render color ++ render color line := by
        rw [render, List.flatMap_cons, render]
      rw [hLine, hLine, List.append_assoc, unstyled_piece hHead, ih hTail, List.append_assoc]

/-- Line ends are kept, so the lines of a text are freed of their styles one by one. -/
theorem unstyled_lines {lines : List (List Piece)} (h : ∀ line ∈ lines, ∀ p ∈ line, escape ∉ p.text) :
    unstyled (lines.flatMap (renderLine true)) = lines.flatMap (renderLine false) := by
  induction lines with
  | nil => rfl
  | cons line lines ih =>
      obtain ⟨hHead, hTail⟩ := List.forall_mem_cons.mp h
      have hBreak : escape ∉ ['\n'] := by decide
      rw [List.flatMap_cons, List.flatMap_cons, renderLine, renderLine, List.append_assoc,
        unstyled_render hHead, unstyled_append hBreak, ih hTail, List.append_assoc]

/-! ### Results -/

/-- No control sequence can begin in what a diagnostic says. -/
structure Inert (d : Diagnostic) : Prop where
  file : escape ∉ d.file.toList
  rule : escape ∉ d.rule.toList
  message : escape ∉ d.message.toList

/-- No control sequence can begin in what a result says. -/
structure InertResult (r : CheckResult) : Prop where
  target : escape ∉ r.target.toList
  diagnostics : ∀ d ∈ r.diagnostics, Inert d

/-- A number is printed in digits. -/
theorem notMem_number (n : Nat) : escape ∉ number n := by
  intro h
  have hDigit := Nat.isDigit_of_mem_toDigits (b := 10) (by decide) (by decide) h
  exact absurd hDigit (by decide)

theorem Inert.notMem_entry {d : Diagnostic} (h : Inert d) :
    ∀ p ∈ plain [' ', ' '] :: entry d, escape ∉ p.text := by
  have hIcon : escape ∉ severityIcon d.severity := by cases d.severity <;> decide +kernel
  have hWord : escape ∉ severityWord d.severity := by cases d.severity <;> decide +kernel
  have hOpen : escape ∉ " ❲".toList := by decide +kernel
  have hClose : escape ∉ "❳ ".toList := by decide +kernel
  have hMark : escape ∉ if d.fixable then " (fixable)".toList else [] := by
    split <;> decide +kernel
  have hColon {text : List Char} (hText : escape ∉ text) : escape ∉ ':' :: text :=
    List.not_mem_cons_of_ne_of_not_mem (by decide) hText
  simp only [entry, plain, List.forall_mem_cons]
  refine ⟨by decide, hIcon, by decide, hWord, by decide, ?_, ?_, hMark, List.forall_mem_nil _⟩
  · exact List.not_mem_append (List.not_mem_append h.file (hColon (notMem_number _)))
      (hColon (notMem_number _))
  · exact List.not_mem_append (List.not_mem_append (List.not_mem_append hOpen h.rule) hClose) h.message

/-- Results without escapes are printed without any. -/
theorem InertResult.notMem_lines {r : CheckResult} (h : InertResult r) :
    ∀ line ∈ resultLines r, ∀ p ∈ line, escape ∉ p.text := by
  have hTag : escape ∉ '[' :: r.ecosystem.tag.toList := by cases r.ecosystem <;> decide +kernel
  have hGap : escape ∉ "] ".toList := by decide +kernel
  refine List.forall_mem_cons.mpr
    ⟨?_, List.forall_mem_map.mpr fun d hd => (h.diagnostics d hd).notMem_entry⟩
  exact List.forall_mem_singleton.mpr
    (List.not_mem_append (List.not_mem_append hTag hGap) h.target)

theorem notMem_summaryLine (rs : List CheckResult) : ∀ p ∈ summaryLine rs, escape ∉ p.text := by
  have hTargets : escape ∉ "— Summary — targets=".toList := by decide +kernel
  have hTotal : escape ∉ " total=".toList := by decide +kernel
  have hFixable : escape ∉ " fixable=".toList := by decide +kernel
  have hUnfixable : escape ∉ " unfixable=".toList := by decide +kernel
  simp only [summaryLine, List.forall_mem_singleton, List.mem_append, hTargets, hTotal, hFixable,
    hUnfixable, notMem_number, or_self, not_false_eq_true]

/-! ### What is written without colour -/

def headingText (r : CheckResult) : String := "[" ++ r.ecosystem.tag ++ "] " ++ r.target

/-- The entry of a diagnostic as text: the sign and the name of its severity, where it is, its rule,
what it says, and a mark if it can be fixed. -/
def entryText (d : Diagnostic) : String :=
  (match d.severity with
    | .error => "  ✖ ⟦error⟧ "
    | .warning => "  ▲ ⟦warn⟧ ") ++
  d.file ++ ":" ++ toString d.line.toNat ++ ":" ++ toString d.column.toNat ++
  " ❲" ++ d.rule ++ "❳ " ++ d.message ++ (if d.fixable then " (fixable)" else "")

/-- The line that sums up as text. -/
def summaryText (rs : List CheckResult) : String :=
  "— Summary — targets=" ++ toString rs.length ++
  " total=" ++ toString (rs.map fun r => r.summary.total).sum ++
  " fixable=" ++ toString (rs.map fun r => r.summary.fixable).sum ++
  " unfixable=" ++ toString (rs.map fun r => r.summary.unfixable).sum

/-- The lines for some results: for each its heading and its entries, and the sum of them all. -/
def listing (rs : List CheckResult) : List String :=
  rs.flatMap (fun r => headingText r :: r.diagnostics.map entryText) ++ [summaryText rs]

theorem toList_toString (n : Nat) : (toString n).toList = number n := String.toList_ofList

theorem render_heading (r : CheckResult) : render false (heading r) = (headingText r).toList := by
  have hBracket : "[".toList = ['['] := by decide +kernel
  rw [render, heading, List.flatMap_singleton, headingText, String.toList_append, String.toList_append,
    String.toList_append, hBracket]
  rfl

theorem render_entry (d : Diagnostic) :
    render false (plain [' ', ' '] :: entry d) = (entryText d).toList := by
  have hError : "  ✖ ⟦error⟧ ".toList = [' ', ' ', '✖', ' '] ++ "⟦error⟧".toList ++ [' '] := by
    decide +kernel
  have hWarning : "  ▲ ⟦warn⟧ ".toList = [' ', ' ', '▲', ' '] ++ "⟦warn⟧".toList ++ [' '] := by
    decide +kernel
  have hColon : ":".toList = [':'] := by decide +kernel
  have hMark : (if d.fixable then " (fixable)" else "").toList =
      if d.fixable then " (fixable)".toList else [] := by
    rw [apply_ite String.toList, String.toList_empty]
  rw [entryText]
  cases hSeverity : d.severity <;>
    simp only [render, entry, plain, Piece.render, severityIcon, severityWord, hSeverity,
      List.flatMap_cons, List.flatMap_nil, Bool.false_eq_true, if_false, String.toList_append,
      toList_toString, hError, hWarning, hColon, hMark, List.append_assoc, List.cons_append,
      List.nil_append, List.append_nil]

theorem render_summaryLine (rs : List CheckResult) :
    render false (summaryLine rs) = (summaryText rs).toList := by
  simp only [render, summaryLine, Piece.render, CheckResult.totals_eq, List.flatMap_singleton,
    Bool.false_eq_true, if_false]
  unfold summaryText
  conv_rhs => simp only [String.toList_append, toList_toString]

/-- Without colours what is printed is the listing, line by line. -/
theorem out_plain (rs : List CheckResult) :
    (results .human false rs).out = (listing rs).flatMap fun line => line.toList ++ ['\n'] := by
  have hResult (r : CheckResult) : (resultLines r).flatMap (renderLine false) =
      (headingText r :: r.diagnostics.map entryText).flatMap fun line => line.toList ++ ['\n'] := by
    rw [resultLines, List.flatMap_cons, List.flatMap_cons, List.flatMap_map, List.flatMap_map, renderLine,
      render_heading]
    simp only [renderLine, render_entry]
  simp only [results, listing, List.flatMap_append, List.flatMap_assoc, hResult, List.flatMap_singleton,
    renderLine, render_summaryLine]

/-- Colour changes nothing but colour. For people, what is written with colours is what is written
without them once the styling sequences are deleted, as long as no control sequence begins in a result
itself; this is a heading for every result, an entry for every diagnostic, and the line that sums up.
Nothing goes to the error stream, and for programs there are no colours at all. -/
theorem unstyled_results (rs : List CheckResult) :
    (∀ output, output ≠ "json" →
      ((∀ r ∈ rs, InertResult r) →
        unstyled (results (.ofName output) true rs).out = (results (.ofName output) false rs).out) ∧
      (results (.ofName output) false rs).out =
        (listing rs).flatMap (fun line => line.toList ++ ['\n']) ∧
      ∀ color, (results (.ofName output) color rs).err = []) ∧
    results (.ofName "json") true rs = results (.ofName "json") false rs := by
  refine ⟨fun output hOutput => ?_, rfl⟩
  have hFormat : Format.ofName output = .human := if_neg hOutput
  rw [hFormat]
  refine ⟨fun hInert => unstyled_lines ?_, out_plain rs, fun color => rfl⟩
  rw [List.forall_mem_append]
  constructor
  · intro line hLine
    obtain ⟨r, hr, hLine⟩ := List.mem_flatMap.mp hLine
    exact (hInert r hr).notMem_lines line hLine
  · exact List.forall_mem_singleton.mpr (notMem_summaryLine rs)

/-- A result with an error that can be fixed and a warning that cannot. -/
def mixedResult : CheckResult :=
  .counted .js "*.ts" [⟨"a.ts", 3, 7, "semi", .error, "Missing semicolon.", true⟩,
    ⟨"b.ts", 1, 1, "no-console", .warning, "[31m is no style.", false⟩]

/-- Its colours are there, and they can be deleted. -/
theorem unstyled_results_mixed : "human" ≠ "json" ∧ (∀ r ∈ [mixedResult], InertResult r) ∧
    unstyled (results (.ofName "human") true [mixedResult]).out =
      (results (.ofName "human") false [mixedResult]).out ∧
    (results (.ofName "human") true [mixedResult]).out ≠
      (results (.ofName "human") false [mixedResult]).out := by
  have hHuman : "human" ≠ "json" := by decide
  have hInert : ∀ r ∈ [mixedResult], InertResult r := by
    refine List.forall_mem_singleton.mpr ⟨by decide +kernel, ?_⟩
    rw [mixedResult, CheckResult.counted, List.forall_mem_cons, List.forall_mem_singleton]
    constructor <;> constructor <;> decide +kernel
  obtain ⟨hForPeople, -⟩ := unstyled_results [mixedResult]
  exact ⟨hHuman, hInert, (hForPeople "human" hHuman).1 hInert, by decide +kernel⟩

end LintRepair.Terminal
