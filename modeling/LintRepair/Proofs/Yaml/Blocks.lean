import LintRepair.Proofs.Yaml.Lexing

/-! Blocks of a YAML text. The entries of a block stand one below another at its column, and the block
reaches as far as the next entry at a column before it, or to the end of the text. -/

namespace LintRepair.Yaml

/-- Entries one below another at a column. -/
inductive Stacked {α : Type} (column : Nat) (Writes : List Char → α → Prop) :
    List Char → List α → Prop where
  | last {t : List Char} {a : α} (entry : Writes t a) : Stacked column Writes t [a]
  | more {t gap u : List Char} {a : α} {as : List α} (entry : Writes t a) (breaks : Breaks column gap)
      (entries : Stacked column Writes u as) : Stacked column Writes (t ++ (gap ++ u)) (a :: as)

/-- What stands behind an entry of the innermost open block: an entry that is not deeper, or nothing to
the end of the text. These are the tokens from there on. -/
inductive Resumes (indents : List Nat) : List Char → List Token → Prop where
  | entry {next : Nat} {gap s : List Char} {out : List Token} (breaks : Breaks next gap)
      (shallow : ∀ i ∈ indents.head?, next ≤ i) (starts : Starts s)
      (lexes : Lexes s next indents true out) : Resumes indents (gap ++ s) out
  | ends {gap : List Char} (ends : Ends gap) :
      Resumes indents gap (List.replicate indents.length .blockEnd)

namespace Resumes

variable {indents : List Nat} {s : List Char} {out : List Token}

theorem lexes (h : Resumes indents s out) (column : Nat) : Lexes s column indents false out := by
  cases h with
  | entry breaks _ starts lexes => exact Lexes.after_breaks breaks starts lexes column
  | ends ends => exact lexes_ends ends column indents false

/-- A plain word does not run on into what stands behind it. -/
theorem word {top column : Nat} {more : List Nat} {w : List Char} (h : Resumes (top :: more) s out)
    (hw : IsWord w) (hTop : top ≤ column) : Lexes (w ++ s) column (top :: more) false
      (.scalar .plain (String.ofList w) :: out) := by
  cases h with
  | entry breaks shallow starts lexes =>
      exact Lexes.word hw breaks starts (.inl (shallow top rfl)) hTop lexes
  | ends ends => exact lexes_word_ends hw ends hTop

/-- Behind the last entry of a deeper block, that block is closed first. -/
theorem inner {top deeper : Nat} {more : List Nat} (h : Resumes (top :: more) s out)
    (hDeeper : top < deeper) : Resumes (deeper :: top :: more) s (.blockEnd :: out) := by
  cases h with
  | entry breaks shallow starts lexes =>
      have hNext := shallow top rfl
      refine .entry breaks ?_ starts (Lexes.close starts (by omega) lexes)
      rintro i ⟨⟩
      omega
  | ends ends => exact .ends ends

end Resumes

/-- A text at a column gives these tokens, and one in front of them that opens a block if none is open
at this column. -/
structure Reads (column : Nat) (opener : Token) (t : List Char) (ts : List Token) : Prop where
  starts : ∀ s, Starts (t ++ s)
  lexes : ∀ {indents after : List Nat} {opened : List Token}, Opens column opener indents opened after →
    ∀ {s : List Char} {out : List Token}, Resumes after s out →
      Lexes (t ++ s) column indents true (opened ++ (ts ++ out))

variable {column : Nat} {opener : Token} {t : List Char} {ts : List Token}

theorem Opens.head_eq {indents after : List Nat} {opened : List Token}
    (h : Opens column opener indents opened after) : ∃ more, after = column :: more := by
  cases h with
  | deeper => exact ⟨_, rfl⟩
  | level => exact ⟨_, rfl⟩

/-- If each entry is read as its tokens, then the entries of a block are read one after another. -/
theorem Stacked.reads {α : Type} {Writes : List Char → α → Prop} {Tokens : α → List Token → Prop}
    {as : List α} (h : Stacked column Writes t as)
    (hEntry : ∀ t a, Writes t a → ∃ ts, Tokens a ts ∧ Reads column opener t ts) :
    ∃ tss, List.Forall₂ Tokens as tss ∧ Reads column opener t tss.flatten := by
  induction h with
  | last entry =>
      obtain ⟨ts, hTokens, hReads⟩ := hEntry _ _ entry
      exact ⟨[ts], .cons hTokens .nil, by rwa [List.flatten_singleton]⟩
  | more entry breaks entries ih =>
      obtain ⟨ts, hTokens, hReads⟩ := hEntry _ _ entry
      obtain ⟨tss, hMore, hRest⟩ := ih
      refine ⟨ts :: tss, .cons hTokens hMore, fun s => ?_, fun hOpens s out hResumes => ?_⟩
      · rw [List.append_assoc]
        exact hReads.starts _
      · -- the next entry finds the block open that the first one has opened
        obtain ⟨outer, rfl⟩ := hOpens.head_eq
        have hLevel : Opens column opener (column :: outer) [] (column :: outer) := .level
        have hGap := Resumes.entry breaks (by rintro i ⟨⟩; exact Nat.le_refl _) (hRest.starts _)
          (hRest.lexes hLevel hResumes)
        have hAll := hReads.lexes hOpens hGap
        rw [List.nil_append] at hAll
        rw [List.append_assoc, List.append_assoc, List.flatten_cons, List.append_assoc]
        exact hAll

/-! ### Entries -/

theorem WritesKey.starts {k : List Char} {style : Style} {name : String} (h : WritesKey k style name)
    (s : List Char) : Starts (k ++ s) := by
  cases h with
  | plain word => exact word.starts s
  | quoted => exact starts_mark (by simp) _

/-- A text behind the colon of a key at a column gives these tokens. -/
structure ReadsValue (column : Nat) (t : List Char) (ts : List Token) : Prop where
  apart : ∀ s, startsBlank (t ++ s) = true
  lexes : ∀ {start : Nat} {more : List Nat} {s : List Char} {out : List Token}, column ≤ start →
    Resumes (column :: more) s out → Lexes (t ++ s) start (column :: more) false (ts ++ out)

/-- A key and its value. -/
theorem Reads.entry {k : List Char} {style : Style} {name : String} (hKey : WritesKey k style name)
    (h : ReadsValue column t ts) : Reads column .blockMappingStart (k ++ ':' :: t)
      (.key :: .scalar style name :: .value :: ts) := by
  refine ⟨fun s => ?_, fun hOpens s out hResumes => ?_⟩
  · rw [List.append_assoc]
    exact hKey.starts _
  · obtain ⟨more, rfl⟩ := hOpens.head_eq
    rw [List.append_assoc]
    exact Lexes.key hKey hOpens (h.apart s) (h.lexes (by omega) hResumes)

/-- A block that begins deeper than the one around it is closed behind its last entry. -/
theorem Reads.inside {inner : Nat} {more : List Nat} {s : List Char} {out : List Token}
    (h : Reads inner opener t ts) (hDeeper : column < inner) (hResumes : Resumes (column :: more) s out) :
    Lexes (t ++ s) inner (column :: more) true (opener :: (ts ++ .blockEnd :: out)) :=
  h.lexes (.deeper (by rintro i ⟨⟩; exact hDeeper)) (hResumes.inner hDeeper)

namespace ReadsValue

theorem quoted (n : Nat) {text : String} (hText : WritesLetters t text.toList) :
    ReadsValue column (spaces (n + 1) ++ '"' :: (t ++ ['"'])) [.scalar .doubleQuoted text] := by
  refine ⟨fun s => rfl, fun {start more s out} hStart hResumes => ?_⟩
  have hInside : ∀ i ∈ (column :: more).head?, i ≤ start + (n + 1) := by
    rintro i ⟨⟩
    omega
  have hQuoted := Lexes.quoted hText hInside hResumes.lexes
  have hSpaces := Lexes.after_spaces (starts_mark (by simp) _) hQuoted
  rw [String.ofList_toList] at hSpaces
  simpa using hSpaces

theorem word (n : Nat) {w : List Char} (hw : IsWord w) :
    ReadsValue column (spaces (n + 1) ++ w) [.scalar .plain (String.ofList w)] := by
  refine ⟨fun s => rfl, fun {start more s out} hStart hResumes => ?_⟩
  have hTop : column ≤ start + (n + 1) := by omega
  have hWord := hResumes.word hw hTop
  rw [List.append_assoc]
  exact Lexes.after_spaces (hw.starts s) hWord

theorem brackets (n m : Nat) : ReadsValue column (spaces (n + 1) ++ '[' :: (spaces m ++ [']']))
    [.flowSequenceStart, .flowSequenceEnd] := by
  refine ⟨fun s => rfl, fun {start more s out} hStart hResumes => ?_⟩
  have hInside : ∀ i ∈ (column :: more).head?, i ≤ start + (n + 1) := by
    rintro i ⟨⟩
    omega
  have hBrackets := Lexes.brackets m hInside hResumes.lexes
  simpa using Lexes.after_spaces (starts_mark (by simp) _) hBrackets

/-- Items below a key may stand at its column; they are no block of their own then. -/
theorem level {gap : List Char} (hGap : Breaks column gap)
    (h : Reads column .blockSequenceStart t ts) : ReadsValue column (gap ++ t) ts := by
  refine ⟨fun s => ?_, fun {start more s out} _ hResumes => ?_⟩
  · rw [List.append_assoc]
    exact hGap.startsBlank_append _
  · rw [List.append_assoc]
    exact Lexes.after_breaks hGap (h.starts s) (h.lexes .level hResumes) start

theorem deeper {inner : Nat} {gap : List Char} (hDeeper : column < inner) (hGap : Breaks inner gap)
    (h : Reads inner opener t ts) : ReadsValue column (gap ++ t) (opener :: (ts ++ [.blockEnd])) := by
  refine ⟨fun s => ?_, fun {start more s out} _ hResumes => ?_⟩
  · rw [List.append_assoc]
    exact hGap.startsBlank_append _
  · have hInside : Lexes (gap ++ (t ++ s)) start (column :: more) false _ :=
      Lexes.after_breaks hGap (h.starts s) (h.inside hDeeper hResumes) start
    simpa using hInside

end ReadsValue

/-- An item that is a block, on the line of its hyphen. -/
theorem Reads.beside {n : Nat} (h : Reads (column + 2 + n) opener t ts) :
    Reads column .blockSequenceStart ('-' :: (spaces (n + 1) ++ t))
      (.blockEntry :: opener :: (ts ++ [.blockEnd])) := by
  refine ⟨fun s => starts_mark (by simp) _, fun hOpens s out hResumes => ?_⟩
  obtain ⟨more, rfl⟩ := hOpens.head_eq
  have hColumn : column + 2 + n = column + 1 + (n + 1) := by omega
  have hInside := h.inside (by omega) hResumes
  rw [hColumn] at hInside
  have hDash := Lexes.dash hOpens (startsBlank_spaces n (t ++ s))
    (Lexes.after_spaces (h.starts s) hInside)
  simpa using hDash

/-- An item that is a block, below its hyphen. -/
theorem Reads.below {inner : Nat} {gap : List Char} (hDeeper : column < inner) (hGap : Breaks inner gap)
    (h : Reads inner opener t ts) : Reads column .blockSequenceStart ('-' :: (gap ++ t))
      (.blockEntry :: opener :: (ts ++ [.blockEnd])) := by
  refine ⟨fun s => starts_mark (by simp) _, fun hOpens s out hResumes => ?_⟩
  obtain ⟨more, rfl⟩ := hOpens.head_eq
  have hDash := Lexes.dash hOpens (hGap.startsBlank_append (t ++ s))
    (Lexes.after_breaks hGap (h.starts s) (h.inside hDeeper hResumes) _)
  simpa using hDash

/-- A text that is one block has the tokens of its entries and those around them. -/
theorem Reads.tokens?_eq {lead tail : List Char} (h : Reads column opener t ts)
    (hLead : Leads column lead) (hEnds : Ends tail)
    (hAllowed : ∀ c ∈ lead ++ (t ++ tail), isAllowed c = true) :
    tokens? (lead ++ (t ++ tail)) = some (opener :: (ts ++ [.blockEnd])) := by
  have hOpens : Opens column opener [] [opener] [column] := .deeper (by simp)
  have hBlock := h.lexes hOpens (.ends hEnds)
  have hAll := Lexes.after_leads hLead (h.starts tail) hBlock
  rw [tokens?, if_pos (List.all_eq_true.mpr hAllowed)]
  exact hAll (.start _) [] rfl rfl _ (Nat.lt_succ_self _)

end LintRepair.Yaml
