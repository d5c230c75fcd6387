import LintRepair.Proofs.Glob.Language

/-! Patterns segment by segment, as one reads them: a double star takes segments of the path, every
other segment takes one. The paths that some segments are aligned with form a language, and it is put
together from the languages of the segments by the laws proved here. -/

namespace LintRepair.Glob

/-- The pieces of a text between its separators. -/
def segments (s : String) : List (List Char) := s.toList.splitOn '/'

/-- The segment that takes any number of segments of a path. -/
def doubleStar : List Char := ['*', '*']

/-- A segment of a pattern takes a segment of a path: a question mark one byte, a star any bytes, and
any other character itself. -/
inductive SegmentTakes : List Char → List UInt8 → Prop where
  | done : SegmentTakes [] []
  | byte {seg : List Char} {part : List UInt8} (b : UInt8) (takes : SegmentTakes seg part) :
      SegmentTakes ('?' :: seg) (b :: part)
  | run {seg : List Char} {part : List UInt8} (skipped : List UInt8)
      (takes : SegmentTakes seg part) : SegmentTakes ('*' :: seg) (skipped ++ part)
  | letter {c : Char} {seg : List Char} {part : List UInt8} (notByte : c ≠ '?') (notRun : c ≠ '*')
      (takes : SegmentTakes seg part) : SegmentTakes (c :: seg) (String.utf8EncodeChar c ++ part)

/-- Segments of a pattern against those of a path, in order. A double star takes any number of them,
and at least one if it is the last. -/
inductive Aligned : List (List Char) → List (List UInt8) → Prop where
  | done : Aligned [] []
  | one {seg : List Char} {segs : List (List Char)} {part : List UInt8} {parts : List (List UInt8)}
      (ordinary : seg ≠ doubleStar) (takes : SegmentTakes seg part) (rest : Aligned segs parts) :
      Aligned (seg :: segs) (part :: parts)
  | many {segs : List (List Char)} {parts : List (List UInt8)} (taken : List (List UInt8))
      (more : segs ≠ []) (rest : Aligned segs parts) : Aligned (doubleStar :: segs) (taken ++ parts)
  | last {taken : List (List UInt8)} (some : taken ≠ []) : Aligned [doubleStar] taken

/-- Segments take some part of a path. -/
theorem Aligned.ne_nil {segs : List (List Char)} {parts : List (List UInt8)}
    (h : Aligned segs parts) (hSome : segs ≠ []) : parts ≠ [] := by
  induction h with
  | done => exact absurd rfl hSome
  | one => exact List.cons_ne_nil _ _
  | many taken more rest ih => exact List.append_ne_nil_of_right_ne_nil taken (ih more)
  | last some => exact some

/-- A plain segment takes exactly one part, the first. -/
theorem aligned_one_iff {seg : List Char} (h : seg ≠ doubleStar) {segs : List (List Char)}
    {parts : List (List UInt8)} : Aligned (seg :: segs) parts ↔
      ∃ part more, parts = part :: more ∧ SegmentTakes seg part ∧ Aligned segs more := by
  constructor
  · intro hAligned
    cases hAligned with
    | one ordinary takes rest => exact ⟨_, _, rfl, takes, rest⟩
    | many taken more rest => exact absurd rfl h
    | last some => exact absurd rfl h
  · rintro ⟨part, more, rfl, takes, rest⟩
    exact .one h takes rest

/-- Two stars in front of other segments take any number of parts, none among them. -/
theorem aligned_many_iff {segs : List (List Char)} (h : segs ≠ []) {parts : List (List UInt8)} :
    Aligned (doubleStar :: segs) parts ↔
      ∃ taken more, parts = taken ++ more ∧ Aligned segs more := by
  constructor
  · intro hAligned
    cases hAligned with
    | one ordinary takes rest => exact absurd rfl ordinary
    | many taken more rest => exact ⟨taken, _, rfl, rest⟩
    | last some => exact absurd rfl h
  · rintro ⟨taken, more, rfl, rest⟩
    exact .many taken h rest

/-- Two stars at the end take at least one part. -/
theorem aligned_last_iff {parts : List (List UInt8)} : Aligned [doubleStar] parts ↔ parts ≠ [] := by
  refine ⟨fun h => h.ne_nil (List.cons_ne_nil _ _), .last⟩

/-- Only double stars take more than one segment each. -/
theorem Aligned.length_eq {segs : List (List Char)} {parts : List (List UInt8)}
    (h : Aligned segs parts) (hOrdinary : doubleStar ∉ segs) : parts.length = segs.length := by
  induction h with
  | done => rfl
  | one ordinary takes rest ih =>
      rw [List.length_cons, List.length_cons, ih fun hMem => hOrdinary (List.mem_cons_of_mem _ hMem)]
  | many taken more rest ih => exact absurd List.mem_cons_self hOrdinary
  | last some => exact absurd List.mem_cons_self hOrdinary

/-! ### Cutting a path at its separators -/

/-- The byte that separates segments. -/
def slash : UInt8 := 0x2F

theorem isSeparator_iff {b : UInt8} : isSeparator b = true ↔ b = slash := beq_iff_eq

theorem isSeparator_eq_false_iff {b : UInt8} : isSeparator b = false ↔ b ≠ slash := by
  rw [Bool.eq_false_iff, Ne, isSeparator_iff]

theorem toNat_of_mem_utf8EncodeChar {c : Char} {b : UInt8} (h : b ∈ String.utf8EncodeChar c) :
    b.toNat = c.toNat ∨ 128 ≤ b.toNat := by
  have hFold : c.val.toNat = c.toNat := rfl
  unfold String.utf8EncodeChar at h
  dsimp only at h
  split at h
  · rename_i hShort
    rw [List.mem_singleton] at h
    rw [h, hFold, UInt8.toNat_ofNat']
    omega
  · -- Every byte of a longer spelling has its highest bit set.
    right
    repeat' split at h
    all_goals
      simp only [List.mem_cons, List.not_mem_nil, or_false] at h
      rcases h with rfl | rfl | rfl | rfl <;> rw [UInt8.toNat_ofNat'] <;> omega

/-- No character but the slash has the byte of the slash in it. -/
theorem slash_notMem_utf8EncodeChar {c : Char} (h : c ≠ '/') : slash ∉ String.utf8EncodeChar c := by
  intro hMem
  rcases toNat_of_mem_utf8EncodeChar hMem with hSame | hHigh
  · exact h (Char.toNat_inj.mp hSame.symm)
  · exact absurd hHigh (by decide)

/-- The bytes of a path are cut where its characters are. -/
theorem splitOn_utf8 (s : List Char) :
    (Text.utf8 s).splitOn slash = (s.splitOn '/').map Text.utf8 := by
  induction hLength : s.length using Nat.strongRecOn generalizing s with
  | ind n ih =>
      by_cases hMem : '/' ∈ s
      · obtain ⟨front, back, rfl, hFront⟩ := List.eq_append_cons_of_mem hMem
        have hBytes : Text.utf8 (front ++ '/' :: back) = Text.utf8 front ++ slash :: Text.utf8 back := by
          simp [Text.utf8, show String.utf8EncodeChar '/' = [slash] from rfl]
        have hShorter : back.length < n := by
          rw [← hLength, List.length_append, List.length_cons]
          omega
        have hNone : slash ∉ Text.utf8 front := by
          intro hByte
          obtain ⟨c, hc, hByte⟩ := List.mem_flatMap.mp hByte
          exact slash_notMem_utf8EncodeChar (fun hSame => hFront (hSame ▸ hc)) hByte
        rw [hBytes, List.splitOn_append_cons_self_of_not_mem hNone,
          List.splitOn_append_cons_self_of_not_mem hFront, ih _ hShorter back rfl]
        rfl
      · have hNone : slash ∉ Text.utf8 s := by
          intro hByte
          obtain ⟨c, hc, hByte⟩ := List.mem_flatMap.mp hByte
          exact slash_notMem_utf8EncodeChar (fun hSame => hMem (hSame ▸ hc)) hByte
        rw [List.splitOn_eq_singleton hNone, List.splitOn_eq_singleton hMem]
        rfl

/-- The first piece runs up to the first separator. -/
theorem splitOn_eq_cons_iff {w part : List UInt8} {parts : List (List UInt8)} :
    w.splitOn slash = part :: parts ↔ slash ∉ part ∧
      (parts = [] ∧ w = part ∨ ∃ rest, w = part ++ slash :: rest ∧ rest.splitOn slash = parts) := by
  constructor
  · intro h
    by_cases hMem : slash ∈ w
    · obtain ⟨front, back, rfl, hFront⟩ := List.eq_append_cons_of_mem hMem
      rw [List.splitOn_append_cons_self_of_not_mem hFront] at h
      obtain ⟨rfl, hBack⟩ := List.cons.inj h
      exact ⟨hFront, .inr ⟨back, rfl, hBack⟩⟩
    · rw [List.splitOn_eq_singleton hMem] at h
      obtain ⟨rfl, hBack⟩ := List.cons.inj h
      exact ⟨hMem, .inl ⟨hBack.symm, rfl⟩⟩
  · rintro ⟨hPart, ⟨rfl, rfl⟩ | ⟨rest, rfl, rfl⟩⟩
    · exact List.splitOn_eq_singleton hPart
    · exact List.splitOn_append_cons_self_of_not_mem hPart rest

/-- Where the pieces fall into two groups there is a separator between them. -/
theorem exists_of_splitOn_eq_append {w : List UInt8} {taken parts : List (List UInt8)}
    (h : w.splitOn slash = taken ++ parts) (hTaken : taken ≠ []) (hParts : parts ≠ []) :
    ∃ front rest, w = front ++ slash :: rest ∧ rest.splitOn slash = parts := by
  induction taken generalizing w with
  | nil => exact absurd rfl hTaken
  | cons part taken ih =>
      obtain ⟨-, ⟨hNone, -⟩ | ⟨rest, rfl, hRest⟩⟩ := splitOn_eq_cons_iff.mp h
      · exact absurd (List.append_eq_nil_iff.mp hNone).2 hParts
      · by_cases hMore : taken = []
        · subst hMore
          exact ⟨part, rest, rfl, hRest⟩
        · obtain ⟨front, tail, rfl, hTail⟩ := ih hRest hMore
          exact ⟨part ++ slash :: front, tail, by simp, hTail⟩

/-! ### Languages of segments -/

/-- The bytes that one segment takes: they hold no separator. -/
def segmentLanguage (seg : List Char) : Language UInt8 := {w | SegmentTakes seg w ∧ slash ∉ w}

/-- The bytes of the paths that segments are aligned with. -/
def alignedLanguage (segs : List (List Char)) : Language UInt8 :=
  {w | Aligned segs (w.splitOn slash)}

/-- Any bytes, separators too. -/
def anyBytes : Language UInt8 := manyOf fun _ => true

/-- Whole directories with the separator behind each, or none. -/
def directories : Language UInt8 := 1 + anyBytes * oneOf isSeparator

theorem segmentLanguage_nil : segmentLanguage [] = 1 := by
  ext w
  refine Iff.trans ⟨?_, ?_⟩ (Language.mem_one w).symm
  · rintro ⟨hTakes, -⟩
    cases hTakes
    rfl
  · rintro rfl
    exact ⟨.done, List.not_mem_nil⟩

theorem segmentLanguage_byte (seg : List Char) :
    segmentLanguage ('?' :: seg) = oneOf (!isSeparator ·) * segmentLanguage seg := by
  ext w
  rw [Language.mem_mul]
  constructor
  · rintro ⟨hTakes, hNone⟩
    cases hTakes with
    | byte b takes =>
        rw [List.mem_cons, not_or] at hNone
        have hKind : (!isSeparator b) = true := by
          simp [isSeparator_eq_false_iff, Ne.symm hNone.1]
        exact ⟨[b], ⟨b, rfl, hKind⟩, _, ⟨takes, hNone.2⟩, rfl⟩
    | letter notByte => exact absurd rfl notByte
  · rintro ⟨one, ⟨b, rfl, hKind⟩, part, ⟨hTakes, hPart⟩, rfl⟩
    have hb : b ≠ slash := fun hSame => by simp [hSame, isSeparator, slash] at hKind
    exact ⟨.byte b hTakes, by simp [hb.symm, hPart]⟩

/-- A star takes any bytes within a part. -/
theorem segmentLanguage_run (seg : List Char) :
    segmentLanguage ('*' :: seg) = manyOf (!isSeparator ·) * segmentLanguage seg := by
  ext w
  rw [Language.mem_mul]
  constructor
  · rintro ⟨hTakes, hNone⟩
    cases hTakes with
    | run skipped takes =>
        rw [List.mem_append, not_or] at hNone
        refine ⟨skipped, fun b hb => ?_, _, ⟨takes, hNone.2⟩, rfl⟩
        have hSep : b ≠ slash := fun hSame => hNone.1 (hSame ▸ hb)
        simp [isSeparator_eq_false_iff, hSep]
    | letter notByte notRun => exact absurd rfl notRun
  · rintro ⟨skipped, hSkipped, part, ⟨hTakes, hPart⟩, rfl⟩
    have hSkipped : slash ∉ skipped := fun hMem => by
      have hKind := hSkipped slash hMem
      simp [isSeparator, slash] at hKind
    exact ⟨.run skipped hTakes, by simp [hSkipped, hPart]⟩

theorem segmentLanguage_letter {c : Char} (hByte : c ≠ '?') (hRun : c ≠ '*') (hSlash : c ≠ '/')
    (seg : List Char) :
    segmentLanguage (c :: seg) = exactly (String.utf8EncodeChar c) * segmentLanguage seg := by
  ext w
  rw [Language.mem_mul]
  constructor
  · rintro ⟨hTakes, hPart⟩
    cases hTakes with
    | byte => exact absurd rfl hByte
    | run => exact absurd rfl hRun
    | letter notByte notRun takes =>
        rw [List.mem_append, not_or] at hPart
        exact ⟨_, rfl, _, ⟨takes, hPart.2⟩, rfl⟩
  · rintro ⟨spelling, rfl, part, ⟨hTakes, hPart⟩, rfl⟩
    have hNone := slash_notMem_utf8EncodeChar hSlash
    exact ⟨.letter hByte hRun hTakes, by simp [hNone, hPart]⟩

theorem mem_anyBytes (w : List UInt8) : w ∈ anyBytes := fun _ _ => rfl

theorem mem_anyBytes_mul_slash {w : List UInt8} :
    w ∈ anyBytes * oneOf isSeparator ↔ ∃ front, w = front ++ [slash] := by
  rw [Language.mem_mul]
  constructor
  · rintro ⟨front, -, one, ⟨b, rfl, hSeparator⟩, rfl⟩
    rw [isSeparator_iff.mp hSeparator]
    exact ⟨front, rfl⟩
  · rintro ⟨front, rfl⟩
    exact ⟨front, mem_anyBytes front, [slash], ⟨slash, rfl, rfl⟩, rfl⟩

/-- Directories end at a separator, or there are none. -/
theorem mem_directories {w : List UInt8} :
    w ∈ directories ↔ w = [] ∨ ∃ front, w = front ++ [slash] := by
  rw [directories, Language.mem_add, Language.mem_one, mem_anyBytes_mul_slash]

/-- Directories behind directories are directories. -/
theorem directories_mul_directories : directories * directories = directories := by
  ext w
  rw [Language.mem_mul]
  constructor
  · rintro ⟨a, ha, b, hb, rfl⟩
    rcases mem_directories.mp hb with rfl | ⟨front, rfl⟩
    · rw [List.append_nil]
      exact ha
    · exact mem_directories.mpr (.inr ⟨a ++ front, (List.append_assoc ..).symm⟩)
  · intro h
    exact ⟨w, h, [], mem_directories.mpr (.inl rfl), List.append_nil w⟩

theorem directories_mul_anyBytes : directories * anyBytes = anyBytes := by
  ext w
  rw [Language.mem_mul]
  refine ⟨fun _ => mem_anyBytes w, fun h => ?_⟩
  exact ⟨[], mem_directories.mpr (.inl rfl), w, h, rfl⟩

theorem alignedLanguage_last : alignedLanguage [doubleStar] = anyBytes := by
  ext w
  refine ⟨fun _ => mem_anyBytes w, fun _ => ?_⟩
  exact aligned_last_iff.mpr (List.splitOn_ne_nil slash w)

theorem alignedLanguage_single {seg : List Char} (h : seg ≠ doubleStar) :
    alignedLanguage [seg] = segmentLanguage seg := by
  ext w
  refine (aligned_one_iff h).trans ⟨?_, ?_⟩
  · rintro ⟨part, more, hSplit, hTakes, hMore⟩
    cases hMore
    obtain ⟨hPart, ⟨-, rfl⟩ | ⟨rest, -, hRest⟩⟩ := splitOn_eq_cons_iff.mp hSplit
    · exact ⟨hTakes, hPart⟩
    · exact absurd hRest (List.splitOn_ne_nil slash rest)
  · rintro ⟨hTakes, hPart⟩
    exact ⟨w, [], List.splitOn_eq_singleton hPart, hTakes, .done⟩

/-- A separator stands between a segment and the ones behind it. -/
theorem alignedLanguage_cons {seg : List Char} (h : seg ≠ doubleStar) {segs : List (List Char)}
    (hMore : segs ≠ []) : alignedLanguage (seg :: segs) =
      segmentLanguage seg * (oneOf isSeparator * alignedLanguage segs) := by
  ext w
  refine (aligned_one_iff h).trans ⟨?_, ?_⟩
  · rintro ⟨part, parts, hSplit, hTakes, hRest⟩
    obtain ⟨hPart, ⟨rfl, -⟩ | ⟨rest, rfl, rfl⟩⟩ := splitOn_eq_cons_iff.mp hSplit
    · exact absurd rfl (hRest.ne_nil hMore)
    · exact Language.append_mem_mul (a := part) ⟨hTakes, hPart⟩
        (Language.append_mem_mul (a := [slash]) ⟨slash, rfl, rfl⟩ hRest)
  · intro hMem
    obtain ⟨part, ⟨hTakes, hPart⟩, tail, hTail, rfl⟩ := Language.mem_mul.mp hMem
    obtain ⟨one, ⟨b, rfl, hSeparator⟩, rest, hRest, rfl⟩ := Language.mem_mul.mp hTail
    rw [isSeparator_iff.mp hSeparator]
    exact ⟨part, _, splitOn_eq_cons_iff.mpr ⟨hPart, .inr ⟨rest, rfl, rfl⟩⟩, hTakes, hRest⟩

/-- Two stars bring the separator behind them along. -/
theorem alignedLanguage_many {segs : List (List Char)} (h : segs ≠ []) :
    alignedLanguage (doubleStar :: segs) = directories * alignedLanguage segs := by
  ext w
  refine (aligned_many_iff h).trans ?_
  rw [Language.mem_mul]
  constructor
  · rintro ⟨taken, parts, hSplit, hRest⟩
    by_cases hTaken : taken = []
    · rw [hTaken, List.nil_append] at hSplit
      rw [← hSplit] at hRest
      exact ⟨[], mem_directories.mpr (.inl rfl), w, hRest, rfl⟩
    · obtain ⟨front, rest, rfl, rfl⟩ := exists_of_splitOn_eq_append hSplit hTaken (hRest.ne_nil h)
      exact ⟨front ++ [slash], mem_directories.mpr (.inr ⟨front, rfl⟩), rest, hRest, by simp⟩
  · rintro ⟨dirs, hDirs, rest, hRest, rfl⟩
    rcases mem_directories.mp hDirs with rfl | ⟨front, rfl⟩
    · exact ⟨[], _, rfl, hRest⟩
    · refine ⟨front.splitOn slash, _, ?_, hRest⟩
      rw [List.append_assoc, List.singleton_append, List.splitOn_append_cons_self]

end LintRepair.Glob
