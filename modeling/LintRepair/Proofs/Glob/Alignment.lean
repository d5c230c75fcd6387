import LintRepair.Glob.Parser
import LintRepair.Proofs.Glob.Segments

/-! Reading a pattern of plain segments. Segment after segment is turned into tokens, and what stands
between two of them, a separator or the directories of double stars, is one token. Main statement:
such a pattern is well formed and matches the paths that its segments are aligned with. -/

namespace LintRepair.Glob

/-- A character that stands inside a segment: it opens no class and no group and escapes nothing. -/
def IsPlainLetter (c : Char) : Prop := c ∉ ['/', '[', ']', '\x7b', '\x7d', ',', '\\']

instance (c : Char) : Decidable (IsPlainLetter c) := inferInstanceAs (Decidable (_ ∉ _))

/-- A segment that is not empty, of plain letters. -/
def IsPlainSegment (seg : List Char) : Prop := seg ≠ [] ∧ ∀ c ∈ seg, IsPlainLetter c

instance (seg : List Char) : Decidable (IsPlainSegment seg) :=
  @instDecidableAnd _ _ _ (List.decidableBAll _ _)

/-! ### The tokens of segments -/

/-- The token of a character inside a segment. -/
def letterToken (c : Char) : Token :=
  if c = '?' then .anyByte else if c = '*' then .anyRun else .literal c

/-- What has been read in front of a segment: nothing, a separator, or double stars with their
separators, at the start of the pattern or inside it. -/
inductive Joint where
  | start
  | separator
  | leading
  | inner
deriving DecidableEq

namespace Joint

/-- The token in front of the next segment. -/
def lead : Joint → List Token
  | .start => []
  | .separator => [.literal '/']
  | .leading => [.leadingDirs]
  | .inner => [.innerDirs]

/-- What has been read after one more double star and its separator. -/
def starred : Joint → Joint
  | .start | .leading => .leading
  | .separator | .inner => .inner

/-- The token of a double star that ends the pattern. -/
def closing : Joint → Token
  | .start | .leading => .leadingDirs
  | .separator | .inner => .trailingPath

/-- The tokens of the segments still to be read, with the one in front of them. -/
def tokens (j : Joint) : List (List Char) → List Token
  | [] => j.lead
  | [seg] => if seg = doubleStar then [j.closing] else j.lead ++ seg.map letterToken
  | seg :: next :: segs =>
    if seg = doubleStar then j.starred.tokens (next :: segs)
    else j.lead ++ (seg.map letterToken ++ separator.tokens (next :: segs))

end Joint

/-! ### Reading one segment -/

namespace Progress

/-- One character of a segment has been read. -/
def letter (p : Progress) (c : Char) : Progress := p.push c [letterToken c]

theorem tokens_letters (p : Progress) (seg : List Char) :
    (seg.foldl letter p).tokens = (seg.map letterToken).reverse ++ p.tokens := by
  induction seg generalizing p with
  | nil => rfl
  | cons c seg ih =>
      rw [List.foldl_cons, ih]
      simp [letter, push]

theorem groups_letters (p : Progress) (seg : List Char) : (seg.foldl letter p).groups = p.groups := by
  induction seg generalizing p with
  | nil => rfl
  | cons c seg ih =>
      rw [List.foldl_cons, ih]
      rfl

/-- Inside a segment, where two stars are no double star. -/
structure Settled (p : Progress) : Prop where
  groups : p.groups = []
  tokens : p.tokens ≠ []
  previous : p.previous ≠ some '/'

theorem settled_letter {p : Progress} {c : Char} (hGroups : p.groups = []) (hc : IsPlainLetter c) :
    (p.letter c).Settled where
  groups := hGroups
  tokens := by simp [letter, push]
  previous := by
    intro hSlash
    obtain rfl : c = '/' := Option.some.inj hSlash
    exact absurd hc (by decide)

theorem Settled.not_starsMayStand {p : Progress} (h : p.Settled) : p.starsMayStand = false := by
  simp [starsMayStand, h.groups, h.previous]

/-- A plain letter or a separator is scanned on its own. -/
theorem scan_letter (p : Progress) {c : Char} (h : IsPlainLetter c ∨ c = '/') (hStar : c ≠ '*')
    (rest : List Char) : scan p (c :: rest) = scan (p.letter c) rest := by
  have hPlain : c ≠ '[' ∧ c ≠ '\x7b' ∧ c ≠ '\x7d' ∧ c ≠ ',' ∧ c ≠ '\\' := by
    rcases h with h | rfl
    · simp only [IsPlainLetter, List.mem_cons, List.not_mem_nil, or_false, not_or] at h
      tauto
    · decide
  by_cases hByte : c = '?'
  · subst hByte
    exact scan.eq_2 p rest
  · obtain ⟨hClass, hOpen, hClose, hComma, hEscape⟩ := hPlain
    rw [letter, letterToken, if_neg hByte, if_neg hStar]
    exact scan.eq_15 p c rest hByte (fun _ h _ => hStar h) hStar hClass hOpen hClose hComma hEscape

/-- A star with no other behind it. -/
theorem scan_star (p : Progress) {rest : List Char} (h : ∀ more, rest ≠ '*' :: more) :
    scan p ('*' :: rest) = scan (p.letter '*') rest :=
  scan.eq_6 p rest h

/-- Two stars inside a segment are two single ones. -/
theorem Settled.scan_stars {p : Progress} (h : p.Settled) (rest : List Char) :
    scan p ('*' :: '*' :: rest) = scan ((p.letter '*').letter '*') rest := by
  have hTokens : ¬ p.tokens.isEmpty = true := by simp [h.tokens]
  have hStand : ¬ p.starsMayStand = true := by simp [h.not_starsMayStand]
  cases rest with
  | nil => rw [scan.eq_3, if_neg hTokens, if_neg hStand]; rfl
  | cons c rest =>
      by_cases hSlash : c = '/'
      · subst hSlash
        rw [scan.eq_4, if_neg hTokens, if_neg hStand]
        rfl
      · rw [scan.eq_5 p c rest hSlash, if_neg hTokens, if_neg hStand]
        rfl

/-- The end of the pattern or a separator. -/
def EndsSegment (rest : List Char) : Prop := rest = [] ∨ ∃ more, rest = '/' :: more

theorem EndsSegment.ne_star {rest : List Char} (h : EndsSegment rest) (more : List Char) :
    rest ≠ '*' :: more := by
  rcases h with rfl | ⟨_, rfl⟩ <;> simp

/-- Inside a segment every character gives its own token. -/
theorem Settled.scan_letters {p : Progress} (h : p.Settled) {seg rest : List Char}
    (hSeg : ∀ c ∈ seg, IsPlainLetter c) (hRest : EndsSegment rest) :
    scan p (seg ++ rest) = scan (seg.foldl letter p) rest := by
  induction hLength : seg.length using Nat.strongRecOn generalizing p seg with
  | ind n ih =>
      match seg with
      | [] => rfl
      | c :: seg =>
          have hc := hSeg c List.mem_cons_self
          have hMore : ∀ d ∈ seg, IsPlainLetter d := fun d hd => hSeg d (List.mem_cons_of_mem c hd)
          have hNext := settled_letter h.groups hc
          rw [List.length_cons] at hLength
          by_cases hStar : c = '*'
          · subst hStar
            match seg with
            | [] => exact scan_star p hRest.ne_star
            | d :: seg =>
                by_cases hTwo : d = '*'
                · subst hTwo
                  rw [List.cons_append, List.cons_append, h.scan_stars]
                  have hTwice := settled_letter hNext.groups hc
                  exact ih seg.length (by simp at hLength; omega) hTwice
                    (fun e he => hMore e (List.mem_cons_of_mem _ he)) rfl
                · have hOne : ∀ more, d :: (seg ++ rest) ≠ '*' :: more :=
                    fun more hSame => hTwo (List.cons.inj hSame).1
                  rw [List.cons_append, List.cons_append, scan_star p hOne]
                  exact ih (d :: seg).length (by omega) hNext hMore rfl
          · rw [List.cons_append, scan_letter p (.inl hc) hStar]
            exact ih seg.length (by omega) hNext hMore rfl

/-- A segment that is no double star gives the tokens of its characters, wherever it stands. -/
theorem scan_segment {p : Progress} (hGroups : p.groups = []) {seg rest : List Char}
    (hSeg : IsPlainSegment seg) (hOrdinary : seg ≠ doubleStar) (hRest : EndsSegment rest) :
    scan p (seg ++ rest) = scan (seg.foldl letter p) rest := by
  obtain ⟨hSome, hPlain⟩ := hSeg
  match seg with
  | [] => exact absurd rfl hSome
  | c :: seg =>
      have hc := hPlain c List.mem_cons_self
      have hMore : ∀ d ∈ seg, IsPlainLetter d := fun d hd => hPlain d (List.mem_cons_of_mem c hd)
      have hNext := settled_letter hGroups hc
      by_cases hStar : c = '*'
      · subst hStar
        match seg with
        | [] => exact scan_star p hRest.ne_star
        | d :: seg =>
            by_cases hTwo : d = '*'
            · subst hTwo
              match seg with
              | [] => exact absurd rfl hOrdinary
              | e :: seg =>
                  -- Two stars that are not a whole segment are two single stars.
                  have he : IsPlainLetter e := hMore e (by simp)
                  have hSlash : e ≠ '/' := by
                    rintro rfl
                    exact absurd he (by decide)
                  have hTwice := settled_letter hNext.groups hc
                  have hStars : scan p ('*' :: '*' :: e :: (seg ++ rest)) =
                      scan ((p.letter '*').letter '*') (e :: (seg ++ rest)) := by
                    rw [scan.eq_5 p e _ hSlash]
                    simp only [hGroups, List.isEmpty_nil, Bool.true_eq_false, and_false, if_false, ite_self]
                    rfl
                  exact hStars.trans (hTwice.scan_letters
                    (fun d hd => hMore d (List.mem_cons_of_mem _ hd)) hRest)
            · have hOne : ∀ more, d :: (seg ++ rest) ≠ '*' :: more :=
                fun more hSame => hTwo (List.cons.inj hSame).1
              rw [List.cons_append, List.cons_append, scan_star p hOne]
              exact hNext.scan_letters hMore hRest
      · rw [List.cons_append, scan_letter p (.inl hc) hStar]
        exact hNext.scan_letters hMore hRest

/-! ### Reading segment after segment -/

/-- All but the last segments have been read, with these tokens in front of the joint. -/
structure Behind (p : Progress) (j : Joint) (before : List Token) : Prop where
  groups : p.groups = []
  tokens : p.tokens = j.lead.reverse ++ before
  start : j = .start → before = []
  previous : j ≠ .start → p.previous = some '/'

/-- Two stars at the end of a pattern stand for all that is left of a path. -/
theorem Behind.scan_closing {p : Progress} {j : Joint} {before : List Token} (h : p.Behind j before) :
    scan p doubleStar = .ok (before.reverse ++ [j.closing]) := by
  have hTokens := h.tokens
  unfold doubleStar
  rw [scan.eq_3]
  cases j with
  | start =>
      rw [h.start rfl] at hTokens ⊢
      simp [hTokens, scan.eq_1, push, h.groups, Joint.lead, Joint.closing]
  | separator | leading | inner =>
      have hPrevious := h.previous (by decide)
      simp [hTokens, scan.eq_1, absorbStars, starsMayStand, hPrevious, h.groups, Joint.lead, Joint.closing]

/-- A double star with its separator makes one token of it and the joint before it. -/
theorem Behind.scan_starred {p : Progress} {j : Joint} {before : List Token} (h : p.Behind j before)
    (rest : List Char) : ∃ next : Progress, next.Behind j.starred before ∧
      scan p (doubleStar ++ '/' :: rest) = scan next rest := by
  have hTokens := h.tokens
  unfold doubleStar
  rw [List.cons_append, List.cons_append, List.nil_append, scan.eq_4]
  cases j with
  | start =>
      rw [h.start rfl] at hTokens ⊢
      refine ⟨p.push '/' [.leadingDirs], ⟨h.groups, ?_, by simp, fun _ => rfl⟩, ?_⟩
      · simp [push, hTokens, Joint.lead, Joint.starred]
      · simp [hTokens, Joint.lead]
  | separator | leading | inner =>
      have hPrevious := h.previous (by decide)
      refine ⟨p.absorbStars '/' .innerDirs, ⟨?_, ?_, by simp [Joint.starred], fun _ => ?_⟩, ?_⟩
      · simp [absorbStars, hTokens, h.groups, Joint.lead]
      · simp [absorbStars, hTokens, Joint.lead, Joint.starred]
      · simp [absorbStars, hTokens, Joint.lead]
      · simp [hTokens, starsMayStand, hPrevious, Joint.lead]

/-- The segments still to be read give their tokens. -/
theorem Behind.scan_segments {p : Progress} {j : Joint} {before : List Token} (h : p.Behind j before)
    {segs : List (List Char)} (hSome : segs ≠ []) (hSegs : ∀ seg ∈ segs, IsPlainSegment seg) :
    scan p (['/'].intercalate segs) = .ok (before.reverse ++ j.tokens segs) := by
  induction segs generalizing p j before with
  | nil => exact absurd rfl hSome
  | cons seg segs ih =>
      have hSeg := hSegs seg List.mem_cons_self
      have hMore : ∀ s ∈ segs, IsPlainSegment s := fun s hs => hSegs s (List.mem_cons_of_mem seg hs)
      cases segs with
      | nil =>
          rw [List.intercalate_singleton, Joint.tokens]
          by_cases hStars : seg = doubleStar
          · rw [if_pos hStars, hStars]
            exact h.scan_closing
          · have hScan : scan p (seg ++ []) = scan (seg.foldl letter p) [] :=
              scan_segment h.groups hSeg hStars (.inl rfl)
            rw [List.append_nil] at hScan
            rw [hScan, if_neg hStars, scan.eq_1, tokens_letters, groups_letters, h.groups, h.tokens]
            simp
      | cons next segs =>
          have hText : ['/'].intercalate (seg :: next :: segs) =
              seg ++ '/' :: ['/'].intercalate (next :: segs) := by simp
          rw [hText, Joint.tokens]
          by_cases hStars : seg = doubleStar
          · rw [if_pos hStars, hStars]
            obtain ⟨after, hAfter, hScan⟩ := h.scan_starred (['/'].intercalate (next :: segs))
            rw [hScan]
            exact ih hAfter (List.cons_ne_nil _ _) hMore
          · have hAfter : ((seg.foldl letter p).letter '/').Behind .separator
                ((seg.map letterToken).reverse ++ (j.lead.reverse ++ before)) := by
              refine ⟨(groups_letters p seg).trans h.groups, ?_, by simp, fun _ => rfl⟩
              simp [letter, push, tokens_letters, h.tokens, Joint.lead, letterToken]
            rw [if_neg hStars, scan_segment h.groups hSeg hStars (.inr ⟨_, rfl⟩),
              scan_letter _ (.inr rfl) (by decide), ih hAfter (List.cons_ne_nil _ _) hMore]
            simp [Joint.lead]

end Progress

/-! ### What the tokens stand for -/

/-- The tokens of a segment take what the segment takes. -/
theorem languageAll_letters {seg : List Char} (h : ∀ c ∈ seg, IsPlainLetter c) :
    languageAll (seg.map letterToken) = segmentLanguage seg := by
  induction seg with
  | nil => exact segmentLanguage_nil.symm
  | cons c seg ih =>
      rw [List.map_cons, languageAll, ih fun d hd => h d (List.mem_cons_of_mem c hd)]
      by_cases hByte : c = '?'
      · subst hByte
        exact (segmentLanguage_byte seg).symm
      · by_cases hRun : c = '*'
        · subst hRun
          exact (segmentLanguage_run seg).symm
        · have hSlash : c ≠ '/' := by
            rintro rfl
            exact absurd (h '/' List.mem_cons_self) (by decide)
          rw [letterToken, if_neg hByte, if_neg hRun, segmentLanguage_letter hByte hRun hSlash]
          rfl

namespace Joint

variable {j : Joint} {segs : List (List Char)}

/-- What stands in front of the segments still to be read. -/
def language : Joint → Language UInt8
  | .start => 1
  | .separator => oneOf isSeparator
  | .leading => directories
  | .inner => oneOf isSeparator * directories

theorem languageAll_lead (j : Joint) : languageAll j.lead = j.language := by
  have hSlash : exactly (String.utf8EncodeChar '/') = oneOf isSeparator := by
    ext w
    refine mem_exactly.trans ⟨?_, ?_⟩
    · rintro rfl
      exact ⟨slash, rfl, rfl⟩
    · rintro ⟨b, rfl, hSeparator⟩
      rw [isSeparator_iff.mp hSeparator]
      rfl
  cases j <;> simp [lead, languageAll, Token.language, language, directories, anyBytes, hSlash]

/-- A further double star asks for nothing more than the directories before it. -/
theorem language_starred_mul (h : segs ≠ []) :
    j.starred.language * alignedLanguage segs = j.language * alignedLanguage (doubleStar :: segs) := by
  rw [alignedLanguage_many h]
  cases j with
  | start => rw [starred, language, language, one_mul]
  | separator => rw [starred, language, language, mul_assoc]
  | leading => rw [starred, language, ← mul_assoc, directories_mul_directories]
  | inner =>
      rw [starred, language, mul_assoc, mul_assoc, ← mul_assoc directories, directories_mul_directories]

/-- At the start of a pattern double stars alone are one token that matches by itself; apart from
that the tokens stand for what the segments are aligned with. -/
theorem language_tokens (hSome : segs ≠ []) (hSegs : ∀ seg ∈ segs, IsPlainSegment seg)
    (hInner : j.starred = .inner ∨ ∃ seg ∈ segs, seg ≠ doubleStar) :
    languageAll (j.tokens segs) = j.language * alignedLanguage segs := by
  induction segs generalizing j with
  | nil => exact absurd rfl hSome
  | cons seg segs ih =>
      have hSeg := hSegs seg List.mem_cons_self
      have hMore : ∀ s ∈ segs, IsPlainSegment s := fun s hs => hSegs s (List.mem_cons_of_mem seg hs)
      cases segs with
      | nil =>
          rw [tokens]
          by_cases hStars : seg = doubleStar
          · have hClosing : j.starred = .inner := by
              rcases hInner with hInner | ⟨s, hs, hOther⟩
              · exact hInner
              · exact absurd (List.mem_singleton.mp hs ▸ hStars) hOther
            rw [if_pos hStars, hStars, alignedLanguage_last]
            cases j with
            | start | leading => cases hClosing
            | separator => simp [closing, languageAll, Token.language, language, anyBytes]
            | inner =>
                rw [language, mul_assoc, directories_mul_anyBytes]
                simp [closing, languageAll, Token.language, anyBytes]
          · rw [if_neg hStars, languageAll_append, languageAll_lead, languageAll_letters hSeg.2,
              alignedLanguage_single hStars]
      | cons next segs =>
          have hNext : next :: segs ≠ [] := List.cons_ne_nil next segs
          rw [tokens]
          by_cases hStars : seg = doubleStar
          · have hStarred : j.starred.starred = .inner ∨ ∃ s ∈ next :: segs, s ≠ doubleStar := by
              rcases hInner with hInner | ⟨s, hs, hOther⟩
              · exact .inl (by rw [hInner]; rfl)
              · rcases List.mem_cons.mp hs with rfl | hs
                · exact absurd hStars hOther
                · exact .inr ⟨s, hs, hOther⟩
            rw [if_pos hStars, hStars, ih hNext hMore hStarred, language_starred_mul hNext]
          · rw [if_neg hStars, languageAll_append, languageAll_append, languageAll_lead,
              languageAll_letters hSeg.2, ih hNext hMore (.inl rfl), alignedLanguage_cons hStars hNext]
            rfl

/-- Double stars alone are read as the pattern that matches every path. -/
theorem tokens_of_stars (hSome : segs ≠ []) (hStars : ∀ seg ∈ segs, seg = doubleStar)
    (hStart : j.starred = .leading) : j.tokens segs = [.leadingDirs] := by
  induction segs generalizing j with
  | nil => exact absurd rfl hSome
  | cons seg segs ih =>
      have hSeg := hStars seg List.mem_cons_self
      cases segs with
      | nil =>
          rw [tokens, if_pos hSeg]
          cases j with
          | start | leading => rfl
          | separator | inner => cases hStart
      | cons next segs =>
          rw [tokens, if_pos hSeg]
          exact ih (List.cons_ne_nil next segs) (fun s hs => hStars s (List.mem_cons_of_mem seg hs))
            (by rw [hStart]; rfl)

/-- The characters of a segment that is no double star are among the tokens. -/
theorem letterToken_mem_tokens {seg : List Char} (hSeg : seg ∈ segs) (hOrdinary : seg ≠ doubleStar)
    {c : Char} (hc : c ∈ seg) : letterToken c ∈ j.tokens segs := by
  have hLetter : letterToken c ∈ seg.map letterToken := List.mem_map_of_mem hc
  induction segs generalizing j with
  | nil => exact absurd hSeg List.not_mem_nil
  | cons first segs ih =>
      rcases List.mem_cons.mp hSeg with rfl | hLater
      · cases segs with
        | nil =>
            rw [tokens, if_neg hOrdinary]
            exact List.mem_append_right _ hLetter
        | cons next segs =>
            rw [tokens, if_neg hOrdinary]
            exact List.mem_append_right _ (List.mem_append_left _ hLetter)
      · cases segs with
        | nil => exact absurd hLater List.not_mem_nil
        | cons next segs =>
            rw [tokens]
            split
            · exact ih hLater
            · exact List.mem_append_right _ (List.mem_append_right _ (ih hLater))

end Joint

theorem not_isUniversal {tokens : List Token} {c : Char} (h : letterToken c ∈ tokens) :
    isUniversal tokens = false := by
  unfold isUniversal
  split
  · rw [List.mem_singleton, letterToken] at h
    repeat' split at h
    all_goals cases h
  · rfl

theorem aligned_of_stars {segs : List (List Char)} (hSome : segs ≠ [])
    (hStars : ∀ seg ∈ segs, seg = doubleStar) {parts : List (List UInt8)} (hParts : parts ≠ []) :
    Aligned segs parts := by
  induction segs with
  | nil => exact absurd rfl hSome
  | cons seg segs ih =>
      rw [hStars seg List.mem_cons_self]
      by_cases hLast : segs = []
      · subst hLast
        exact .last hParts
      · exact .many [] hLast (ih hLast fun s hs => hStars s (List.mem_cons_of_mem seg hs))

/-- A pattern whose segments are plain matches a path exactly if its segments can be aligned with
those of the path. Only a double star that is a segment of its own takes more than one segment. -/
theorem matches_iff_aligned (pattern : String) (h : ∀ seg ∈ segments pattern, IsPlainSegment seg) :
    ∃ tokens, parse pattern = .ok tokens ∧ ∀ path : String,
      (isMatch tokens path = true ↔ Aligned (segments pattern) ((segments path).map Text.utf8)) ∧
        (doubleStar ∉ segments pattern → isMatch tokens path = true →
          (segments path).length = (segments pattern).length) := by
  have hSome : segments pattern ≠ [] := List.splitOn_ne_nil '/' pattern.toList
  have hBehind : Progress.start.Behind .start [] := ⟨rfl, rfl, fun _ => rfl, fun h => absurd rfl h⟩
  have hParse : parse pattern = .ok (Joint.start.tokens (segments pattern)) := by
    have hScan := hBehind.scan_segments hSome h
    rw [segments, List.intercalate_splitOn] at hScan
    exact hScan
  have hMatch (path : String) : isMatch (Joint.start.tokens (segments pattern)) path = true ↔
      Aligned (segments pattern) ((segments path).map Text.utf8) := by
    rw [isMatch, matchesBytes_iff]
    unfold segments at *
    rw [← splitOn_utf8]
    by_cases hStars : ∀ seg ∈ pattern.toList.splitOn '/', seg = doubleStar
    · have hUniversal := Joint.tokens_of_stars (j := .start) hSome hStars rfl
      refine iff_of_true (.inl ?_) (aligned_of_stars hSome hStars (List.splitOn_ne_nil slash _))
      rw [hUniversal]
      rfl
    · obtain ⟨seg, hMem, hOrdinary⟩ : ∃ seg ∈ pattern.toList.splitOn '/', seg ≠ doubleStar := by
        simpa using hStars
      obtain ⟨c, hc⟩ := List.exists_mem_of_ne_nil seg (h seg hMem).1
      have hNot := not_isUniversal (Joint.letterToken_mem_tokens (j := .start) hMem hOrdinary hc)
      rw [hNot, Joint.language_tokens hSome h (.inr ⟨seg, hMem, hOrdinary⟩), Joint.language, one_mul]
      simp only [Bool.false_eq_true, false_or]
      rfl
  refine ⟨_, hParse, fun path => ⟨hMatch path, fun hOrdinary hMatches => ?_⟩⟩
  have hLength := ((hMatch path).mp hMatches).length_eq hOrdinary
  rwa [List.length_map] at hLength

/-- At a pattern of three segments the double star takes two segments of a path. -/
theorem matches_iff_aligned_nested :
    (∀ seg ∈ segments "src/**/*.ts", IsPlainSegment seg) ∧
      ∃ tokens, parse "src/**/*.ts" = .ok tokens ∧ isMatch tokens "src/a/b/c.ts" = true := by
  have hPlain : ∀ seg ∈ segments "src/**/*.ts", IsPlainSegment seg := by decide
  obtain ⟨tokens, hParse, hMatch⟩ := matches_iff_aligned "src/**/*.ts" hPlain
  refine ⟨hPlain, tokens, hParse, (hMatch "src/a/b/c.ts").1.mpr ?_⟩
  have hFirst : SegmentTakes ['s', 'r', 'c'] (Text.utf8 ['s', 'r', 'c']) :=
    .letter (by decide) (by decide) (.letter (by decide) (by decide)
      (.letter (by decide) (by decide) .done))
  have hLast : SegmentTakes ['*', '.', 't', 's'] (Text.utf8 ['c', '.', 't', 's']) :=
    .run (Text.utf8 ['c']) (.letter (by decide) (by decide) (.letter (by decide) (by decide)
      (.letter (by decide) (by decide) .done)))
  exact .one (by decide) hFirst
    (.many [Text.utf8 ['a'], Text.utf8 ['b']] (by decide) (.one (by decide) hLast .done))

end LintRepair.Glob
