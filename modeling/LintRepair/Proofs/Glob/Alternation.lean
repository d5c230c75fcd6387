import LintRepair.Proofs.Glob.Alignment

/-! Alternatives between two pieces of a pattern that hold no group and no class. What the pieces
are read as does not depend on whether a group or one of its words stands between them: a double star
that touches the place is two single stars both times. So the pattern stands for the union of the
patterns with one word in place of the group. -/

namespace LintRepair.Glob

/-- A text that opens no class and no group and escapes nothing; it may hold separators and stars. -/
def IsFlat (text : List Char) : Prop := ∀ c ∈ text, c ∉ ['[', ']', '\x7b', '\x7d', ',', '\\']

instance (text : List Char) : Decidable (IsFlat text) := List.decidableBAll _ _

/-- A text, not empty, whose characters all stand for themselves inside a segment. -/
def IsWord (text : List Char) : Prop :=
  text ≠ [] ∧ ∀ c ∈ text, c ∉ ['*', '?', '[', ']', '\x7b', '\x7d', ',', '\\', '/']

instance (text : List Char) : Decidable (IsWord text) :=
  @instDecidableAnd _ _ _ (List.decidableBAll _ _)

/-- The pattern with a group of words between two pieces. -/
def grouped (front back : String) (words : List String) : String :=
  front ++ "\x7b" ++ ",".intercalate words ++ "\x7d" ++ back

theorem IsFlat.head {c : Char} {text : List Char} (h : IsFlat (c :: text)) :
    IsPlainLetter c ∨ c = '/' := by
  have hc := h c List.mem_cons_self
  by_cases hSlash : c = '/'
  · exact .inr hSlash
  · exact .inl fun hMem => (List.mem_cons.mp hMem).elim hSlash hc

theorem IsFlat.tail {c : Char} {text : List Char} (h : IsFlat (c :: text)) : IsFlat text :=
  fun d hd => h d (List.mem_cons_of_mem c hd)

theorem IsWord.letter {word : List Char} (h : IsWord word) {c : Char} (hc : c ∈ word) :
    IsPlainLetter c ∧ c ≠ '*' ∧ c ≠ '/' := by
  have hOrdinary := h.2 c hc
  simp only [List.mem_cons, List.not_mem_nil, or_false, not_or] at hOrdinary
  simp only [IsPlainLetter, List.mem_cons, List.not_mem_nil, or_false, not_or]
  tauto

/-- Induction along the stars of a text: two in a row are taken together, with the separator behind
them if there is one. -/
theorem starwise {motive : List Char → Prop} (nil : motive [])
    (letter : ∀ c rest, c ≠ '*' → motive rest → motive (c :: rest))
    (star : ∀ rest, (∀ more, rest ≠ '*' :: more) → motive rest → motive ('*' :: rest))
    (directories : ∀ rest, motive rest → motive ('*' :: '*' :: '/' :: rest))
    (stars : ∀ rest, (∀ more, rest ≠ '/' :: more) → motive rest → motive ('*' :: '*' :: rest))
    (text : List Char) : motive text := by
  induction hLength : text.length using Nat.strongRecOn generalizing text with
  | ind n ih =>
      match text with
      | [] => exact nil
      | c :: rest =>
          rw [List.length_cons] at hLength
          by_cases hStar : c = '*'
          · subst hStar
            by_cases hTwo : ∃ more, rest = '*' :: more
            · obtain ⟨more, rfl⟩ := hTwo
              rw [List.length_cons] at hLength
              by_cases hSlash : ∃ tail, more = '/' :: tail
              · obtain ⟨tail, rfl⟩ := hSlash
                rw [List.length_cons] at hLength
                exact directories tail (ih tail.length (by omega) tail rfl)
              · exact stars more (fun tail h => hSlash ⟨tail, h⟩) (ih more.length (by omega) more rfl)
            · exact star rest (fun more h => hTwo ⟨more, h⟩) (ih rest.length (by omega) rest rfl)
          · exact letter c rest hStar (ih rest.length (by omega) rest rfl)

/-! ### Reading a flat piece -/

namespace Progress

/-- At the end of a pattern without open braces its tokens are complete. -/
theorem scan_nil {p : Progress} (h : p.groups = []) : scan p [] = .ok p.tokens.reverse := by
  rw [scan.eq_1, h]
  rfl

/-- Two stars and a separator have been read. -/
def directories (p : Progress) : Progress :=
  if p.tokens.isEmpty then p.push '/' [.leadingDirs]
  else if p.starsMayStand then p.absorbStars '/' .innerDirs
  else ((p.letter '*').letter '*').letter '/'

/-- Two stars and a separator stand for any directories. -/
theorem scan_directories (p : Progress) (rest : List Char) :
    scan p ('*' :: '*' :: '/' :: rest) = scan p.directories rest := by
  rw [scan.eq_4, directories]
  split
  · rfl
  · split
    · rfl
    · exact scan_letter _ (.inr rfl) (by decide) rest

/-- Two stars in front of anything but a separator or the end are two single ones. -/
theorem scan_stars {p : Progress} (h : p.groups = []) {c : Char} (hSlash : c ≠ '/')
    (rest : List Char) :
    scan p ('*' :: '*' :: c :: rest) = scan ((p.letter '*').letter '*') (c :: rest) := by
  rw [scan.eq_5 p c rest hSlash]
  simp only [h, List.isEmpty_nil, Bool.true_eq_false, and_false, if_false, ite_self]
  rfl

theorem groups_absorbStars (p : Progress) (c : Char) (t : Token) :
    (p.absorbStars c t).groups = p.groups := by
  unfold absorbStars
  split <;> rfl

theorem groups_directories (p : Progress) : p.directories.groups = p.groups := by
  unfold directories
  split
  · rfl
  · split
    · exact groups_absorbStars p _ _
    · rfl

/-- A piece in front of a character that belongs to no star is read the same way whatever this
character is and whatever follows it. -/
theorem scan_front {text : List Char} (hText : IsFlat text) {p : Progress} (hGroups : p.groups = []) :
    ∃ next : Progress, next.groups = [] ∧ ∀ c rest, c ≠ '*' → c ≠ '/' →
      scan p (text ++ c :: rest) = scan next (c :: rest) := by
  induction text using starwise generalizing p with
  | nil => exact ⟨p, hGroups, fun _ _ _ _ => rfl⟩
  | letter d text hStar ih =>
      obtain ⟨next, hNext, hScan⟩ := ih hText.tail (p := p.letter d) hGroups
      refine ⟨next, hNext, fun c rest hc hSlash => ?_⟩
      rw [List.cons_append, scan_letter p hText.head hStar]
      exact hScan c rest hc hSlash
  | star text hOne ih =>
      obtain ⟨next, hNext, hScan⟩ := ih hText.tail (p := p.letter '*') hGroups
      refine ⟨next, hNext, fun c rest hc hSlash => ?_⟩
      have hAlone : ∀ more, text ++ c :: rest ≠ '*' :: more := by
        intro more hSame
        cases text with
        | nil => exact hc (List.cons.inj hSame).1
        | cons d text => exact hOne text (by rw [(List.cons.inj hSame).1])
      rw [List.cons_append, scan_star p hAlone]
      exact hScan c rest hc hSlash
  | directories text ih =>
      obtain ⟨next, hNext, hScan⟩ := ih hText.tail.tail.tail ((groups_directories p).trans hGroups)
      refine ⟨next, hNext, fun c rest hc hSlash => ?_⟩
      rw [List.cons_append, List.cons_append, List.cons_append, scan_directories]
      exact hScan c rest hc hSlash
  | stars text hOther ih =>
      obtain ⟨next, hNext, hScan⟩ := ih hText.tail.tail (p := (p.letter '*').letter '*') hGroups
      refine ⟨next, hNext, fun c rest hc hSlash => ?_⟩
      refine Eq.trans ?_ (hScan c rest hc hSlash)
      cases text with
      | nil => exact scan_stars hGroups hSlash rest
      | cons d text =>
          have hd : d ≠ '/' := by
            rintro rfl
            exact hOther text rfl
          exact scan_stars hGroups hd (text ++ c :: rest)

/-- The same place with further tokens below those that are there. -/
def upon (p : Progress) (below : List Token) : Progress := { p with tokens := p.tokens ++ below }

/-- What was scanned before a group stays below what is scanned in it. -/
theorem absorbStars_upon {p : Progress} (h : p.tokens ≠ []) (c : Char) (t : Token)
    (below : List Token) : (p.upon below).absorbStars c t = (p.absorbStars c t).upon below := by
  obtain ⟨previous, tokens, groups⟩ := p
  cases tokens with
  | nil => exact absurd rfl h
  | cons first tokens => cases first <;> rfl

theorem directories_upon {p : Progress} (h : p.tokens ≠ []) (below : List Token) :
    (p.upon below).directories = p.directories.upon below := by
  have hSome : (p.upon below).tokens.isEmpty = false := by simp [upon, h]
  have hStand : (p.upon below).starsMayStand = p.starsMayStand := rfl
  have hEmpty : p.tokens.isEmpty = false := by simp [h]
  unfold directories
  rw [hSome, hStand, hEmpty, absorbStars_upon h]
  cases p.starsMayStand <;> rfl

/-- Two stars at the end of a pattern, behind other tokens. -/
theorem scan_closing {p : Progress} (hGroups : p.groups = []) (hTokens : p.tokens ≠ []) :
    ∃ after, ∀ below, scan (p.upon below) ['*', '*'] = .ok (below.reverse ++ after) := by
  have hSome : ∀ below, (p.upon below).tokens.isEmpty = false := fun below => by simp [upon, hTokens]
  have hStand : ∀ below, (p.upon below).starsMayStand = p.starsMayStand := fun _ => rfl
  cases hMay : p.starsMayStand with
  | false =>
      refine ⟨((p.letter '*').letter '*').tokens.reverse, fun below => ?_⟩
      rw [scan.eq_3, hSome, hStand, hMay]
      refine (scan_nil (p := ((p.letter '*').letter '*').upon below) hGroups).trans ?_
      exact congrArg _ List.reverse_append
  | true =>
      refine ⟨(p.absorbStars '*' .trailingPath).tokens.reverse, fun below => ?_⟩
      rw [scan.eq_3, hSome, hStand, hMay, absorbStars_upon hTokens]
      refine (scan_nil (p := (p.absorbStars '*' .trailingPath).upon below)
        ((groups_absorbStars p _ _).trans hGroups)).trans ?_
      exact congrArg _ List.reverse_append

theorem tokens_directories (p : Progress) : p.directories.tokens ≠ [] := by
  unfold directories
  split
  · simp [push]
  · split
    · unfold absorbStars
      split <;> simp_all
    · simp [letter, push]

/-- With tokens to stand on, a piece at the end gives the same tokens whatever lies below those. -/
theorem scan_upon {text : List Char} (hText : IsFlat text) {p : Progress} (hGroups : p.groups = [])
    (hTokens : p.tokens ≠ []) : ∃ after, ∀ below,
      scan (p.upon below) text = .ok (below.reverse ++ after) := by
  induction text using starwise generalizing p with
  | nil =>
      refine ⟨p.tokens.reverse, fun below => ?_⟩
      rw [scan_nil (p := p.upon below) hGroups]
      exact congrArg _ List.reverse_append
  | letter d text hStar ih =>
      obtain ⟨after, hScan⟩ := ih hText.tail (p := p.letter d) hGroups (List.cons_ne_nil _ _)
      refine ⟨after, fun below => ?_⟩
      rw [scan_letter _ hText.head hStar]
      exact hScan below
  | star text hOne ih =>
      obtain ⟨after, hScan⟩ := ih hText.tail (p := p.letter '*') hGroups (List.cons_ne_nil _ _)
      refine ⟨after, fun below => ?_⟩
      rw [scan_star _ hOne]
      exact hScan below
  | directories text ih =>
      obtain ⟨after, hScan⟩ :=
        ih hText.tail.tail.tail ((groups_directories p).trans hGroups) (tokens_directories p)
      refine ⟨after, fun below => ?_⟩
      rw [scan_directories, directories_upon hTokens]
      exact hScan below
  | stars text hOther ih =>
      cases text with
      | nil => exact scan_closing hGroups hTokens
      | cons d text =>
          have hd : d ≠ '/' := by
            rintro rfl
            exact hOther text rfl
          obtain ⟨after, hScan⟩ :=
            ih hText.tail.tail (p := (p.letter '*').letter '*') hGroups (List.cons_ne_nil _ _)
          refine ⟨after, fun below => ?_⟩
          rw [scan_stars (p := p.upon below) hGroups hd]
          exact hScan below

/-- Behind a finished token a piece at the end gives the same tokens, whichever token that is. -/
theorem scan_back {text : List Char} (hText : IsFlat text) :
    ∃ after, ∀ p : Progress, p.Settled → scan p text = .ok (p.tokens.reverse ++ after) := by
  -- The first characters give tokens of their own to stand on.
  have hOn (tokens : List Token) (c : Char) {rest : List Char} (hRest : IsFlat rest)
      (hTokens : tokens ≠ []) : ∃ after, ∀ p : Progress, p.Settled →
        scan (upon ⟨some c, tokens, p.groups⟩ p.tokens) rest = .ok (p.tokens.reverse ++ after) := by
    obtain ⟨after, hScan⟩ := scan_upon (p := ⟨some c, tokens, []⟩) hRest rfl hTokens
    refine ⟨after, fun p hp => ?_⟩
    rw [hp.groups]
    exact hScan p.tokens
  cases text with
  | nil =>
      refine ⟨[], fun p hp => ?_⟩
      rw [scan_nil hp.groups, List.append_nil]
  | cons c rest =>
      by_cases hStar : c = '*'
      · subst hStar
        by_cases hTwo : ∃ more, rest = '*' :: more
        · obtain ⟨more, rfl⟩ := hTwo
          obtain ⟨after, hScan⟩ := hOn [.anyRun, .anyRun] '*' hText.tail.tail
            (List.cons_ne_nil _ _)
          refine ⟨after, fun p hp => ?_⟩
          rw [hp.scan_stars]
          exact hScan p hp
        · obtain ⟨after, hScan⟩ := hOn [letterToken '*'] '*' hText.tail
            (List.cons_ne_nil _ _)
          refine ⟨after, fun p hp => ?_⟩
          rw [scan_star p fun more h => hTwo ⟨more, h⟩]
          exact hScan p hp
      · obtain ⟨after, hScan⟩ := hOn [letterToken c] c hText.tail
          (List.cons_ne_nil _ _)
        refine ⟨after, fun p hp => ?_⟩
        rw [scan_letter p hText.head hStar]
        exact hScan p hp

/-! ### Reading words -/

/-- The characters of a word are literal in any place, also inside a group. -/
theorem scan_word {word : List Char} (h : ∀ c ∈ word, IsPlainLetter c ∧ c ≠ '*') (p : Progress)
    (rest : List Char) : scan p (word ++ rest) = scan (word.foldl letter p) rest := by
  induction word generalizing p with
  | nil => rfl
  | cons c word ih =>
      rw [List.forall_mem_cons] at h
      rw [List.cons_append, scan_letter p (.inl h.1.1) h.1.2, ih h.2]
      rfl

theorem settled_word {word : List Char} (h : IsWord word) {p : Progress} (hGroups : p.groups = []) :
    (word.foldl letter p).Settled := by
  obtain ⟨front, c, rfl⟩ := (List.eq_nil_or_concat word).resolve_left h.1
  rw [List.concat_eq_append, List.foldl_append]
  exact settled_letter ((groups_letters p front).trans hGroups) (h.letter (by simp)).1

/-- The words of a group up to its end, each a branch of its token. -/
theorem scan_words {words : List (List Char)} (hSome : words ≠ []) (h : ∀ word ∈ words, IsWord word)
    (c : Option Char) (before : List Token) (branches : List (List Token)) (rest : List Char) :
    scan ⟨c, [], [⟨before, branches⟩]⟩ ([','].intercalate words ++ '\x7d' :: rest) =
      scan ⟨some '\x7d', .alternatives (branches.reverse ++ words.map (·.map letterToken)) :: before,
        []⟩ rest := by
  induction words generalizing c branches with
  | nil => exact absurd rfl hSome
  | cons word words ih =>
      rw [List.forall_mem_cons] at h
      have hWord : ∀ d ∈ word, IsPlainLetter d ∧ d ≠ '*' := fun d hd =>
        ⟨(h.1.letter hd).1, (h.1.letter hd).2.1⟩
      cases words with
      | nil =>
          rw [List.intercalate_singleton, scan_word hWord, scan.eq_11, groups_letters, tokens_letters]
          simp
      | cons next words =>
          rw [List.intercalate_cons_cons, List.append_assoc, List.append_assoc, scan_word hWord,
            List.singleton_append, scan.eq_12, groups_letters]
          refine (ih (List.cons_ne_nil _ _) h.2 _ _).trans ?_
          rw [tokens_letters]
          simp

end Progress

/-- Around a group and around a word in its place the pieces give the same tokens. -/
theorem parse_around (front back : String) (hFront : IsFlat front.toList) (hBack : IsFlat back.toList) :
    ∃ before after,
      (∀ word : String, IsWord word.toList → parse (front ++ word ++ back) =
        .ok (before ++ (word.toList.map letterToken ++ after))) ∧
      ∀ words : List String, words ≠ [] → (∀ word ∈ words, IsWord word.toList) →
        parse (grouped front back words) =
          .ok (before ++ .alternatives (words.map fun word => word.toList.map letterToken) :: after) := by
  obtain ⟨next, hGroups, hScan⟩ := Progress.scan_front hFront (p := .start) rfl
  obtain ⟨after, hAfter⟩ := Progress.scan_back hBack
  refine ⟨next.tokens.reverse, after, fun word hWord => ?_, fun words hSome hWords => ?_⟩
  -- Without braces the word continues the front.
  · have hLetters : ∀ c ∈ word.toList, IsPlainLetter c ∧ c ≠ '*' := fun c hc =>
      ⟨(hWord.letter hc).1, (hWord.letter hc).2.1⟩
    have hStart : scan .start (front.toList ++ (word.toList ++ back.toList)) =
        scan next (word.toList ++ back.toList) := by
      cases hList : word.toList with
      | nil => exact absurd hList hWord.1
      | cons c rest =>
          have hc := hWord.letter (hList ▸ List.mem_cons_self : c ∈ word.toList)
          exact hScan c (rest ++ back.toList) hc.2.1 hc.2.2
    rw [parse, String.toList_append, String.toList_append, List.append_assoc, hStart,
      Progress.scan_word hLetters, hAfter _ (Progress.settled_word hWord hGroups),
      Progress.tokens_letters]
    simp
  -- In braces each word is scanned into a branch of its own.
  · have hText : (grouped front back words).toList = front.toList ++ '\x7b' ::
        ([','].intercalate (words.map String.toList) ++ '\x7d' :: back.toList) := by
      simp [grouped]
    have hSettled : Progress.Settled ⟨some '\x7d',
        .alternatives ((words.map String.toList).map (·.map letterToken)) :: next.tokens, []⟩ :=
      ⟨rfl, List.cons_ne_nil _ _, by simp⟩
    have hWords : ∀ word ∈ words.map String.toList, IsWord word := by
      intro word hMem
      obtain ⟨s, hs, rfl⟩ := List.mem_map.mp hMem
      exact hWords s hs
    have hScanned := Progress.scan_words (by simpa using hSome) hWords (some '\x7b') next.tokens []
      back.toList
    rw [parse, hText, hScan _ _ (by decide) (by decide), scan.eq_10, hGroups, hScanned,
      List.reverse_nil, List.nil_append, hAfter _ hSettled]
    simp

/-! ### What alternatives stand for -/

theorem eq_leadingDirs_of_isUniversal {tokens : List Token} (h : isUniversal tokens = true) :
    tokens = [.leadingDirs] := by
  unfold isUniversal at h
  split at h
  · rfl
  · cases h

/-- Branches that stand for something take what one of them takes. -/
theorem mem_languageAny {branches : List (List Token)} (h : ∀ b ∈ branches, isVacuous b = false)
    {w : List UInt8} : w ∈ languageAny branches ↔ ∃ b ∈ branches, w ∈ languageAll b := by
  induction branches with
  | nil => simp [languageAny, Language.notMem_zero]
  | cons branch branches ih =>
      rw [List.forall_mem_cons] at h
      rw [languageAny, h.1, if_neg Bool.false_ne_true, Language.mem_add, ih h.2]
      simp

theorem allVacuous_eq_false {branches : List (List Token)} (hSome : branches ≠ [])
    (h : ∀ b ∈ branches, isVacuous b = false) : allVacuous branches = false := by
  cases branches with
  | nil => exact absurd rfl hSome
  | cons branch branches => simp [allVacuous, h branch List.mem_cons_self]

/-- Alternatives, each of which can stand for something, stand for what any of them does. -/
theorem mem_languageAll_alternatives {branches : List (List Token)} (hSome : branches ≠ [])
    (h : ∀ b ∈ branches, isVacuous b = false) (before after : List Token) {w : List UInt8} :
    w ∈ languageAll (before ++ .alternatives branches :: after) ↔
      ∃ b ∈ branches, w ∈ languageAll (before ++ (b ++ after)) := by
  have hToken : (Token.alternatives branches).language = languageAny branches := by
    rw [Token.language, allVacuous_eq_false hSome h, if_neg Bool.false_ne_true]
  simp only [languageAll_append, languageAll, hToken, Language.mem_mul, mem_languageAny h]
  constructor
  · rintro ⟨x, hx, _, ⟨y, ⟨b, hb, hy⟩, z, hz, rfl⟩, rfl⟩
    exact ⟨b, hb, x, hx, y ++ z, ⟨y, hy, z, hz, rfl⟩, rfl⟩
  · rintro ⟨b, hb, x, hx, _, ⟨y, hy, z, hz, rfl⟩, rfl⟩
    exact ⟨x, hx, y ++ z, ⟨y, ⟨b, hb, hy⟩, z, hz, rfl⟩, rfl⟩

theorem isVacuous_letters {word : List Char} (h : word ≠ []) :
    isVacuous (word.map letterToken) = false := by
  cases word with
  | nil => exact absurd rfl h
  | cons c word =>
      have hLetter : (letterToken c).isVacuous = false := by
        unfold letterToken
        repeat' split
        all_goals rfl
      rw [List.map_cons, isVacuous, hLetter, Bool.false_and]

/-- Words as alternatives match what one of them matches in their place. -/
theorem isMatch_words {words : List (List Char)} (hSome : words ≠ []) (h : ∀ word ∈ words, word ≠ [])
    (before after : List Token) (path : String) :
    isMatch (before ++ .alternatives (words.map (·.map letterToken)) :: after) path = true ↔
      ∃ word ∈ words, isMatch (before ++ (word.map letterToken ++ after)) path = true := by
  have hVacuous : ∀ b ∈ words.map (·.map letterToken), isVacuous b = false := by
    intro b hb
    obtain ⟨word, hWord, rfl⟩ := List.mem_map.mp hb
    exact isVacuous_letters (h word hWord)
  have hGroup : isUniversal (before ++ .alternatives (words.map (·.map letterToken)) :: after) =
      false := by
    refine Bool.eq_false_iff.mpr fun hUniversal => ?_
    have hMem : Token.alternatives (words.map (·.map letterToken)) ∈ [Token.leadingDirs] := by
      rw [← eq_leadingDirs_of_isUniversal hUniversal]
      exact List.mem_append_right before List.mem_cons_self
    cases List.mem_singleton.mp hMem
  have hWord : ∀ word ∈ words, isUniversal (before ++ (word.map letterToken ++ after)) = false := by
    intro word hMem
    obtain ⟨c, hc⟩ := List.exists_mem_of_ne_nil word (h word hMem)
    have hLetter : letterToken c ∈ word.map letterToken := List.mem_map_of_mem hc
    exact not_isUniversal (List.mem_append_right _ (List.mem_append_left _ hLetter))
  have hAlternatives := mem_languageAll_alternatives (by simpa using hSome) hVacuous before after
    (w := Text.utf8 path.toList)
  rw [isMatch, matchesBytes_iff, hGroup, hAlternatives]
  simp only [Bool.false_eq_true, false_or, List.mem_map, exists_exists_and_eq_and]
  refine exists_congr fun word => and_congr_right fun hMem => ?_
  rw [isMatch, matchesBytes_iff, hWord word hMem]
  simp only [Bool.false_eq_true, false_or]

end LintRepair.Glob
