import LintRepair.Glob.Matching
import Mathlib.Computability.Language

/-! What a pattern stands for, said apart from how it is matched: a set of byte sequences for each
token, joined by concatenation and union. Passing a set of places through a token carries that set of
sequences, and so matching decides membership. -/

namespace LintRepair.Glob

/-! ### The bytes a pattern stands for -/

/-- These bytes and no others. -/
def exactly (spelling : List UInt8) : Language UInt8 := {w | w = spelling}

def oneOf (kind : UInt8 → Bool) : Language UInt8 := {w | ∃ b, w = [b] ∧ kind b = true}

/-- Any number of bytes of a kind. -/
def manyOf (kind : UInt8 → Bool) : Language UInt8 := {w | ∀ b ∈ w, kind b = true}

mutual

/-- The byte sequences that a token stands for. -/
def Token.language : Token → Language UInt8
  | .literal c => exactly (String.utf8EncodeChar c)
  | .anyByte => oneOf (!isSeparator ·)
  | .anyRun => manyOf (!isSeparator ·)
  | .leadingDirs => 1 + manyOf (fun _ => true) * oneOf isSeparator
  | .trailingPath => oneOf isSeparator * manyOf (fun _ => true)
  | .innerDirs => oneOf isSeparator * (1 + manyOf (fun _ => true) * oneOf isSeparator)
  | .charClass negated ranges => oneOf (inClass negated ranges)
  | .alternatives branches => if allVacuous branches then 1 else languageAny branches

/-- The byte sequences that tokens stand for one after another. -/
def languageAll : List Token → Language UInt8
  | [] => 1
  | t :: tokens => t.language * languageAll tokens

/-- The byte sequences of the alternatives that can stand for something. -/
def languageAny : List (List Token) → Language UInt8
  | [] => 0
  | branch :: branches =>
    if isVacuous branch then languageAny branches else languageAll branch + languageAny branches

end

theorem mem_exactly {spelling w : List UInt8} : w ∈ exactly spelling ↔ w = spelling := Iff.rfl

/-- Tokens one after another take one text after another. -/
theorem languageAll_append (front back : List Token) :
    languageAll (front ++ back) = languageAll front * languageAll back := by
  induction front with
  | nil => simp [languageAll]
  | cons t front ih => simp [languageAll, ih, mul_assoc]

/-! ### Sets of places -/

namespace Places

/-- The place behind so many bytes belongs to the set. -/
def Has (places : Places) (n : Nat) : Prop := places[n]? = some true

theorem has_start {bytes : List UInt8} {n : Nat} : (start bytes).Has n ↔ n = 0 := by
  cases n with
  | zero => simp [Has, start]
  | succ n => simp [Has, start, List.getElem?_replicate]

theorem not_has_none {bytes : List UInt8} {n : Nat} : ¬ (none bytes).Has n := by
  cases n with
  | zero => simp [Has, none]
  | succ n => simp [Has, none, List.getElem?_replicate]

/-- A union has the places of both sets. -/
theorem has_union {p q : Places} (h : p.length = q.length) {n : Nat} :
    (p.union q).Has n ↔ p.Has n ∨ q.Has n := by
  have hLength : p[n]? = Option.none ↔ q[n]? = Option.none := by
    rw [List.getElem?_eq_none_iff, List.getElem?_eq_none_iff, h]
  unfold Has union
  rw [List.getElem?_zipWith]
  cases hp : p[n]? with
  | none =>
      rw [hLength.mp hp]
      simp
  | some a =>
      cases hq : q[n]? with
      | none =>
          rw [hLength.mpr hq] at hp
          cases hp
      | some b => simp

/-- The end is reached if it is among the places. -/
theorem reachesEnd_iff {bytes : List UInt8} {places : Places}
    (h : places.length = bytes.length + 1) : places.reachesEnd = true ↔ places.Has bytes.length := by
  have hLast : bytes.length = places.length - 1 := by omega
  unfold reachesEnd Has
  rw [hLast, List.getLastD_eq_getLast?, List.getLast?_eq_getElem?]
  cases places[places.length - 1]? with
  | none => simp
  | some b => simp

/-- Behind a byte there is the place of the set that stood before it. -/
theorem has_advance {kind : UInt8 → Bool} {front back : List UInt8} {places : Places} :
    (places.advance kind (front ++ back)).Has front.length ↔
      ∃ before b, front = before ++ [b] ∧ places.Has before.length ∧ kind b = true := by
  unfold Has advance
  rcases List.eq_nil_or_concat front with rfl | ⟨before, b, rfl⟩
  · simp
  · have hByte : (before ++ [b] ++ back)[before.length]? = some b := by simp
    rw [List.concat_eq_append, List.length_append, List.length_singleton, List.getElem?_cons_succ,
      List.getElem?_zipWith, hByte]
    constructor
    · intro h
      refine ⟨before, b, rfl, ?_⟩
      cases hHere : places[before.length]? with
      | none => simp [hHere] at h
      | some here => simpa [hHere] using h
    · rintro ⟨other, c, hSame, hHas, hKind⟩
      obtain ⟨rfl, hByte⟩ := List.append_inj' hSame rfl
      cases hByte
      simp [hHas, hKind]

/-- Where spreading goes on after the bytes in front: from before them, or from one of the places
between them. -/
theorem has_spreadFrom {kind : UInt8 → Bool} {front back : List UInt8} {reached : Bool}
    {places : Places} (h : places.length = (front ++ back).length + 1) :
    (spreadFrom kind reached (front ++ back) places).Has front.length ↔
      (reached = true ∧ ∀ b ∈ front, kind b = true) ∨
        ∃ before mid, front = before ++ mid ∧ places.Has before.length ∧ ∀ b ∈ mid, kind b = true := by
  induction front generalizing reached places with
  | nil =>
      cases places with
      | nil => cases h
      | cons here places =>
          cases back with
          | nil => simp [spreadFrom, Has, or_comm]
          | cons b back => simp [spreadFrom, Has, or_comm]
  | cons b front ih =>
      cases places with
      | nil => cases h
      | cons here places =>
          change (spreadFrom kind ((here || reached) && kind b) (front ++ back) places).Has
            front.length ↔ _
          rw [ih (Nat.succ.inj h)]
          constructor
          -- A run that is open behind the first byte began before it or at it.
          · rintro (⟨hReached, hAll⟩ | ⟨before, mid, rfl, hHas, hAll⟩)
            · rw [Bool.and_eq_true, Bool.or_eq_true] at hReached
              have hKind : ∀ c ∈ b :: front, kind c = true :=
                List.forall_mem_cons.mpr ⟨hReached.2, hAll⟩
              rcases hReached.1 with hHere | hBefore
              · exact .inr ⟨[], b :: front, rfl, congrArg some hHere, hKind⟩
              · exact .inl ⟨hBefore, hKind⟩
            · exact .inr ⟨b :: before, mid, rfl, hHas, hAll⟩
          · rintro (⟨hReached, hAll⟩ | ⟨before, mid, hSplit, hHas, hAll⟩)
            · rw [List.forall_mem_cons] at hAll
              exact .inl ⟨by simp [hReached, hAll.1], hAll.2⟩
            · cases before with
              | nil =>
                  obtain rfl : b :: front = mid := hSplit
                  rw [List.forall_mem_cons] at hAll
                  have hHere : here = true := Option.some.inj hHas
                  exact .inl ⟨by simp [hHere, hAll.1], hAll.2⟩
              | cons c before =>
                  obtain ⟨rfl, rfl⟩ := List.cons.inj hSplit
                  exact .inr ⟨before, mid, rfl, hHas, hAll⟩

theorem length_spreadFrom {kind : UInt8 → Bool} {reached : Bool} {bytes : List UInt8}
    {places : Places} (h : places.length = bytes.length + 1) :
    (spreadFrom kind reached bytes places).length = bytes.length + 1 := by
  induction bytes generalizing reached places with
  | nil =>
      obtain ⟨here, rfl⟩ := List.length_eq_one_iff.mp h
      rfl
  | cons b bytes ih =>
      cases places with
      | nil => cases h
      | cons here places => exact congrArg (· + 1) (ih (Nat.succ.inj h))

end Places

/-! ### Steps over places -/

/-- A step over the places of a path carries a language: it leads to a place exactly from the places
that a member of the language lies behind. -/
structure Carries (bytes : List UInt8) (step : Places → Places) (L : Language UInt8) : Prop where
  length : ∀ p : Places, p.length = bytes.length + 1 → (step p).length = bytes.length + 1
  has_iff : ∀ p : Places, p.length = bytes.length + 1 → ∀ front back, bytes = front ++ back →
    ((step p).Has front.length ↔
      ∃ before mid, front = before ++ mid ∧ p.Has before.length ∧ mid ∈ L)

namespace Carries

variable {bytes : List UInt8} {f g : Places → Places} {L M : Language UInt8}

/-- Staying in place carries the empty sequence alone. -/
theorem stay : Carries bytes (fun p => p) 1 where
  length _ h := h
  has_iff p _ front back _ := by
    constructor
    · intro h
      exact ⟨front, [], (List.append_nil front).symm, h, rfl⟩
    · rintro ⟨before, mid, rfl, hHas, hMid⟩
      rw [(Language.mem_one mid).mp hMid, List.append_nil]
      exact hHas

theorem fail : Carries bytes (fun _ => .none bytes) 0 where
  length _ _ := by simp [Places.none]
  has_iff p _ front back _ := by
    constructor
    · intro h
      exact absurd h Places.not_has_none
    · rintro ⟨before, mid, -, -, hMid⟩
      exact absurd hMid (Language.notMem_zero mid)

/-- One step after another carries the concatenation. -/
theorem comp (hf : Carries bytes f L) (hg : Carries bytes g M) :
    Carries bytes (fun p => g (f p)) (L * M) where
  length p h := hg.length _ (hf.length p h)
  has_iff p h front back hBytes := by
    rw [hg.has_iff _ (hf.length p h) front back hBytes]
    constructor
    · rintro ⟨before, late, rfl, hHas, hLate⟩
      rw [List.append_assoc] at hBytes
      obtain ⟨first, early, rfl, hFirst, hEarly⟩ := (hf.has_iff p h before _ hBytes).mp hHas
      exact ⟨first, early ++ late, List.append_assoc .., hFirst, Language.append_mem_mul hEarly hLate⟩
    · rintro ⟨first, mid, rfl, hFirst, hMid⟩
      obtain ⟨early, hEarly, late, hLate, rfl⟩ := Language.mem_mul.mp hMid
      refine ⟨first ++ early, late, (List.append_assoc ..).symm, ?_, hLate⟩
      refine (hf.has_iff p h (first ++ early) (late ++ back) ?_).mpr ⟨first, early, rfl, hFirst, hEarly⟩
      simpa using hBytes

/-- Two steps from the same places carry the union. -/
theorem union (hf : Carries bytes f L) (hg : Carries bytes g M) :
    Carries bytes (fun p => (f p).union (g p)) (L + M) where
  length p h := by simp [Places.union, hf.length p h, hg.length p h]
  has_iff p h front back hBytes := by
    rw [Places.has_union ((hf.length p h).trans (hg.length p h).symm),
      hf.has_iff p h front back hBytes, hg.has_iff p h front back hBytes]
    constructor
    · rintro (⟨before, mid, hSplit, hHas, hMid⟩ | ⟨before, mid, hSplit, hHas, hMid⟩)
      · exact ⟨before, mid, hSplit, hHas, .inl hMid⟩
      · exact ⟨before, mid, hSplit, hHas, .inr hMid⟩
    · rintro ⟨before, mid, hSplit, hHas, hMid | hMid⟩
      · exact .inl ⟨before, mid, hSplit, hHas, hMid⟩
      · exact .inr ⟨before, mid, hSplit, hHas, hMid⟩

theorem advance (kind : UInt8 → Bool) : Carries bytes (·.advance kind bytes) (oneOf kind) where
  length p h := by simp [Places.advance, h]
  has_iff p h front back hBytes := by
    rw [hBytes, Places.has_advance]
    constructor
    · rintro ⟨before, b, hSplit, hHas, hKind⟩
      exact ⟨before, [b], hSplit, hHas, b, rfl, hKind⟩
    · rintro ⟨before, mid, hSplit, hHas, b, rfl, hKind⟩
      exact ⟨before, b, hSplit, hHas, hKind⟩

theorem spread (kind : UInt8 → Bool) : Carries bytes (·.spread kind bytes) (manyOf kind) where
  length p h := Places.length_spreadFrom h
  has_iff p h front back hBytes := by
    subst hBytes
    refine (Places.has_spreadFrom h).trans ?_
    simp only [Bool.false_eq_true, false_and, false_or]
    rfl

/-- The bytes of a character are passed one by one. -/
theorem literal (spelling : List UInt8) :
    Carries bytes (fun p => spelling.foldl (fun p b => p.advance (· == b) bytes) p)
      (exactly spelling) := by
  induction spelling with
  | nil => exact stay
  | cons b spelling ih =>
      have hByte : Carries bytes (·.advance (· == b) bytes) (oneOf (· == b)) := advance _
      have hAll := hByte.comp ih
      have hLanguage : oneOf (· == b) * exactly spelling = exactly (b :: spelling) := by
        ext w
        rw [Language.mem_mul]
        constructor
        · rintro ⟨one, ⟨c, rfl, hSame⟩, more, rfl, rfl⟩
          rw [beq_iff_eq.mp hSame]
          rfl
        · rintro rfl
          exact ⟨[b], ⟨b, rfl, beq_self_eq_true b⟩, spelling, rfl, rfl⟩
      rw [hLanguage] at hAll
      exact hAll

/-- Any directories, each with the separator behind it, or none. -/
theorem directories : Carries bytes
    (fun p => p.union ((p.spread (fun _ => true) bytes).advance isSeparator bytes))
    (1 + manyOf (fun _ => true) * oneOf isSeparator) :=
  stay.union ((spread _).comp (advance _))

end Carries

/-! ### Matching decides the language -/

mutual

theorem Token.carries (bytes : List UInt8) : (t : Token) → Carries bytes (t.reach bytes) t.language
  | .literal c => by
      rw [Token.language]
      simpa only [Token.reach] using Carries.literal (String.utf8EncodeChar c)
  | .anyByte => by
      rw [Token.language]
      simpa only [Token.reach] using Carries.advance _
  | .anyRun => by
      rw [Token.language]
      simpa only [Token.reach] using Carries.spread _
  | .leadingDirs => by
      rw [Token.language]
      simpa only [Token.reach] using Carries.directories
  | .trailingPath => by
      rw [Token.language]
      simpa only [Token.reach] using (Carries.advance _).comp (Carries.spread _)
  | .innerDirs => by
      rw [Token.language]
      simpa only [Token.reach] using (Carries.advance _).comp Carries.directories
  | .charClass negated ranges => by
      rw [Token.language]
      simpa only [Token.reach] using Carries.advance _
  | .alternatives branches => by
      rw [Token.language]
      by_cases hVacuous : allVacuous branches = true
      · rw [if_pos hVacuous]
        simpa only [Token.reach, if_pos hVacuous] using Carries.stay
      · rw [if_neg hVacuous]
        simpa only [Token.reach, if_neg hVacuous] using carries_reachAny bytes branches

/-- The places behind some tokens are reached by the texts of their language. -/
theorem carries_reachAll (bytes : List UInt8) :
    (tokens : List Token) → Carries bytes (reachAll bytes tokens) (languageAll tokens)
  | [] => by
      rw [languageAll]
      simpa only [reachAll] using Carries.stay
  | t :: tokens => by
      rw [languageAll]
      simpa only [reachAll] using (t.carries bytes).comp (carries_reachAll bytes tokens)

theorem carries_reachAny (bytes : List UInt8) :
    (branches : List (List Token)) → Carries bytes (reachAny bytes branches) (languageAny branches)
  | [] => by
      rw [languageAny]
      simpa only [reachAny] using Carries.fail
  | branch :: branches => by
      rw [languageAny]
      by_cases hVacuous : isVacuous branch = true
      · rw [if_pos hVacuous]
        simpa only [reachAny, if_pos hVacuous] using carries_reachAny bytes branches
      · rw [if_neg hVacuous]
        simpa only [reachAny, if_neg hVacuous] using
          (carries_reachAll bytes branch).union (carries_reachAny bytes branches)

end

/-- A path matches if its bytes are of the language, or if the pattern is the one that matches
every path. -/
theorem matchesBytes_iff {tokens : List Token} {bytes : List UInt8} :
    matchesBytes tokens bytes = true ↔ isUniversal tokens = true ∨ bytes ∈ languageAll tokens := by
  have hStart : (Places.start bytes).length = bytes.length + 1 := by simp [Places.start]
  have hCarries := carries_reachAll bytes tokens
  rw [matchesBytes, Bool.or_eq_true, Places.reachesEnd_iff (hCarries.length _ hStart),
    hCarries.has_iff _ hStart bytes [] (List.append_nil bytes).symm]
  refine or_congr_right ⟨?_, fun hMember => ?_⟩
  · rintro ⟨before, mid, hSplit, hHas, hMember⟩
    obtain rfl := List.eq_nil_of_length_eq_zero (Places.has_start.mp hHas)
    rw [hSplit]
    exact hMember
  · exact ⟨[], bytes, rfl, Places.has_start.mpr rfl, hMember⟩

end LintRepair.Glob
