import LintRepair.Proofs.Json.Reading
import LintRepair.Proofs.Steps

/-! What the reader of strings accepts, said once: a quoted text goes on character by character, each
as it is or behind a backslash, up to its closing quote. A string that can be read can be skipped. -/

namespace LintRepair.Json

/-- After its opening quote a text goes on with these characters and a closing quote,
and behind that comes the rest. -/
inductive Quoted : List Char → List Char → List Char → Prop where
  | close {rest : List Char} : Quoted ('"' :: rest) [] rest
  | plain {c : Char} {s cs rest : List Char} (isPlain : IsPlain c) (quoted : Quoted s cs rest) :
      Quoted (c :: s) (c :: cs) rest
  | short {e c : Char} {s cs rest : List Char} (escape : shortEscape e = some c)
      (quoted : Quoted s cs rest) : Quoted ('\\' :: e :: s) (c :: cs) rest
  | quad {a b c d : Char} {n : Nat} {s cs rest : List Char} (digits : hexQuad a b c d = some n)
      (notTrailing : isTrailing n = false) (notLeading : isLeading n = false)
      (quoted : Quoted s cs rest) :
      Quoted ('\\' :: 'u' :: a :: b :: c :: d :: s) (Char.ofNat n :: cs) rest
  | pair {a b c d a' b' c' d' : Char} {n m : Nat} {s cs rest : List Char}
      (digits : hexQuad a b c d = some n) (notTrailing : isTrailing n = false)
      (leading : isLeading n = true) (more : hexQuad a' b' c' d' = some m)
      (trailing : isTrailing m = true) (quoted : Quoted s cs rest) :
      Quoted ('\\' :: 'u' :: a :: b :: c :: d :: '\\' :: 'u' :: a' :: b' :: c' :: d' :: s)
        (Char.ofNat (pairValue n m) :: cs) rest

theorem stringBody_quoted {s cs rest : List Char} (h : stringBody .read s = .ok (cs, rest)) :
    Quoted s cs rest := by
  fun_induction stringBody .read s generalizing cs rest
  case case2 =>
      cases h
      exact .close
  case case10 hDigits _ hNotTrailing hLeading _ _ _ _ _ _ hMore hTrailing _ ih =>
      obtain ⟨⟨more, after⟩, hRest, hChars⟩ := map_eq_ok h
      cases hChars
      exact .pair hDigits (Bool.eq_false_iff.mpr hNotTrailing) hLeading hMore hTrailing (ih hRest)
  case case15 hDigits _ hNotTrailing hNotLeading _ ih =>
      obtain ⟨⟨more, after⟩, hRest, hChars⟩ := map_eq_ok h
      cases hChars
      exact .quad hDigits (Bool.eq_false_iff.mpr hNotTrailing) (Bool.eq_false_iff.mpr hNotLeading)
        (ih hRest)
  case case17 hEscape _ ih =>
      obtain ⟨⟨more, after⟩, hRest, hChars⟩ := map_eq_ok h
      cases hChars
      exact .short hEscape (ih hRest)
  case case21 hQuote hBackslash hPrint ih =>
      obtain ⟨⟨more, after⟩, hRest, hChars⟩ := map_eq_ok h
      cases hChars
      exact .plain ⟨hQuote, hBackslash, Nat.not_lt.mp hPrint⟩ (ih hRest)
  case case5 hSkip _ _ => cases hSkip
  all_goals cases h

/-- The closing quote at least is consumed. -/
theorem Quoted.length_lt {s cs rest : List Char} (h : Quoted s cs rest) : rest.length < s.length := by
  induction h with
  | close => exact Nat.lt_succ_self _
  | plain _ _ ih => exact Nat.lt_succ_of_lt ih
  | short _ _ ih =>
      simp only [List.length_cons]
      omega
  | quad _ _ _ _ ih =>
      simp only [List.length_cons]
      omega
  | pair _ _ _ _ _ _ ih =>
      simp only [List.length_cons]
      omega

/-- An escape of four digits is skipped whatever code unit it writes. -/
theorem stringBody_skip_quad {a b c d : Char} {n : Nat} (h : hexQuad a b c d = some n)
    {s cs rest : List Char} (hRest : stringBody .skip s = .ok (cs, rest)) :
    ∃ ds, stringBody .skip ('\\' :: 'u' :: a :: b :: c :: d :: s) = .ok (ds, rest) := by
  rw [stringBody.eq_def]
  simp [h, hRest, Except.map]

/-- A string that can be read can be skipped. -/
theorem Quoted.skipped {s cs rest : List Char} (h : Quoted s cs rest) :
    ∃ ds, stringBody .skip s = .ok (ds, rest) := by
  induction h with
  | close => exact ⟨[], stringBody_quote .skip _⟩
  | plain isPlain _ ih =>
      obtain ⟨ds, hRest⟩ := ih
      exact ⟨_, by rw [stringBody_of_isPlain isPlain, hRest]; rfl⟩
  | short escape _ ih =>
      obtain ⟨ds, hRest⟩ := ih
      exact ⟨_, by rw [stringBody_short escape, hRest]; rfl⟩
  | quad digits _ _ _ ih =>
      obtain ⟨ds, hRest⟩ := ih
      exact stringBody_skip_quad digits hRest
  | pair digits _ _ more _ _ ih =>
      obtain ⟨ds, hRest⟩ := ih
      obtain ⟨ds, hRest⟩ := stringBody_skip_quad more hRest
      exact stringBody_skip_quad digits hRest

end LintRepair.Json
