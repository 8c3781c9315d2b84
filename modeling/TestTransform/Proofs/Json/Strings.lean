/-
A written string is read back letter by letter.

Every character is written as itself or as an escape, and what follows does not matter for
how it is read.  So the closing quote is found where it was put, and two texts that are
written alike are alike.
-/
import TestTransform.Json.Form
import TestTransform.Json.Printer

namespace TestTransform
namespace Json

open Form

/-- How a character is found in a written string: controls without a short escape by their
number, all others as they are. -/
def letterOf (c : Char) : Letter :=
  if c.toNat < 32 && !(c == '\n' || c == '\r' || c == '\t' || c.toNat == 8 || c.toNat == 12) then
    .unit c.toNat
  else .char c

theorem hex4?_control : ∀ n, n < 32 →
    hex4? '0' '0' (Nat.digitChar (n / 16)) (Nat.digitChar (n % 16)) = some n := by
  decide

theorem string?_escape (c : Char) (rest : Text) :
    string? (escape c ++ rest) = (string? rest).map fun r => (letterOf c :: r.1, r.2) := by
  have hmap : ∀ l, ((string? rest).bind fun r => some (l :: r.1, r.2)) =
      (string? rest).map fun r => (l :: r.1, r.2) := by
    intro l
    cases string? rest <;> rfl
  by_cases hquote : c = '"'
  · subst hquote
    exact hmap (.char '"')
  by_cases hslash : c = '\\'
  · subst hslash
    exact hmap (.char '\\')
  by_cases hn : c = '\n'
  · subst hn
    exact hmap (.char '\n')
  by_cases hr : c = '\r'
  · subst hr
    exact hmap (.char '\r')
  by_cases ht : c = '\t'
  · subst ht
    exact hmap (.char '\t')
  by_cases hb : c.toNat = 8
  · have hc : c = Char.ofNat 8 := by rw [← hb, Char.ofNat_toNat]
    subst hc
    exact hmap (.char (Char.ofNat 8))
  by_cases hf : c.toNat = 12
  · have hc : c = Char.ofNat 12 := by rw [← hf, Char.ofNat_toNat]
    subst hc
    exact hmap (.char (Char.ofNat 12))
  by_cases hctl : c.toNat < 32
  · have hescape : escape c =
        ['\\', 'u', '0', '0', Nat.digitChar (c.toNat / 16), Nat.digitChar (c.toNat % 16)] := by
      simp [escape, hquote, hslash, hn, hr, ht, hb, hf, hctl]
    have hletter : letterOf c = .unit c.toNat := by
      simp [letterOf, hctl, hn, hr, ht, hb, hf]
    rw [hescape, hletter, ← hmap]
    simp only [List.cons_append, List.nil_append, string?, hex4?_control c.toNat hctl]
    rfl
  · have hescape : escape c = [c] := by
      simp [escape, hquote, hslash, hn, hr, ht, hb, hf, hctl]
    have hletter : letterOf c = .char c := by simp [letterOf, hctl]
    have hplain : (decide (c.toNat < 32) || c == '\\') = false := by simp [hctl, hslash]
    rw [hescape, hletter, ← hmap, List.singleton_append, string?.eq_5 c rest
      (fun h => hquote h) (fun _ _ _ _ _ h _ => hslash h) (fun _ _ h _ => hslash h), hplain]
    rfl

/-- A string is read up to the quote that closes it. -/
theorem string?_flatMap_escape (t rest : Text) :
    string? (t.flatMap escape ++ '"' :: rest) = some (t.map letterOf, rest) := by
  induction t with
  | nil => rfl
  | cons c t ih =>
    rw [List.flatMap_cons, List.append_assoc, string?_escape, ih]
    rfl

theorem text?_map_letterOf (t : Text) : text? (t.map letterOf) = some t := by
  induction t with
  | nil => rfl
  | cons c t ih =>
    rw [List.map_cons]
    by_cases h : letterOf c = .char c
    · rw [h, text?, ih]
      rfl
    · have hunit : letterOf c = .unit c.toNat ∧ c.toNat < 32 := by
        rw [letterOf] at h ⊢
        split at h
        · rename_i hc
          rw [if_pos hc]
          rw [Bool.and_eq_true, decide_eq_true_eq] at hc
          exact ⟨rfl, hc.1⟩
        · exact absurd rfl h
      have hlow : (decide (c.toNat < 0xD800) || decide (0xDFFF < c.toNat)) = true := by
        simp only [Bool.or_eq_true, decide_eq_true_eq]
        omega
      rw [hunit.1, text?.eq_def]
      dsimp only
      rw [if_pos hlow, ih, Char.ofNat_toNat]
      rfl

/-- What is written between quotes can be read in one way only. -/
theorem quoted_append_inj {s t r r' : Text} (h : quoted s ++ r = quoted t ++ r') :
    s = t ∧ r = r' := by
  simp only [quoted, List.cons_append, List.append_assoc, List.cons.injEq, true_and] at h
  have hs := string?_flatMap_escape s r
  rw [List.nil_append] at h
  rw [h, string?_flatMap_escape] at hs
  simp only [Option.some.injEq, Prod.mk.injEq] at hs
  refine ⟨?_, hs.2.symm⟩
  have ht := text?_map_letterOf s
  rw [← hs.1, text?_map_letterOf] at ht
  exact (Option.some.inj ht).symm

end Json
end TestTransform
