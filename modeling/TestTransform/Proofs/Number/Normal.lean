/-
The values of binary64 numbers, and the one way each of them is spelled.

A value has many spellings as a significand and an exponent.  Rounding gives the one with a
full significand, or the one with the lowest exponent where none is full, so numbers that
were rounded are equal as values only if they are equal as they are spelled.
-/
import Mathlib.Algebra.Order.Field.Power
import Mathlib.Algebra.Order.Field.Rat
import Mathlib.Data.Nat.Log
import Mathlib.Tactic.FieldSimp
import Mathlib.Tactic.Linarith
import Mathlib.Tactic.Ring
import TestTransform.Number.Binary64

namespace TestTransform
namespace Binary64

/-! ## Values -/

/-- A quotient of natural numbers as a rational number. -/
def ratio (q : Nat × Nat) : ℚ := q.1 / q.2

/-- The value of a number without its sign. -/
def magnitude (x : Binary64) : ℚ := x.significand * 2 ^ x.exponent

theorem zpow_of_neg {b : ℚ} {e : Int} (h : e < 0) : b ^ e = 1 / b ^ e.natAbs := by
  obtain ⟨n, rfl⟩ : ∃ n : Nat, e = -n := ⟨e.natAbs, by omega⟩
  simp

theorem zpow_of_nonneg {b : ℚ} {e : Int} (h : ¬e < 0) : b ^ e = b ^ e.natAbs := by
  obtain ⟨n, rfl⟩ : ∃ n : Nat, e = n := ⟨e.natAbs, by omega⟩
  simp

theorem ratio_pow10 (e : Int) : ratio (pow10 e) = 10 ^ e := by
  rw [pow10]
  split
  · rename_i h
    rw [zpow_of_neg h]
    simp [ratio]
  · rename_i h
    rw [zpow_of_nonneg h]
    simp [ratio]

theorem pow10_snd_pos (e : Int) : 0 < (pow10 e).2 := by
  rw [pow10]
  split
  · exact Nat.pow_pos (by omega)
  · omega

theorem pow10_fst_pos (e : Int) : 0 < (pow10 e).1 := by
  rw [pow10]
  split
  · omega
  · exact Nat.pow_pos (by omega)

theorem ratio_quotient (x : Binary64) : ratio x.quotient = x.magnitude := by
  rw [quotient, magnitude]
  split
  · rename_i h
    rw [zpow_of_neg h]
    simp [ratio]
    ring
  · rename_i h
    rw [zpow_of_nonneg h]
    simp [ratio]

theorem quotient_snd_pos (x : Binary64) : 0 < x.quotient.2 := by
  rw [quotient]
  split
  · exact Nat.pow_pos (by omega)
  · omega

theorem quotient_fst_pos {x : Binary64} (h : 0 < x.significand) : 0 < x.quotient.1 := by
  rw [quotient]
  split
  · exact h
  · exact Nat.mul_pos h (Nat.pow_pos (by omega))

/-- The whole part of a quotient divided by a power of two. -/
theorem scaled_floor (num : Nat) {den : Nat} (hden : den ≠ 0) (e : Int) :
    ((scaled num den e).1 : ℚ) * 2 ^ e ≤ num / den ∧
      (num / den : ℚ) < ((scaled num den e).1 + 1) * 2 ^ e := by
  have hfloor : ∀ n d : Nat, d ≠ 0 → ((n / d : Nat) : ℚ) ≤ n / d ∧
      (n / d : ℚ) < (n / d : Nat) + 1 := by
    intro n d hd
    have hd' : (0 : ℚ) < d := by exact_mod_cast Nat.pos_of_ne_zero hd
    rw [le_div_iff₀ hd', div_lt_iff₀ hd']
    constructor
    · exact_mod_cast Nat.div_mul_le_self n d
    · rw [mul_comm]
      exact_mod_cast Nat.lt_mul_div_succ n (Nat.pos_of_ne_zero hd)
  have hpow : (0 : ℚ) < 2 ^ e := zpow_pos (by norm_num) _
  have hden' : (den : ℚ) ≠ 0 := by exact_mod_cast hden
  rw [← le_div_iff₀ hpow, ← div_lt_iff₀ hpow]
  by_cases he : e < 0
  · have hvalue : (num / den : ℚ) / 2 ^ e = (num * Nat.pow 2 e.natAbs : Nat) / den := by
      rw [zpow_of_neg he]
      push_cast [Nat.pow_eq]
      field_simp
    simp only [scaled, he, if_true]
    rw [hvalue]
    exact hfloor _ _ hden
  · have hvalue : (num / den : ℚ) / 2 ^ e = num / (den * Nat.pow 2 e.natAbs : Nat) := by
      rw [zpow_of_nonneg he]
      push_cast [Nat.pow_eq]
      field_simp
    simp only [scaled, he, if_false]
    rw [hvalue]
    exact hfloor _ _ (Nat.mul_ne_zero hden (Nat.pow_pos (by omega)).ne')

/-! ## Spellings -/

/-- Whether a number is spelled with a full significand, or with the lowest exponent. -/
structure IsNormal (x : Binary64) : Prop where
  small : x.significand < 2 ^ 53
  low : -1074 ≤ x.exponent
  high : x.exponent ≤ 971
  full : 2 ^ 52 ≤ x.significand ∨ x.exponent = -1074

instance (x : Binary64) : Decidable x.IsNormal :=
  decidable_of_iff (x.significand < 2 ^ 53 ∧ -1074 ≤ x.exponent ∧ x.exponent ≤ 971 ∧
      (2 ^ 52 ≤ x.significand ∨ x.exponent = -1074))
    ⟨fun ⟨a, b, c, d⟩ => ⟨a, b, c, d⟩, fun h => ⟨h.1, h.2, h.3, h.4⟩⟩

theorem isNormal_zero : ∀ negative, (zero negative).IsNormal := by
  decide

theorem IsNormal.signed {x : Binary64} (h : x.IsNormal) (negative : Bool) :
    IsNormal { x with negative := negative } := ⟨h.small, h.low, h.high, h.full⟩

/-- The sizes of a numerator and a denominator give the size of their quotient, up to a
factor of four. -/
theorem between_powers {num den : Nat} (hnum : num ≠ 0) (hden : den ≠ 0) :
    (2 : ℚ) ^ ((Nat.log2 num : Int) - Nat.log2 den - 1) < num / den ∧
      (num / den : ℚ) < 2 ^ ((Nat.log2 num : Int) - Nat.log2 den + 1) := by
  have hpos : (0 : ℚ) < den := by exact_mod_cast Nat.pos_of_ne_zero hden
  have hn : (2 : ℚ) ^ Nat.log2 num ≤ num := by exact_mod_cast Nat.log2_self_le hnum
  have hn' : (num : ℚ) < 2 ^ (Nat.log2 num + 1) := by exact_mod_cast Nat.lt_log2_self
  have hd : (2 : ℚ) ^ Nat.log2 den ≤ den := by exact_mod_cast Nat.log2_self_le hden
  have hd' : (den : ℚ) < 2 ^ (Nat.log2 den + 1) := by exact_mod_cast Nat.lt_log2_self
  have hlow : (2 : ℚ) ^ ((Nat.log2 num : Int) - Nat.log2 den - 1) * 2 ^ (Nat.log2 den + 1) =
      2 ^ Nat.log2 num := by
    rw [← zpow_natCast, ← zpow_add₀ (by norm_num), ← zpow_natCast]
    congr 1
    push_cast
    ring
  have hhigh : (2 : ℚ) ^ ((Nat.log2 num : Int) - Nat.log2 den + 1) * 2 ^ Nat.log2 den =
      2 ^ (Nat.log2 num + 1) := by
    rw [← zpow_natCast, ← zpow_add₀ (by norm_num), ← zpow_natCast]
    congr 1
    push_cast
    ring
  constructor
  · rw [lt_div_iff₀ hpos]
    calc (2 : ℚ) ^ ((Nat.log2 num : Int) - Nat.log2 den - 1) * den
        < 2 ^ ((Nat.log2 num : Int) - Nat.log2 den - 1) * 2 ^ (Nat.log2 den + 1) :=
          mul_lt_mul_of_pos_left hd' (zpow_pos (by norm_num) _)
      _ = 2 ^ Nat.log2 num := hlow
      _ ≤ num := hn
  · rw [div_lt_iff₀ hpos]
    calc (num : ℚ) < 2 ^ (Nat.log2 num + 1) := hn'
      _ = 2 ^ ((Nat.log2 num : Int) - Nat.log2 den + 1) * 2 ^ Nat.log2 den := hhigh.symm
      _ ≤ 2 ^ ((Nat.log2 num : Int) - Nat.log2 den + 1) * den :=
          mul_le_mul_of_nonneg_left hd (zpow_pos (by norm_num) _).le

/-! ## Rounding -/

/-- The exponent that rounding tries first, which makes the significand full. -/
def fittedExponent (num den : Nat) : Int :=
  let guess : Int := (Nat.log2 num : Int) - Nat.log2 den - 52
  if (scaled num den guess).1 < Nat.pow 2 52 then guess - 1 else guess

section Rounding

variable {num den : Nat}

theorem fittedExponent_bounds (hnum : num ≠ 0) (hden : den ≠ 0) :
    (2 : ℚ) ^ (fittedExponent num den + 52) ≤ num / den ∧
      (num / den : ℚ) < 2 ^ (fittedExponent num den + 53) := by
  obtain ⟨hlow, hhigh⟩ := between_powers hnum hden
  rw [fittedExponent]
  generalize hg : (Nat.log2 num : Int) - Nat.log2 den - 52 = g
  rw [show (Nat.log2 num : Int) - Nat.log2 den - 1 = g + 51 by omega] at hlow
  rw [show (Nat.log2 num : Int) - Nat.log2 den + 1 = g + 53 by omega] at hhigh
  obtain ⟨hfloor, hfloor'⟩ := scaled_floor num hden g
  have hpow : (0 : ℚ) < 2 ^ g := zpow_pos (by norm_num) _
  have hsplit : (2 : ℚ) ^ (g + 52) = 2 ^ 52 * 2 ^ g := by
    rw [zpow_add₀ (by norm_num)]
    ring
  split
  · rename_i h
    have hq : ((scaled num den g).1 : ℚ) + 1 ≤ 2 ^ 52 := by exact_mod_cast h
    constructor
    · rw [show g - 1 + 52 = g + 51 by omega]
      exact hlow.le
    · rw [show g - 1 + 53 = g + 52 by omega, hsplit]
      exact hfloor'.trans_le (mul_le_mul_of_nonneg_right hq hpow.le)
  · rename_i h
    have hq : (2 : ℚ) ^ 52 ≤ (scaled num den g).1 := by exact_mod_cast Nat.le_of_not_lt h
    refine ⟨?_, hhigh⟩
    rw [hsplit]
    exact (mul_le_mul_of_nonneg_right hq hpow.le).trans hfloor

/-- The whole part at the exponent that is used fits, and is full above the lowest. -/
theorem scaled_bounds (hnum : num ≠ 0) (hden : den ≠ 0) :
    (scaled num den (max (fittedExponent num den) (-1074))).1 < 2 ^ 53 ∧
      (-1074 ≤ fittedExponent num den →
        2 ^ 52 ≤ (scaled num den (max (fittedExponent num den) (-1074))).1) := by
  obtain ⟨hlow, hhigh⟩ := fittedExponent_bounds hnum hden
  generalize fittedExponent num den = f at hlow hhigh
  obtain ⟨hfloor, hfloor'⟩ := scaled_floor num hden (max f (-1074))
  have hpow : (0 : ℚ) < 2 ^ max f (-1074) := zpow_pos (by norm_num) _
  constructor
  · have hle : (2 : ℚ) ^ (f + 53) ≤ 2 ^ 53 * 2 ^ max f (-1074) := by
      rw [zpow_add₀ (by norm_num), mul_comm]
      exact mul_le_mul_of_nonneg_left (zpow_le_zpow_right₀ (by norm_num) (le_max_left _ _))
        (by norm_num)
    have hlt := (hfloor.trans_lt hhigh).trans_le hle
    exact_mod_cast lt_of_mul_lt_mul_right hlt hpow.le
  · intro hf
    rw [max_eq_left hf] at hfloor' hpow ⊢
    rw [show (2 : ℚ) ^ (f + 52) = 2 ^ 52 * 2 ^ f by rw [zpow_add₀ (by norm_num)]; ring] at hlow
    have hq := lt_of_mul_lt_mul_right (hlow.trans_lt hfloor') hpow.le
    exact Nat.lt_succ_iff.mp (by exact_mod_cast hq)

/-- What rounding gives is spelled in the normal way, and is not zero unless the quotient is
below all full significands. -/
theorem round?_spec {negative : Bool} (hnum : num ≠ 0) (hden : den ≠ 0) {x : Binary64}
    (h : round? negative num den = some x) :
    x.IsNormal ∧ (-1074 ≤ fittedExponent num den → x.significand ≠ 0) := by
  obtain ⟨hsmall, hfull⟩ := scaled_bounds hnum hden
  have hfitted : (if (scaled num den ((Nat.log2 num : Int) - Nat.log2 den - 52)).1 <
      Nat.pow 2 52 then (Nat.log2 num : Int) - Nat.log2 den - 52 - 1
        else (Nat.log2 num : Int) - Nat.log2 den - 52) = fittedExponent num den := rfl
  rw [round?, if_neg hnum] at h
  simp only [hfitted] at h
  generalize fittedExponent num den = f at hsmall hfull h ⊢
  generalize scaled num den (max f (-1074)) = s at hsmall hfull h
  obtain ⟨q, r, d⟩ := s
  simp only [Nat.pow_eq] at hsmall hfull h
  -- Rounding up adds one, so a significand that is too large is exactly the power of two.
  generalize hq : (if (decide (2 * r > d) || 2 * r == d && q % 2 == 1) = true then q + 1
    else q) = q' at h
  have hle : q ≤ q' ∧ q' ≤ 2 ^ 53 := by
    split at hq <;> omega
  by_cases hover : q' = 2 ^ 53
  · simp only [hover, beq_self_eq_true, if_true] at h
    split at h
    · cases h
    · rw [← Option.some.inj h]
      refine ⟨?_, fun _ => by dsimp only; omega⟩
      constructor <;> dsimp only <;> omega
  · simp only [beq_eq_false_iff_ne.mpr hover, Bool.false_eq_true, if_false] at h
    split at h
    · cases h
    · split at h
      · rename_i hzero
        rw [← Option.some.inj h]
        refine ⟨isNormal_zero negative, fun hf => ?_⟩
        have hpos := hfull hf
        omega
      · rename_i hzero
        rw [← Option.some.inj h]
        refine ⟨?_, fun _ => hzero⟩
        constructor <;> dsimp only <;> omega

theorem round?_isNormal {negative : Bool} (hden : den ≠ 0) {x : Binary64}
    (h : round? negative num den = some x) : x.IsNormal := by
  by_cases hnum : num = 0
  · rw [round?, if_pos hnum] at h
    rw [← Option.some.inj h]
    exact isNormal_zero negative
  · exact (round?_spec hnum hden h).1

theorem isNormal_of_ofNat? {n : Nat} {x : Binary64} (h : ofNat? n = some x) : x.IsNormal :=
  round?_isNormal (by omega) h

theorem significand_of_ofNat? {n : Nat} (hn : n ≠ 0) {x : Binary64} (h : ofNat? n = some x) :
    x.significand ≠ 0 := by
  apply (round?_spec hn (by omega) h).2
  rw [fittedExponent, show Nat.log2 1 = 0 by decide]
  split <;> omega

theorem isNormal_of_mul? {x y z : Binary64} (h : mul? x y = some z) : z.IsNormal := by
  have hx := quotient_snd_pos x
  have hy := quotient_snd_pos y
  exact round?_isNormal (Nat.mul_pos hx hy).ne' h

theorem isNormal_of_div? {x y z : Binary64} (hy : y.significand ≠ 0) (h : div? x y = some z) :
    z.IsNormal := by
  have hx := quotient_snd_pos x
  have hy' := quotient_fst_pos (Nat.pos_of_ne_zero hy)
  exact round?_isNormal (Nat.mul_pos hx hy').ne' h

end Rounding

end Binary64
end TestTransform
