/-
The decimal that a number is written as belongs to this number only.

The intervals of reals that round to different numbers have no point in common: where two
of them meet, one of the two significands is odd, so one leaves its end point out.  The
digits that are written lie in the interval of their number, and seventeen of them always
suffice.
-/
import TestTransform.Number.Shortest
import TestTransform.Proofs.Number.Normal

namespace TestTransform
namespace Shortest

open Binary64 (ratio magnitude IsNormal)

/-! ## Intervals -/

theorem below_iff {strict : Bool} {a b c d : Nat} (hb : 0 < b) (hd : 0 < d) :
    below strict a b c d = true ↔
      ratio (a, b) ≤ ratio (c, d) ∧ (strict = true → ratio (a, b) < ratio (c, d)) := by
  have hb' : (0 : ℚ) < b := by exact_mod_cast hb
  have hd' : (0 : ℚ) < d := by exact_mod_cast hd
  rw [ratio, ratio, div_le_div_iff₀ hb' hd', div_lt_div_iff₀ hb' hd']
  rw [below]
  cases strict with
  | false =>
    simp only [Bool.false_eq_true, if_false, decide_eq_true_eq, false_implies, and_true]
    exact_mod_cast Iff.rfl
  | true =>
    simp only [if_true, decide_eq_true_eq, true_implies]
    constructor
    · intro h
      have hlt : (a * d : ℚ) < c * b := by exact_mod_cast h
      exact ⟨hlt.le, hlt⟩
    · intro h
      exact_mod_cast h.2

/-- The lower end of the interval of a number, in quarters of its last place. -/
def lowerEnd (x : Binary64) : Nat :=
  if x.significand = 2 ^ 52 ∧ x.exponent > -1074 then 4 * x.significand - 1
  else 4 * x.significand - 2

/-- Whether a rational number lies in the interval of those that round to `x`. -/
structure Covers (x : Binary64) (q : ℚ) : Prop where
  low : lowerEnd x * 2 ^ (x.exponent - 2) ≤ q
  high : q ≤ (4 * x.significand + 2) * 2 ^ (x.exponent - 2)
  low_odd : x.significand % 2 = 1 → lowerEnd x * 2 ^ (x.exponent - 2) < q
  high_odd : x.significand % 2 = 1 → q < (4 * x.significand + 2) * 2 ^ (x.exponent - 2)

section Disjoint

variable {x y : Binary64} {q : ℚ}

theorem le_lowerEnd (x : Binary64) : 4 * x.significand - 2 ≤ lowerEnd x := by
  rw [lowerEnd]
  split <;> omega

/-- What lies in the interval of a number is below the intervals of greater ones with the
same exponent. -/
theorem Covers.significand_le (hx : Covers x q) (hy : Covers y q) (he : x.exponent = y.exponent) :
    y.significand ≤ x.significand := by
  by_contra hlt
  have hstep : 4 * x.significand + 2 ≤ lowerEnd y := (by omega : _ ≤ 4 * y.significand - 2).trans
    (le_lowerEnd y)
  have hpow : (0 : ℚ) < 2 ^ (x.exponent - 2) := zpow_pos (by norm_num) _
  have hends : ((4 * x.significand + 2 : Nat) : ℚ) * 2 ^ (x.exponent - 2) ≤
      lowerEnd y * 2 ^ (x.exponent - 2) :=
    mul_le_mul_of_nonneg_right (by exact_mod_cast hstep) hpow.le
  push_cast at hends
  have hlow := hy.low
  have hlowOdd := hy.low_odd
  rw [← he] at hlow hlowOdd
  by_cases hodd : x.significand % 2 = 1
  · exact absurd (hends.trans hlow) (not_le.mpr (hx.high_odd hodd))
  · by_cases hodd' : y.significand % 2 = 1
    · exact absurd (hx.high.trans hends) (not_le.mpr (hlowOdd hodd'))
    · -- Both are even, so they are two apart and the intervals do not meet.
      have hgap : 4 * x.significand + 2 < lowerEnd y :=
        (by omega : _ < 4 * y.significand - 2).trans_le (le_lowerEnd y)
      have hends' : ((4 * x.significand + 2 : Nat) : ℚ) * 2 ^ (x.exponent - 2) <
          lowerEnd y * 2 ^ (x.exponent - 2) :=
        mul_lt_mul_of_pos_right (by exact_mod_cast hgap) hpow
      push_cast at hends'
      linarith [hx.high]

/-- What lies in the interval of a number is below the intervals of those with a greater
exponent. -/
theorem Covers.exponent_le (hx : Covers x q) (hy : Covers y q) (hnx : x.IsNormal)
    (hny : y.IsNormal) : y.exponent ≤ x.exponent := by
  by_contra hlt
  have hlow := hnx.low
  have hfull : 2 ^ 52 ≤ y.significand := hny.full.resolve_right (by omega)
  have hlower : 2 ^ 54 - 1 ≤ lowerEnd y := by
    rw [lowerEnd]
    split <;> omega
  have hpow : (0 : ℚ) < 2 ^ (x.exponent - 2) := zpow_pos (by norm_num) _
  have hdouble : (2 : ℚ) * 2 ^ (x.exponent - 2) ≤ 2 ^ (y.exponent - 2) := by
    rw [← zpow_one_add₀ (by norm_num)]
    exact zpow_le_zpow_right₀ (by norm_num) (by omega)
  have hends : ((2 ^ 55 - 2 : Nat) : ℚ) * 2 ^ (x.exponent - 2) ≤ q :=
    calc ((2 ^ 55 - 2 : Nat) : ℚ) * 2 ^ (x.exponent - 2)
        = ((2 ^ 54 - 1 : Nat) : ℚ) * (2 * 2 ^ (x.exponent - 2)) := by
          push_cast
          ring
      _ ≤ lowerEnd y * 2 ^ (y.exponent - 2) :=
          mul_le_mul (by exact_mod_cast hlower) hdouble (by positivity) (by positivity)
      _ ≤ q := hy.low
  have hsmall := hnx.small
  by_cases htop : x.significand = 2 ^ 53 - 1
  · have hhigh := hx.high_odd (by omega)
    rw [htop] at hhigh
    norm_num at hends hhigh
    linarith
  · have hbelow : ((4 * x.significand + 2 : Nat) : ℚ) * 2 ^ (x.exponent - 2) <
        ((2 ^ 55 - 2 : Nat) : ℚ) * 2 ^ (x.exponent - 2) :=
      mul_lt_mul_of_pos_right (by exact_mod_cast (by omega)) hpow
    have hhigh := hx.high
    push_cast at hbelow hends
    linarith

/-- No number lies in the intervals of two numbers. -/
theorem eq_of_covers (hnx : x.IsNormal) (hny : y.IsNormal) (hx : Covers x q) (hy : Covers y q) :
    x.significand = y.significand ∧ x.exponent = y.exponent := by
  have he : x.exponent = y.exponent :=
    Int.le_antisymm (hy.exponent_le hx hny hnx) (hx.exponent_le hy hnx hny)
  exact ⟨Nat.le_antisymm (hy.significand_le hx he.symm) (hx.significand_le hy he), he⟩

/-- The interval of a number that is not zero has positive numbers only. -/
theorem Covers.pos (hx : Covers x q) (hpos : x.significand ≠ 0) : 0 < q := by
  have hlower : 0 < lowerEnd x := lt_of_lt_of_le (by omega) (le_lowerEnd x)
  have hlower' : (0 : ℚ) < lowerEnd x := by exact_mod_cast hlower
  exact (mul_pos hlower' (zpow_pos (by norm_num) _)).trans_le hx.low

end Disjoint

/-! ## The size of a quotient in decimal -/

/-- A search downwards ends where it finds something, or after all its steps. -/
theorem foldl_descend (p : Int → Bool) (top : Int) (n : Nat) :
    let e := (List.range n).foldl (fun e _ => if p e then e else e - 1) top
    p e = true ∨ e = top - n := by
  induction n with
  | zero => exact .inr (by simp)
  | succ n ih =>
    simp only [List.range_succ, List.foldl_append, List.foldl_cons, List.foldl_nil]
    rcases ih with h | h
    · rw [if_pos h]
      exact .inl h
    · split
      · exact .inl ‹_›
      · refine .inr ?_
        rw [h]
        omega

/-- If `a / b` is not below the logarithm of two, and hardly above it, it turns exponents of
two into exponents of ten that are not too large, as long as the exponents are not huge. -/
theorem ten_zpow_le {a b : Nat} (hb : b ≠ 0) (hlow : 2 ^ b ≤ 10 ^ a) (hhigh : 10 ^ a ≤ 2 ^ (b + 1))
    {g l : Int} (hg : g * b ≤ l * a) (hl : l ≤ b) : (10 : ℚ) ^ g ≤ 2 ^ (l + 1) := by
  have hlow' : (2 : ℚ) ^ b ≤ 10 ^ a := by exact_mod_cast hlow
  have hhigh' : (10 : ℚ) ^ a ≤ 2 ^ (b + 1) := by exact_mod_cast hhigh
  have hpower : (10 : ℚ) ^ (l * a) ≤ 2 ^ ((l + 1) * b) := by
    by_cases hneg : l < 0
    · obtain ⟨n, rfl⟩ : ∃ n : Nat, l = -n := ⟨l.natAbs, by omega⟩
      have hle := pow_le_pow_left₀ (by positivity) hlow' n
      calc (10 : ℚ) ^ (-(n : Int) * a) = ((10 ^ a) ^ n)⁻¹ := by
            rw [← pow_mul, ← zpow_natCast, ← zpow_neg]
            congr 1
            push_cast
            ring
        _ ≤ ((2 ^ b) ^ n)⁻¹ := inv_anti₀ (by positivity) hle
        _ = 2 ^ (-(n : Int) * b) := by
            rw [← pow_mul, ← zpow_natCast, ← zpow_neg]
            congr 1
            push_cast
            ring
        _ ≤ 2 ^ ((-(n : Int) + 1) * b) := zpow_le_zpow_right₀ (by norm_num) (by nlinarith)
    · obtain ⟨n, rfl⟩ : ∃ n : Nat, l = n := ⟨l.natAbs, by omega⟩
      have hle := pow_le_pow_left₀ (by positivity) hhigh' n
      calc (10 : ℚ) ^ ((n : Int) * a) = (10 ^ a) ^ n := by
            rw [← pow_mul, ← zpow_natCast]
            congr 1
            push_cast
            ring
        _ ≤ (2 ^ (b + 1)) ^ n := hle
        _ = 2 ^ ((n : Int) * b + n) := by
            rw [← pow_mul, ← zpow_natCast]
            congr 1
            push_cast
            ring
        _ ≤ 2 ^ (((n : Int) + 1) * b) := zpow_le_zpow_right₀ (by norm_num) (by linarith)
  have hroot : ((10 : ℚ) ^ g) ^ b ≤ (2 ^ (l + 1)) ^ b :=
    calc ((10 : ℚ) ^ g) ^ b = 10 ^ (g * b) := by rw [← zpow_natCast, ← zpow_mul]
      _ ≤ 10 ^ (l * a) := zpow_le_zpow_right₀ (by norm_num) hg
      _ ≤ 2 ^ ((l + 1) * b) := hpower
      _ = (2 ^ (l + 1)) ^ b := by rw [← zpow_natCast, ← zpow_mul]
  exact (pow_le_pow_iff_left₀ (zpow_pos (by norm_num) _).le (zpow_pos (by norm_num) _).le
    hb).mp hroot

theorem two_pow_le_ten_pow : 2 ^ 100000 ≤ 10 ^ 30103 := by
  decide +kernel

theorem ten_pow_le_two_pow : 10 ^ 30103 ≤ 2 ^ (100000 + 1) := by
  decide +kernel

/-- The decimal exponent is not too large. -/
theorem ten_decimalExponent_le {num den : Nat} (hnum : num ≠ 0) (hden : den ≠ 0)
    (hsize : (Nat.log2 num : Int) - Nat.log2 den ≤ 100000) :
    (10 : ℚ) ^ decimalExponent num den ≤ num / den := by
  have hsearch := foldl_descend
    (fun e => below false (Binary64.pow10 e).1 (Binary64.pow10 e).2 num den)
    ((((Nat.log2 num : Int) - Nat.log2 den) * 30103).fdiv 100000 + 2) 5
  have hdef : decimalExponent num den = (List.range 5).foldl
      (fun e _ => if below false (Binary64.pow10 e).1 (Binary64.pow10 e).2 num den then e
        else e - 1)
      ((((Nat.log2 num : Int) - Nat.log2 den) * 30103).fdiv 100000 + 2) := rfl
  dsimp only at hsearch
  rw [← hdef] at hsearch
  rcases hsearch with h | h
  · have hle := (below_iff (Binary64.pow10_snd_pos _) (Nat.pos_of_ne_zero hden)).mp h
    have hvalue := hle.1
    rwa [Prod.mk.eta, Binary64.ratio_pow10] at hvalue
  · obtain ⟨hlow, -⟩ := Binary64.between_powers hnum hden
    generalize (Nat.log2 num : Int) - Nat.log2 den = l at *
    have hg : (l * 30103).fdiv 100000 * 100000 ≤ l * 30103 := by
      rw [Int.fdiv_eq_ediv_of_nonneg _ (by norm_num)]
      omega
    have hpow := ten_zpow_le (by omega) two_pow_le_ten_pow ten_pow_le_two_pow hg hsize
    rw [h, show (l * 30103).fdiv 100000 + 2 - (5 : Nat) = (l * 30103).fdiv 100000 + -3 by omega,
      zpow_add₀ (by norm_num)]
    have hfour : (2 : ℚ) ^ (l + 1) = 4 * 2 ^ (l - 1) := by
      rw [show l + 1 = 2 + (l - 1) by ring, zpow_add₀ (by norm_num)]
      norm_num
    have hpos : (0 : ℚ) < 2 ^ (l - 1) := zpow_pos (by norm_num) _
    rw [hfour] at hpow
    norm_num
    linarith

/-! ## The digits -/

section Digits

variable {x : Binary64}

theorem quarter_magnitude (x : Binary64) (n : Nat) :
    ratio ((Binary64.quotient { x with significand := n }).1,
      4 * (Binary64.quotient { x with significand := n }).2) = n * 2 ^ (x.exponent - 2) := by
  have hvalue := Binary64.ratio_quotient { x with significand := n }
  rw [ratio, magnitude] at hvalue
  rw [zpow_sub₀ (by norm_num), ← mul_div_assoc, ← hvalue, ratio]
  push_cast
  ring

/-- The test for the interval of a number. -/
def inside (x : Binary64) (c : Nat) (k : Int) : Bool :=
  below (interval x).2.2 (interval x).1.1 (interval x).1.2 (c * (Binary64.pow10 k).1)
      (Binary64.pow10 k).2 &&
    below (interval x).2.2 (c * (Binary64.pow10 k).1) (Binary64.pow10 k).2
      (interval x).2.1.1 (interval x).2.1.2

theorem inside_iff (x : Binary64) (c : Nat) (k : Int) :
    inside x c k = true ↔ Covers x (c * 10 ^ k) := by
  have hlower : (if (x.significand == Nat.pow 2 52 && decide (x.exponent > -1074)) = true
      then 4 * x.significand - 1 else 4 * x.significand - 2) = lowerEnd x := by
    simp only [lowerEnd, Bool.and_eq_true, beq_iff_eq, decide_eq_true_eq, Nat.pow_eq]
  have hvalue : ratio (c * (Binary64.pow10 k).1, (Binary64.pow10 k).2) = c * 10 ^ k := by
    rw [← Binary64.ratio_pow10, ratio, ratio]
    push_cast
    ring
  have hquarter : ∀ n, 0 < 4 * (Binary64.quotient { x with significand := n }).2 := fun n =>
    Nat.mul_pos (by omega) (Binary64.quotient_snd_pos _)
  have hhigh : ((4 * x.significand + 2 : Nat) : ℚ) = 4 * x.significand + 2 := by
    push_cast
    ring
  rw [inside, Bool.and_eq_true]
  simp only [interval]
  rw [hlower, below_iff (hquarter _) (Binary64.pow10_snd_pos k),
    below_iff (Binary64.pow10_snd_pos k) (hquarter _), hvalue, quarter_magnitude,
    quarter_magnitude, hhigh]
  simp only [beq_iff_eq]
  constructor
  · rintro ⟨⟨h₁, h₂⟩, h₃, h₄⟩
    exact ⟨h₁, h₃, h₂, h₄⟩
  · rintro ⟨h₁, h₂, h₃, h₄⟩
    exact ⟨⟨h₁, h₃⟩, h₂, h₄⟩

/-- Whether the multiple of `b` above `a` is preferred to the one below. -/
def prefersUp (a b : Nat) : Bool := 2 * (a % b) > b || (2 * (a % b) == b && a / b % 2 == 1)

theorem decimal?_eq (x : Binary64) (n : Nat) :
    decimal? x n =
      let k := decimalExponent x.quotient.1 x.quotient.2 - (n - 1 : Nat)
      let a := x.quotient.1 * (Binary64.pow10 k).2
      let b := x.quotient.2 * (Binary64.pow10 k).1
      let first := if prefersUp a b then a / b + 1 else a / b
      let second := if prefersUp a b then a / b else a / b + 1
      if inside x first k then some (first, k)
      else if inside x second k then some (second, k)
      else none := by
  rw [decimal?]
  dsimp only
  generalize decimalExponent x.quotient.1 x.quotient.2 - (n - 1 : Nat) = k
  rfl

theorem covers_of_decimal? {n c : Nat} {k : Int} (h : decimal? x n = some (c, k)) :
    Covers x (c * 10 ^ k) := by
  have hchoice : ∀ (c₁ c₂ : Nat) (k' : Int), (if inside x c₁ k' then some (c₁, k')
      else if inside x c₂ k' then some (c₂, k') else none) = some (c, k) → inside x c k = true := by
    intro c₁ c₂ k' h
    split at h
    · cases h
      assumption
    · split at h
      · cases h
        assumption
      · cases h
  rw [decimal?_eq] at h
  exact (inside_iff x c k).mp (hchoice _ _ _ h)

/-- The preferred multiple is at most half of `b` away. -/
theorem nearest_multiple (a : Nat) {b : Nat} (hb : 0 < b) :
    2 * |((if prefersUp a b then a / b + 1 else a / b : Nat) : ℚ) - a / b| ≤ 1 := by
  have hb' : (0 : ℚ) < b := by exact_mod_cast hb
  have hdivision : (b * (a / b : Nat) + (a % b : Nat) : ℚ) = a := by
    exact_mod_cast Nat.div_add_mod a b
  have hmod : ((a % b : Nat) : ℚ) < b := by exact_mod_cast Nat.mod_lt a hb
  have hvalue : (a / b : ℚ) = (a / b : Nat) + (a % b : Nat) / b := by
    rw [← hdivision]
    field_simp
  by_cases hup : prefersUp a b = true
  · have hhalf : b ≤ 2 * (a % b) := by
      simp only [prefersUp, Bool.or_eq_true, Bool.and_eq_true, decide_eq_true_eq,
        beq_iff_eq] at hup
      omega
    have hhalf' : (b : ℚ) ≤ 2 * (a % b : Nat) := by exact_mod_cast hhalf
    have hrest : (1 : ℚ) ≤ 2 * ((a % b : Nat) / b) := by
      rw [← mul_div_assoc, le_div_iff₀ hb']
      linarith
    have hrest' : ((a % b : Nat) / b : ℚ) < 1 := by
      rw [div_lt_iff₀ hb']
      linarith
    rw [if_pos hup, hvalue]
    push_cast
    rw [abs_of_nonneg (by linarith)]
    linarith
  · have hhalf : 2 * (a % b) ≤ b := by
      simp only [prefersUp, Bool.or_eq_true, Bool.and_eq_true, decide_eq_true_eq,
        beq_iff_eq] at hup
      omega
    have hhalf' : (2 * (a % b : Nat) : ℚ) ≤ b := by exact_mod_cast hhalf
    have hrest : (2 * ((a % b : Nat) / b) : ℚ) ≤ 1 := by
      rw [← mul_div_assoc, div_le_iff₀ hb']
      linarith
    have hpos : (0 : ℚ) ≤ ((a % b : Nat) : ℚ) / b := div_nonneg (Nat.cast_nonneg _) hb'.le
    rw [if_neg hup, hvalue, sub_add_cancel_left, abs_neg, abs_of_nonneg hpos]
    exact hrest

/-- What is nearer to a number than the `2 ^ 54`th part of it lies in its interval. -/
theorem covers_of_near (hnormal : x.IsNormal) {q : ℚ}
    (h : 2 ^ 54 * |q - x.magnitude| < x.magnitude) : Covers x q := by
  have hunit : (0 : ℚ) < 2 ^ (x.exponent - 2) := zpow_pos (by norm_num) _
  have hsmall : (x.significand : ℚ) < 2 ^ 53 := by exact_mod_cast hnormal.small
  have hvalue : x.magnitude = 4 * x.significand * 2 ^ (x.exponent - 2) := by
    rw [magnitude, zpow_sub₀ (by norm_num)]
    ring
  have hlower : x.significand ≤ 2 ^ 52 * (4 * x.significand - lowerEnd x) ∧
      lowerEnd x ≤ 4 * x.significand := by
    rw [lowerEnd]
    have hsmall := hnormal.small
    split <;> omega
  have hlower' : (x.significand : ℚ) ≤ 2 ^ 52 * (4 * x.significand - lowerEnd x) := by
    have hcast : ((4 * x.significand - lowerEnd x : Nat) : ℚ) =
        4 * x.significand - lowerEnd x := by
      rw [Nat.cast_sub hlower.2]
      push_cast
      ring
    rw [← hcast]
    exact_mod_cast hlower.1
  rw [hvalue] at h
  suffices hends : lowerEnd x * 2 ^ (x.exponent - 2) < q ∧
      q < (4 * x.significand + 2) * 2 ^ (x.exponent - 2) from
    ⟨hends.1.le, hends.2.le, fun _ => hends.1, fun _ => hends.2⟩
  generalize (2 : ℚ) ^ (x.exponent - 2) = u at *
  have hscaled := mul_le_mul_of_nonneg_right hlower' hunit.le
  have hscaled' := mul_lt_mul_of_pos_right hsmall hunit
  have habs := abs_lt.mp (show |q - 4 * x.significand * u| <
      4 * x.significand * u / 2 ^ 54 by rw [lt_div_iff₀ (by norm_num)]; linarith)
  constructor
  · linarith [habs.1]
  · linarith [habs.2]

theorem log2_quotient_lt (hnormal : x.IsNormal) (hpos : x.significand ≠ 0) :
    Nat.log2 x.quotient.1 < 53 + x.exponent.natAbs := by
  rw [Nat.log2_lt (Binary64.quotient_fst_pos (Nat.pos_of_ne_zero hpos)).ne', Nat.pow_add]
  have hsmall := hnormal.small
  have hpow : 0 < 2 ^ x.exponent.natAbs := Nat.pow_pos (by omega)
  rw [Binary64.quotient]
  split
  · exact hsmall.trans_le (Nat.le_mul_of_pos_right _ hpow)
  · exact Nat.mul_lt_mul_of_pos_right hsmall hpow

/-- Seventeen digits are enough for any number. -/
theorem decimal?_seventeen (hnormal : x.IsNormal) (hpos : x.significand ≠ 0) :
    (decimal? x 17).isSome := by
  have hnum := Binary64.quotient_fst_pos (Nat.pos_of_ne_zero hpos)
  have hden := Binary64.quotient_snd_pos x
  have hsize : Nat.log2 x.quotient.1 < 100000 := by
    have hlog := log2_quotient_lt hnormal hpos
    have hlow := hnormal.low
    have hhigh := hnormal.high
    omega
  have hscale := ten_decimalExponent_le hnum.ne' hden.ne' (by omega)
  have hvalue : ((x.quotient.1 : ℚ) / x.quotient.2) = x.magnitude := Binary64.ratio_quotient x
  have hmagnitude : 0 < x.magnitude := by
    rw [← hvalue]
    exact div_pos (by exact_mod_cast hnum) (by exact_mod_cast hden)
  rw [hvalue] at hscale
  rw [decimal?_eq]
  generalize decimalExponent x.quotient.1 x.quotient.2 = e at hscale
  dsimp only
  generalize hk : e - (17 - 1 : Nat) = k
  have hp := Binary64.pow10_fst_pos k
  have hunit : (0 : ℚ) < 10 ^ k := zpow_pos (by norm_num) _
  have hsmall : 10 ^ 16 * (10 : ℚ) ^ k ≤ x.magnitude := by
    rw [show (10 : ℚ) ^ 16 = 10 ^ (16 : Int) by norm_num, ← zpow_add₀ (by norm_num), ← hk]
    rw [show (16 : Int) + (e - (17 - 1 : Nat)) = e by omega]
    exact hscale
  have hnear := nearest_multiple (x.quotient.1 * (Binary64.pow10 k).2)
    (Nat.mul_pos hden hp)
  generalize (if prefersUp (x.quotient.1 * (Binary64.pow10 k).2)
    (x.quotient.2 * (Binary64.pow10 k).1) then _ else _ : Nat) = c at hnear ⊢
  have hquotient : ((x.quotient.1 * (Binary64.pow10 k).2 : Nat) /
      (x.quotient.2 * (Binary64.pow10 k).1 : Nat) : ℚ) = x.magnitude / 10 ^ k := by
    rw [← hvalue, ← Binary64.ratio_pow10, ratio]
    push_cast
    field_simp
  rw [hquotient] at hnear
  have hcovers : Covers x (c * 10 ^ k) := by
    apply covers_of_near hnormal
    have hscaled : 2 * |c * 10 ^ k - x.magnitude| ≤ (10 : ℚ) ^ k := by
      have hfactor : c * 10 ^ k - x.magnitude = (c - x.magnitude / 10 ^ k) * (10 : ℚ) ^ k := by
        field_simp
      rw [hfactor, abs_mul, abs_of_pos hunit, ← mul_assoc]
      exact mul_le_of_le_one_left hunit.le hnear
    linarith
  rw [if_pos ((inside_iff x c k).mpr hcovers)]
  rfl

theorem covers_digits (hnormal : x.IsNormal) (hpos : x.significand ≠ 0) :
    Covers x ((digits x).1 * 10 ^ (digits x).2) := by
  have hsome : ((List.range 17).findSome? fun i => decimal? x (i + 1)).isSome := by
    rw [List.findSome?_isSome_iff]
    exact ⟨16, by simp, decimal?_seventeen hnormal hpos⟩
  obtain ⟨⟨c, k⟩, hd⟩ := Option.isSome_iff_exists.mp hsome
  obtain ⟨i, -, hi⟩ := List.exists_of_findSome?_eq_some hd
  rw [digits, hd]
  exact covers_of_decimal? hi

end Digits

end Shortest
end TestTransform
