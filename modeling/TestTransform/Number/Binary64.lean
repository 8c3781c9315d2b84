/-
Finite binary64 numbers as exact integers.

A number is `± significand · 2 ^ exponent` with a significand below `2 ^ 53`.  Every
operation forms the exact quotient of two natural numbers and rounds it once, to the
nearest representable number and half-way cases to the even significand; so nothing
here depends on the machine's own floating point.
-/
import TestTransform.Text.Basic

namespace TestTransform

structure Binary64 where
  negative : Bool
  significand : Nat
  exponent : Int
  deriving DecidableEq, Repr, Inhabited

namespace Binary64

def zero (negative : Bool) : Binary64 := ⟨negative, 0, -1074⟩

/-- `10 ^ e` as a quotient of natural numbers. -/
def pow10 (e : Int) : Nat × Nat := if e < 0 then (1, Nat.pow 10 e.natAbs) else (Nat.pow 10 e.natAbs, 1)

/-- The magnitude as a quotient of natural numbers. -/
def quotient (x : Binary64) : Nat × Nat :=
  if x.exponent < 0 then (x.significand, Nat.pow 2 x.exponent.natAbs)
  else (x.significand * Nat.pow 2 x.exponent.natAbs, 1)

/-- `num / den` divided by `2 ^ e`, as whole part, rest and divisor. -/
def scaled (num den : Nat) (e : Int) : Nat × Nat × Nat :=
  let n := if e < 0 then num * Nat.pow 2 e.natAbs else num
  let d := if e < 0 then den else den * Nat.pow 2 e.natAbs
  (n / d, n % d, d)

/-- The representable number nearest to `num / den`, for a positive `den`; nothing if
that is beyond the largest finite one. -/
def round? (negative : Bool) (num den : Nat) : Option Binary64 :=
  if num = 0 then some (zero negative)
  else
    let guess : Int := (Nat.log2 num : Int) - Nat.log2 den - 52
    let fitted := if (scaled num den guess).1 < Nat.pow 2 52 then guess - 1 else guess
    let e := max fitted (-1074)
    let (q, r, d) := scaled num den e
    let q := if 2 * r > d || (2 * r == d && q % 2 == 1) then q + 1 else q
    let (q, e) := if q == Nat.pow 2 53 then (Nat.pow 2 52, e + 1) else (q, e)
    if e > 971 then none
    else if q = 0 then some (zero negative)
    else some ⟨negative, q, e⟩

def ofNat? (n : Nat) : Option Binary64 := round? false n 1

/-- The product of two magnitudes, rounded once. -/
def mul? (x y : Binary64) : Option Binary64 :=
  let (a, b) := x.quotient
  let (c, d) := y.quotient
  round? x.negative (a * c) (b * d)

/-- The quotient of two magnitudes, rounded once; the divisor is not zero. -/
def div? (x y : Binary64) : Option Binary64 :=
  let (a, b) := x.quotient
  let (c, d) := y.quotient
  round? x.negative (a * d) (b * c)

/-- Numeric equality: the two zeros are equal. -/
def same (x y : Binary64) : Bool :=
  x == y || (x.significand == 0 && y.significand == 0)

end Binary64
end TestTransform
