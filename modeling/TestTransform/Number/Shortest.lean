/-
The shortest decimal that reads back as a given binary64 number.

Among the decimals with the fewest digits inside the interval of reals that round to the
number, the nearest is taken, and of two equally near ones the even one.  The end points
belong to the interval exactly when the significand is even.
-/
import TestTransform.Number.Binary64

namespace TestTransform
namespace Shortest

/-- Whether `a / b ≤ c / d`, or `<` if `strict`. -/
def below (strict : Bool) (a b c d : Nat) : Bool :=
  if strict then a * d < c * b else a * d ≤ c * b

/-- `⌊log₁₀ (num / den)⌋`, starting from an estimate that is at most two away. -/
def decimalExponent (num den : Nat) : Int :=
  let atLeast (e : Int) : Bool :=
    let (a, b) := Binary64.pow10 e
    below false a b num den
  let guess : Int := (((Nat.log2 num : Int) - Nat.log2 den) * 30103).fdiv 100000
  let top := guess + 2
  (List.range 5).foldl (fun e _ => if atLeast e then e else e - 1) top

/-- The interval of magnitudes that round to `x`, as two quotients, and whether its end
points are left out. -/
def interval (x : Binary64) : (Nat × Nat) × (Nat × Nat) × Bool :=
  let m := x.significand
  let scale (n : Nat) : Nat × Nat :=
    let (a, b) := Binary64.quotient { x with significand := n }
    (a, 4 * b)
  let lower := if m == Nat.pow 2 52 && x.exponent > -1074 then 4 * m - 1 else 4 * m - 2
  (scale lower, scale (4 * m + 2), m % 2 == 1)

/-- The decimal `digits · 10 ^ k` of `n` digits nearest to `x` inside its interval, if
one lies there. -/
def decimal? (x : Binary64) (n : Nat) : Option (Nat × Int) :=
  let (num, den) := x.quotient
  let k := decimalExponent num den - (n - 1 : Nat)
  let (p, r) := Binary64.pow10 k
  let (lo, hi, strict) := interval x
  let inside (c : Nat) : Bool :=
    below strict lo.1 lo.2 (c * p) r && below strict (c * p) r hi.1 hi.2
  let a := num * r
  let b := den * p
  let c := a / b
  let rest := a % b
  let preferUp : Bool := 2 * rest > b || (2 * rest == b && c % 2 == 1)
  let first := if preferUp then c + 1 else c
  let second := if preferUp then c else c + 1
  if inside first then some (first, k)
  else if inside second then some (second, k)
  else none

/-- The fewest digits that do, of seventeen that always do. -/
def digits (x : Binary64) : Nat × Int :=
  ((List.range 17).findSome? fun i => decimal? x (i + 1)).getD (0, 0)

/-- Moves trailing zeros of the digits into the exponent. -/
def strip : (fuel : Nat) → Nat × Int → Nat × Int
  | 0, d => d
  | fuel + 1, (c, k) => if c != 0 && c % 10 == 0 then strip fuel (c / 10, k + 1) else (c, k)

/-- The text of a number: positional with a point from `0.00001` up to sixteen digits
in front of the point, otherwise with an exponent and its sign. -/
def text (x : Binary64) : Text :=
  let sign : Text := if x.negative then "-" else ""
  if x.significand == 0 then sign ++ "0.0"
  else
    let (c, k) := strip 20 (digits x)
    let ds := Text.ofNat c
    let n : Int := ds.length
    let point := n + k
    if 0 ≤ k && point ≤ 16 then sign ++ ds ++ List.replicate k.toNat '0' ++ ".0"
    else if 0 < point && point ≤ 16 then
      sign ++ ds.take point.toNat ++ '.' :: ds.drop point.toNat
    else if -5 < point && point ≤ 0 then
      sign ++ "0." ++ List.replicate (-point).toNat '0' ++ ds
    else
      let e := point - 1
      let exponent : Text := (if e < 0 then '-' else '+') :: Text.ofNat e.natAbs
      match ds with
      | [d] => sign ++ d :: 'e' :: exponent
      | d :: rest => sign ++ d :: '.' :: (rest ++ 'e' :: exponent)
      | [] => sign ++ exponent

end Shortest
end TestTransform
