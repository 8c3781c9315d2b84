/-
JSON numbers: how a numeral is read, and how a number is written.

A numeral without fraction and exponent is an integer as long as it fits 64 bits,
unsigned or, behind a minus sign, signed.  Every other numeral is a binary64 number.
It is formed from at most 64 bits of leading digits, converted and then multiplied or
divided by a power of ten; each of these steps rounds, so the result can differ from
the nearest number in the last place.
-/
import TestTransform.Number.Shortest

namespace TestTransform
namespace Json

/-- A numeral as written. -/
structure Numeral where
  negative : Bool
  whole : Text
  fraction : Option Text
  /-- The sign of the exponent, `true` for minus, and its digits. -/
  exponent : Option (Bool × Text)
  deriving DecidableEq, Repr, Inhabited

inductive Number where
  | int (value : Int)
  | float (value : Binary64)
  deriving DecidableEq, Repr, Inhabited

namespace Number

/-- Numeric equality; an integer never equals a float. -/
def same : Number → Number → Bool
  | int a, int b => a == b
  | float a, float b => a.same b
  | _, _ => false

def text : Number → Text
  | int i => if i < 0 then '-' :: Text.ofNat i.natAbs else Text.ofNat i.natAbs
  | float x => Shortest.text x

end Number

namespace Numeral

def maxSignificand : Nat := Nat.pow 2 64 - 1

/-- Appends digits as long as the significand fits 64 bits, and returns the digits left. -/
def gather : (significand : Nat) → Text → Nat × Text
  | n, [] => (n, [])
  | n, c :: rest =>
    let m := 10 * n + Text.digitValue c
    if m ≤ maxSignificand then gather m rest else (n, c :: rest)

def signed (negative : Bool) (x : Binary64) : Binary64 := { x with negative := negative }

/-- Multiplies or divides by a power of ten.  Exponents below `-308` are taken in steps
of `308`; three of them bring any significand to zero. -/
def scale? : (fuel : Nat) → Binary64 → Int → Option Binary64
  | 0, x, _ => some x
  | fuel + 1, x, e =>
    if e.natAbs ≤ 308 then
      (Binary64.ofNat? (Nat.pow 10 e.natAbs)).bind fun p => if e < 0 then x.div? p else x.mul? p
    else if x.significand = 0 then some x
    else if e > 0 then none
    else
      (Binary64.ofNat? (Nat.pow 10 308)).bind fun p =>
        (x.div? p).bind fun y => scale? fuel y (e + 308)

def float? (negative : Bool) (significand : Nat) (e : Int) : Option Number :=
  (Binary64.ofNat? significand).bind fun x =>
    (scale? 4 x e).map fun y => .float (signed negative y)

/-- The largest exponent that is read as such. -/
def maxExponent : Nat := Nat.pow 2 31 - 1

/-- Applies the written exponent.  One that is too large is refused unless the result
is zero anyway. -/
def withExponent? (negative : Bool) (significand : Nat) (start : Int) :
    Option (Bool × Text) → Option Number
  | none => float? negative significand start
  | some (minus, digits) =>
    let e := Text.digitsValue digits
    if e > maxExponent then
      if significand ≠ 0 && !minus then none
      else some (.float (Binary64.zero negative))
    else float? negative significand (if minus then start - e else start + e)

/-- The number a numeral stands for, unless it is too large. -/
def value? (n : Numeral) : Option Number :=
  let (significand, dropped) := gather 0 n.whole
  let start : Int := dropped.length
  match n.fraction, n.exponent with
  | none, none =>
    if dropped ≠ [] then float? n.negative significand start
    else if !n.negative then some (.int significand)
    else if 1 ≤ significand && significand ≤ Nat.pow 2 63 then some (.int (-(significand : Int)))
    else float? true significand 0
  | none, some e => withExponent? n.negative significand start (some e)
  | some f, e =>
    let (all, left) := gather significand f
    withExponent? n.negative all (start - ((f.length - left.length : Nat) : Int)) e

end Numeral
end Json
end TestTransform
