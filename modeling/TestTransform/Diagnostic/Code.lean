/-
Diagnostic codes as users write them.
-/
import TestTransform.Text.Basic

namespace TestTransform
namespace Diagnostic
namespace Code

/-- A piece of text that names no code. -/
structure Invalid where
  value : Text
  deriving DecidableEq, Repr

/-- A decimal number below `2 ^ 32`, with an optional plus sign in front. -/
def number? (t : Text) : Option Nat :=
  let digits := match t with
    | '+' :: rest => rest
    | t => t
  if digits ≠ [] && digits.all Text.isDigit && Text.digitsValue digits < 4294967296 then
    some (Text.digitsValue digits)
  else none

/-- The text without a leading `TS` or `ts`. -/
def dropMark (t : Text) : Text :=
  match t with
  | 'T' :: 'S' :: rest => rest
  | 't' :: 's' :: rest => rest
  | t => t

/-- One code, such as `TS2322` or `2322`, with white space around it. -/
def parse (t : Text) : Except Invalid Nat :=
  match number? (dropMark (Text.trim t)) with
  | some n => .ok n
  | none => .error ⟨t⟩

/-- Codes separated by commas; blank pieces are passed over. -/
def parseList (t : Text) : Except Invalid (List Nat) :=
  ((Text.splitOn ',' t).filter fun piece => Text.trim piece ≠ []).mapM parse

end Code
end Diagnostic
end TestTransform
