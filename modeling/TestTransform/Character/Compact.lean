/-
Tables of code points in a short written form.

A list of switches gives the lengths of the stretches outside and inside a set by turns,
with blanks between them, so `65 26 6 26` are the letters of ASCII.  A list of runs gives
stretches that have a value in common, each as its length and the value's letters, so
`32Cc1Zs` are the controls of ASCII and the blank.  Both begin at zero and are written in
rows.
-/
import TestTransform.Text.Basic
import TestTransform.Character.Ranges

namespace TestTransform
namespace Character

/-- The set that switches describe from `start` on. -/
def switched : (start : Nat) → List Nat → Ranges
  | start, outside :: inside :: rest =>
    (start + outside, start + outside + inside - 1) ::
      switched (start + outside + inside) rest
  | _, _ => []

/-- Reads a list of switches. -/
def ofSwitches (rows : List String) : Ranges :=
  switched 0 (rows.flatMap fun row => (Text.splitOn ' ' row.toList).map Text.digitsValue)

/-- Code points that have a value in common. -/
structure Run where
  first : Nat
  last : Nat
  value : Text

/-- Reads a list of runs from `start` on.  The fuel is the length of the text. -/
def runsFrom : (fuel : Nat) → (start : Nat) → Text → List Run
  | 0, _, _ => []
  | fuel + 1, start, t =>
    let digits := t.takeWhile Text.isDigit
    if digits.isEmpty then []
    else
      let t := t.drop digits.length
      let value := t.takeWhile fun c => !Text.isDigit c
      let next := start + Text.digitsValue digits
      ⟨start, next - 1, value⟩ :: runsFrom fuel next (t.drop value.length)

/-- Reads a list of runs. -/
def runs (rows : List String) : List Run :=
  let t := rows.flatMap String.toList
  runsFrom t.length 0 t

/-- The code points of the runs whose values are wanted. -/
def wanted (rs : List Run) (want : Text → Bool) : Ranges :=
  Ranges.joined (rs.filterMap fun r => if want r.value then some (r.first, r.last) else none)

end Character
end TestTransform
