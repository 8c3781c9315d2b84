/-
How large the machine of a pattern is, and which patterns are accepted.

A pattern is compiled into one machine that reads bytes forward and one that reads them
backward.  A repetition with numbers is written out as often as they say, so a short text
can spell a very large machine.  Patterns are refused from some size on, and the size is
counted here without making the machine: in bytes, at a fixed price for each state and each
transition.
-/
import TestTransform.Pattern.Reading
import TestTransform.Pattern.Meaning
import TestTransform.Character.Bytes

namespace TestTransform

/-- The way in which a machine reads. -/
inductive Direction where
  | forward
  | backward
  deriving DecidableEq, Repr, Inhabited

/-- The price of a state. -/
def stateSize : Nat := 32

/-- The price of a transition that names no bytes. -/
def jumpSize : Nat := 4

/-- The price of a transition that names its bytes. -/
def stepSize : Nat := 8

namespace Ranges

/-- The size of a machine for one character of a set.  Forward it is the smallest automaton
for the sequences of bytes; backward, the sequences share what they begin with. -/
def machineSize (d : Direction) (s : Ranges) : Nat :=
  let sequences := ByteSequence.ofRanges s
  match sequences with
  | [bytes] => if bytes.all fun r => r.1 == r.2 then bytes.length * stateSize
    else 2 * stateSize + sequences.length * stepSize
  | _ =>
    if sequences.all fun bytes => bytes.length == 1 then
      2 * stateSize + sequences.length * stepSize
    else match d with
      | .forward =>
        let a := ByteSequence.automaton sequences
        (a.states + 1) * stateSize + a.transitions * stepSize
      | .backward =>
        (ByteSequence.beginnings sequences + 2) * stateSize + sequences.length * jumpSize

end Ranges

namespace Pattern

/-- Whether a pattern fits the empty text. -/
def fitsEmpty : Pattern → Bool
  | empty => true
  | one _ => false
  | assertion _ => true
  | group _ p => p.fitsEmpty
  | seq p q => p.fitsEmpty && q.fitsEmpty
  | alt p q => p.fitsEmpty || q.fitsEmpty
  | repeated p least _ _ => least == 0 || p.fitsEmpty

/-- Whether a pattern fits no other text than the empty one. -/
def fitsOnlyEmpty : Pattern → Bool
  | empty => true
  | one _ => false
  | assertion _ => true
  | group _ p => p.fitsOnlyEmpty
  | seq p q => p.fitsOnlyEmpty && q.fitsOnlyEmpty
  | alt p q => p.fitsOnlyEmpty && q.fitsOnlyEmpty
  | repeated p _ most _ => most == some 0 || p.fitsOnlyEmpty

/-- The set of a pattern that is an alternative of single characters. -/
def charSet? : Pattern → Option CharSet
  | one s => some s
  | alt p q => do some (.union (← p.charSet?) (← q.charSet?))
  | _ => none

/-- The size of `n` repetitions of a part of a given size, one behind the other. -/
def sizeOfTimes (size n : Nat) : Nat := if n == 0 then stateSize else n * size

/-- The size of a part of a given size that is passed again and again. -/
def sizeOfLoop (size : Nat) : Nat := size + stateSize + 2 * jumpSize

/-- The size of a repetition.  Repetitions of what fits only the empty text are made once. -/
def sizeOfRepeated (p : Pattern) (size least : Nat) (most : Option Nat) : Nat :=
  let least := if p.fitsOnlyEmpty then min least 1 else least
  let most := if p.fitsOnlyEmpty then (most.map (min 1 ·)).or (some 1) else most
  match most with
  | none =>
    if least == 0 && p.fitsEmpty then sizeOfLoop (sizeOfLoop size) + stateSize
    else if least == 0 then sizeOfLoop size
    else least * size + stateSize + 2 * jumpSize
  | some m =>
    if m == least then sizeOfTimes size least
    else if least == 0 && m == 1 then sizeOfLoop size + stateSize
    else sizeOfTimes size least + stateSize + (m - least) * sizeOfLoop size

/-- The size of a pattern's machine.  A pattern that is a branch of several also costs the
jump to it, and its own alternatives are further branches. -/
def size (d : Direction) : (branch : Bool) → Pattern → Nat
  | branch, empty => stateSize + branch.toNat * jumpSize
  | branch, one s => s.ranges.machineSize d + branch.toNat * jumpSize
  | branch, assertion _ => stateSize + branch.toNat * jumpSize
  | branch, group _ p =>
    p.size d false + (if d == .forward then 2 * stateSize else 0) + branch.toNat * jumpSize
  | branch, seq p q =>
    (if p matches empty then 0 else p.size d false) +
      (if q matches empty then 0 else q.size d false) + branch.toNat * jumpSize
  | true, alt p q => p.size d true + q.size d true
  | false, alt p q =>
    match (alt p q).charSet? with
    | some s => s.ranges.machineSize d
    | none => 2 * stateSize + p.size d true + q.size d true
  | branch, repeated p least most _ =>
    sizeOfRepeated p (p.size d false) least most + branch.toNat * jumpSize

/-- What a machine costs beside its pattern: the loop that looks for a place to begin, the
group of the whole match, and the end. -/
def sizeAround (d : Direction) : Nat :=
  sizeOfLoop (2 * stateSize + stepSize) + (if d == .forward then 3 else 1) * stateSize

/-- The largest machine that is made. -/
def maxSize : Nat := 10 * 1024 * 1024

/-- Whether both machines of a pattern can be made. -/
def isSmall (p : Pattern) : Bool :=
  p.size .forward false + sizeAround .forward ≤ maxSize &&
    p.size .backward false + sizeAround .backward ≤ maxSize

/-- The pattern a text spells: none if it spells no term, if the term is nested too deeply or
means nothing, or if the pattern is too large. -/
def ofText? (t : Text) : Option Pattern := do
  let term ← Term.ofText? t
  guard (term.depth ≤ maxDepth)
  let (p, _) ← term.pattern? {}
  guard p.isSmall
  some p

end Pattern
end TestTransform
