/-
Sets of characters as sequences of bytes.

The UTF-8 forms of a range of characters are no single range of bytes, but they fall into a
few sequences of such ranges: whatever the first bytes leave open, the bytes behind them
run through all their values.
-/
import TestTransform.Character.Ranges

namespace TestTransform

/-- The bytes between two bytes. -/
abbrev ByteRange := Nat × Nat

/-- All texts of bytes that take each byte from its range. -/
abbrev ByteSequence := List ByteRange

namespace ByteSequence

/-- The sequences for the numbers between `a` and `b`: a first byte, which counts from `lead`,
and `more` bytes of six bits each behind it. -/
def between : (more : Nat) → (lead a b : Nat) → List ByteSequence
  | 0, lead, a, b => [[(lead + a, lead + b)]]
  | more + 1, lead, a, b =>
    let block := Nat.pow 64 (more + 1)
    let within (q a b : Nat) : List ByteSequence :=
      (between more 128 a b).map ((lead + q, lead + q) :: ·)
    if a / block == b / block then within (a / block) (a % block) (b % block)
    else
      let low := (a + block - 1) / block
      let high := (b + 1) / block
      (if a % block == 0 then [] else within (a / block) (a % block) (block - 1)) ++
        (if low < high then
          [(lead + low, lead + high - 1) :: List.replicate (more + 1) (128, 191)]
        else []) ++
        (if (b + 1) % block == 0 then [] else within (b / block) 0 (b % block))

/-- The characters that take the same number of bytes. -/
structure Width where
  first : Nat
  last : Nat
  /-- What the first byte counts from. -/
  lead : Nat
  /-- How many bytes follow it. -/
  more : Nat

/-- All characters by their width.  There are none between the third and the fourth. -/
def widths : List Width :=
  [⟨0, 0x7F, 0, 0⟩, ⟨0x80, 0x7FF, 0xC0, 1⟩, ⟨0x800, 0xD7FF, 0xE0, 2⟩,
   ⟨0xE000, 0xFFFF, 0xE0, 2⟩, ⟨0x10000, 0x10FFFF, 0xF0, 3⟩]

/-- The sequences of the characters of a set, in rising order. -/
def ofRanges (s : Ranges) : List ByteSequence :=
  s.flatMap fun r => widths.flatMap fun w =>
    let a := max r.1 w.first
    let b := min r.2 w.last
    if a ≤ b then between w.more w.lead a b else []

/-! ## Sequences with common parts -/

/-- How many ranges two sequences begin with in common. -/
def common : ByteSequence → ByteSequence → Nat
  | r :: rs, s :: ss => if r == s then common rs ss + 1 else 0
  | _, _ => 0

/-- How many different beginnings the sequences have.  Those with a common beginning stand
next to each other. -/
def beginnings : List ByteSequence → Nat
  | [] => 0
  | [s] => s.length
  | s :: t :: rest => s.length - common s t + beginnings (t :: rest)

/-- The sequences by their first ranges, each with what may follow it. -/
def branches : List ByteSequence → List (ByteRange × List ByteSequence)
  | [] => []
  | [] :: rest => branches rest
  | (r :: tail) :: rest =>
    match branches rest with
    | (r', tails) :: others =>
      if r == r' then (r, tail :: tails) :: others else (r, [tail]) :: (r', tails) :: others
    | [] => [(r, [tail])]

/-- What is left to be read: the sequences that may follow. -/
abbrev Remainder := List ByteSequence

def Remainder.hasLength (n : Nat) (r : Remainder) : Bool := r.any fun s => s.length == n

/-- How large an automaton is: its states but the last, and the transitions between them. -/
structure Automaton where
  states : Nat
  transitions : Nat
  deriving DecidableEq, Repr, Inhabited

/-- The smallest automaton that reads what is left in one of several ways.  A state is what
is left to be read in it, and at most `n` bytes are. -/
def automatonFrom : (n : Nat) → List Remainder → Automaton
  | 0, _ => ⟨0, 0⟩
  | n + 1, left =>
    let (here, others) := left.partition (Remainder.hasLength (n + 1))
    let behind := here.flatMap fun r => (branches r).map (·.2)
    let rest := automatonFrom n (others ++ behind).eraseDups
    ⟨here.length + rest.states, behind.length + rest.transitions⟩

/-- The smallest automaton for the sequences of a set. -/
def automaton (s : Remainder) : Automaton := automatonFrom 4 [s]

end ByteSequence
end TestTransform
