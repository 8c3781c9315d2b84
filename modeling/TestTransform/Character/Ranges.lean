/-
Sets of code points as ranges.

A set is the list of its ranges in rising order, first and last member of each, with at
least one code point between two of them.  So a set has one list, and a membership test
may stop at the first range that begins too high.
-/

namespace TestTransform

abbrev Ranges := List (Nat × Nat)

namespace Ranges

/-- The largest code point. -/
def top : Nat := 0x10FFFF

/-- All code points. -/
def all : Ranges := [(0, top)]

def mem (n : Nat) : Ranges → Bool
  | [] => false
  | (first, last) :: rest => if n < first then false else n ≤ last || mem n rest

/-- Puts a range in front of a set whose ranges begin no earlier, and joins what touches. -/
def absorb (r : Nat × Nat) : Ranges → Ranges
  | [] => [r]
  | s :: rest => if s.1 ≤ r.2 + 1 then absorb (r.1, max r.2 s.2) rest else r :: s :: rest

/-- The set of ranges that are in order of their beginnings. -/
def joined : Ranges → Ranges
  | [] => []
  | r :: rest => absorb r (joined rest)

def union (a b : Ranges) : Ranges := joined (a.merge b fun r s => r.1 ≤ s.1)

/-- The code points from `start` on that are not in a set. -/
def gaps (start : Nat) : Ranges → Ranges
  | [] => if start ≤ top then [(start, top)] else []
  | (first, last) :: rest =>
    if start < first then (start, first - 1) :: gaps (last + 1) rest else gaps (last + 1) rest

def compl (a : Ranges) : Ranges := gaps 0 a

def inter (a b : Ranges) : Ranges := compl (union (compl a) (compl b))

def diff (a b : Ranges) : Ranges := compl (union (compl a) b)

def symmDiff (a b : Ranges) : Ranges := union (diff a b) (diff b a)

/-- The union of several sets. -/
def unionAll : List Ranges → Ranges := List.foldr union []

/-- The set of some code points. -/
def ofList (ns : List Nat) : Ranges :=
  joined ((ns.mergeSort fun a b => a ≤ b).map fun n => (n, n))

end Ranges
end TestTransform
