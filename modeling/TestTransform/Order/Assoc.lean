/-
Lists of pairs kept in the order of their keys.

The comparison is an argument, so that one set of operations serves text keys, path
keys and names.  Putting a value under a key that compares equal to one in the list
keeps the key as it was first written and replaces the value.
-/

namespace TestTransform
namespace Assoc

variable {κ υ : Type}

/-- Puts a value under a key, in the key's place. -/
def insert (cmp : κ → κ → Ordering) (k : κ) (v : υ) : List (κ × υ) → List (κ × υ)
  | [] => [(k, v)]
  | (k', v') :: rest =>
    match cmp k k' with
    | .lt => (k, v) :: (k', v') :: rest
    | .eq => (k', v) :: rest
    | .gt => (k', v') :: insert cmp k v rest

/-- The value under the first key that compares equal. -/
def find? (cmp : κ → κ → Ordering) (k : κ) : List (κ × υ) → Option υ
  | [] => none
  | (k', v) :: rest => if cmp k k' == .eq then some v else find? cmp k rest

def contains (cmp : κ → κ → Ordering) (k : κ) (entries : List (κ × υ)) : Bool :=
  (find? cmp k entries).isSome

/-- Takes a key out together with its value. -/
def erase (cmp : κ → κ → Ordering) (k : κ) (entries : List (κ × υ)) : List (κ × υ) :=
  entries.filter fun e => cmp k e.1 != .eq

/-- Changes the value under a key, if there is one. -/
def modify (cmp : κ → κ → Ordering) (k : κ) (f : υ → υ) (entries : List (κ × υ)) :
    List (κ × υ) :=
  entries.map fun e => if cmp k e.1 == .eq then (e.1, f e.2) else e

/-- Puts all pairs of the second list into the first, in their order. -/
def insertAll (cmp : κ → κ → Ordering) (entries new : List (κ × υ)) : List (κ × υ) :=
  new.foldl (fun acc e => insert cmp e.1 e.2 acc) entries

end Assoc

namespace Sorted

variable {α : Type}

/-- Puts an element behind all that are not greater. -/
def insert (cmp : α → α → Ordering) (x : α) : List α → List α
  | [] => [x]
  | y :: rest => if cmp x y == .lt then x :: y :: rest else y :: insert cmp x rest

/-- Sorts a list; elements that compare equal keep their order. -/
def sort (cmp : α → α → Ordering) (xs : List α) : List α :=
  xs.foldl (fun acc x => insert cmp x acc) []

/-- Puts an element into its place unless one that compares equal is there. -/
def insertNew (cmp : α → α → Ordering) (x : α) : List α → List α
  | [] => [x]
  | y :: rest =>
    match cmp x y with
    | .lt => x :: y :: rest
    | .eq => y :: rest
    | .gt => y :: insertNew cmp x rest

/-- The elements in order, those that compare equal to an earlier one left out. -/
def distinct (cmp : α → α → Ordering) (xs : List α) : List α :=
  xs.foldl (fun acc x => insertNew cmp x acc) []

/-- Whether an element that compares equal stands in a list in order.  If the one in the middle
differs, it is searched for in the half in front or behind; the fuel bounds how often. -/
def searchFor (cmp : α → α → Ordering) (x : α) : (fuel : Nat) → List α → Bool
  | 0, _ => false
  | fuel + 1, xs =>
    match xs.drop (xs.length / 2) with
    | [] => false
    | y :: behind =>
      match cmp x y with
      | .lt => searchFor cmp x fuel (xs.take (xs.length / 2))
      | .eq => true
      | .gt => searchFor cmp x fuel behind

/-- Searches a list in order for an element that compares equal. -/
def search (cmp : α → α → Ordering) (x : α) (xs : List α) : Bool := searchFor cmp x xs.length xs

end Sorted
end TestTransform
