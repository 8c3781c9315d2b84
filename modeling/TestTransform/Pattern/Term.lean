/-
How patterns are written.

A term keeps what stands in the text: which letters and classes, which flags are switched
where, what is repeated how often.  What a term means depends on the flags that are in
force where it stands.
-/
import TestTransform.Pattern.Basic

namespace TestTransform
namespace Pattern

/-- A character, and whether it is written as the number of a byte. -/
structure Letter where
  char : Char
  asByte : Bool := false
  deriving DecidableEq, Repr, Inhabited

/-- Sets that an escape of one letter stands for. -/
inductive Shorthand where
  | digit
  | blank
  | word
  deriving DecidableEq, Repr, Inhabited

/-- A property of characters by its name, or one of its values. -/
inductive PropertyName where
  | alone (name : Text)
  | valued (name value : Text)
  deriving DecidableEq, Repr, Inhabited

/-- An operator between two parts of a class. -/
inductive SetOp where
  | inter
  | diff
  | symmDiff
  deriving DecidableEq, Repr, Inhabited

/-- What is written in a class. -/
inductive SetTerm where
  | empty
  | letter (a : Letter)
  | range (first last : Letter)
  | shorthand (s : Shorthand) (negated : Bool)
  /-- A class of ASCII that has a name. -/
  | ascii (s : CharSet) (negated : Bool)
  | property (p : PropertyName) (negated : Bool)
  | bracketed (negated : Bool) (s : SetTerm)
  | union (items : List SetTerm)
  | operation (op : SetOp) (a b : SetTerm)
  deriving Repr, Inhabited

/-- A condition on a position as it is written. -/
inductive Boundary where
  | textStart
  | textEnd
  | lineStart
  | lineEnd
  | wordEdge
  | notWordEdge
  | wordStart
  | wordEnd
  | beforeWord
  | afterWord
  deriving DecidableEq, Repr, Inhabited

inductive Flag where
  | caseless
  | multiLine
  | dotAll
  | swapGreed
  | unicode
  | verbose
  | returns
  deriving DecidableEq, Repr, Inhabited

/-- Flags with what they are switched to. -/
abbrev Switches := List (Flag × Bool)

inductive Term where
  | empty
  | flags (changes : Switches)
  | letter (a : Letter)
  | dot
  | boundary (b : Boundary)
  | set (s : SetTerm)
  | repeated (t : Term) (least : Nat) (most : Option Nat) (greedy : Bool)
  /-- A group, which is remembered if it has a number. -/
  | group (index : Option Nat) (changes : Switches) (t : Term)
  | alternation (ts : List Term)
  | concatenation (ts : List Term)
  deriving Repr, Inhabited

/-! ## Depth -/

mutual

/-- How deeply the parts of a class are nested. -/
def SetTerm.depth : SetTerm → Nat
  | .bracketed _ s => s.depth + 1
  | .union items => depthOfItems items + 1
  | .operation _ a b => max a.depth b.depth + 1
  | _ => 0

def depthOfItems : List SetTerm → Nat
  | [] => 0
  | s :: rest => max s.depth (depthOfItems rest)

end

mutual

/-- How deeply the parts of a pattern are nested. -/
def Term.depth : Term → Nat
  | .set s => s.depth
  | .repeated t _ _ _ => t.depth + 1
  | .group _ _ t => t.depth + 1
  | .alternation ts => depthOfTerms ts + 1
  | .concatenation ts => depthOfTerms ts + 1
  | _ => 0

def depthOfTerms : List Term → Nat
  | [] => 0
  | t :: rest => max t.depth (depthOfTerms rest)

end

/-- The depth beyond which a text is no pattern. -/
def maxDepth : Nat := 250

/-! ## Putting parts together -/

/-- The class of some items. -/
def SetTerm.ofItems : List SetTerm → SetTerm
  | [] => .empty
  | [s] => s
  | items => .union items

/-- The terms one after another. -/
def Term.inOrder : List Term → Term
  | [] => .empty
  | [t] => t
  | ts => .concatenation ts

/-- The terms as alternatives. -/
def Term.oneOf : List Term → Term
  | [t] => t
  | ts => .alternation ts

end Pattern
end TestTransform
