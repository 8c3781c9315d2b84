/-
What the terms of a pattern mean under the flags that are in force.

Without the Unicode flag, sets are sets of bytes.  Since a text is matched character by
character, only such sets of bytes are allowed as hold ASCII alone, and a set that is
negated never does.
-/
import TestTransform.Pattern.Term
import TestTransform.Character.Property

namespace TestTransform
namespace Pattern

/-! ## Flags -/

structure Flags where
  caseless : Bool := false
  multiLine : Bool := false
  dotAll : Bool := false
  swapGreed : Bool := false
  unicode : Bool := true
  returns : Bool := false
  deriving DecidableEq, Repr, Inhabited

namespace Flags

def set (f : Flags) (change : Flag × Bool) : Flags :=
  match change.1 with
  | .caseless => { f with caseless := change.2 }
  | .multiLine => { f with multiLine := change.2 }
  | .dotAll => { f with dotAll := change.2 }
  | .swapGreed => { f with swapGreed := change.2 }
  | .unicode => { f with unicode := change.2 }
  | .verbose => f
  | .returns => { f with returns := change.2 }

def change (f : Flags) (changes : Switches) : Flags := changes.foldl set f

/-- Adds what differs in case alone if case does not matter. -/
def withCase (f : Flags) (s : CharSet) : CharSet :=
  if f.caseless then (if f.unicode then .anyCase s else .anyAsciiCase s) else s

/-- The complement of a set if it is negated, which needs the Unicode flag. -/
def negate? (f : Flags) (negated : Bool) (s : CharSet) : Option CharSet :=
  if negated then (if f.unicode then some (.compl s) else none) else some s

end Flags

/-! ## Letters and sets -/

/-- The character that a letter means outside of classes.  A byte beyond ASCII is none. -/
def Letter.char? (f : Flags) (a : Letter) : Option Char :=
  if !f.unicode && a.asByte && a.char.toNat > 127 then none else some a.char

/-- The character that a letter means in a class. -/
def Letter.member? (f : Flags) (a : Letter) : Option Char :=
  if f.unicode || a.char.toNat < 128 then some a.char else none

def Shorthand.set (ascii : Bool) : Shorthand → CharSet
  | digit => .digit ascii
  | blank => .blank ascii
  | word => .word ascii

def PropertyName.set? : PropertyName → Option CharSet
  | alone name => (Character.property? name).map .listed
  | valued name value => (Character.propertyValue? name value).map .listed

def SetOp.apply : SetOp → CharSet → CharSet → CharSet
  | inter, a, b => .inter a b
  | diff, a, b => .diff a b
  | symmDiff, a, b => .symmDiff a b

mutual

/-- The set that is written, if it is allowed. -/
def SetTerm.set? (f : Flags) : SetTerm → Option CharSet
  | .empty => some .none
  | .letter a => (a.member? f).map CharSet.single
  | .range a b => do some (.between (← a.member? f) (← b.member? f))
  | .shorthand s negated => f.negate? negated (s.set !f.unicode)
  | .ascii s negated => f.negate? negated (f.withCase s)
  | .property p negated =>
    if f.unicode then p.set?.bind fun s => f.negate? negated (f.withCase s) else none
  | .bracketed negated s => (s.set? f).bind fun s => f.negate? negated (f.withCase s)
  | .union items => unionOf? f items
  | .operation op a b => do some (op.apply (f.withCase (← a.set? f)) (f.withCase (← b.set? f)))

def unionOf? (f : Flags) : List SetTerm → Option CharSet
  | [] => some .none
  | s :: rest => do some (.union (← s.set? f) (← unionOf? f rest))

end

/-- Any character, or any that does not end a line. -/
def Flags.dot (f : Flags) : CharSet :=
  if f.dotAll then .compl .none
  else if f.returns then .compl (.ofText "\n\r")
  else .compl (.single '\n')

def Boundary.assertion (f : Flags) : Boundary → Assertion
  | textStart => .textStart
  | textEnd => .textEnd
  | lineStart => if f.multiLine then .lineStart f.returns else .textStart
  | lineEnd => if f.multiLine then .lineEnd f.returns else .textEnd
  | wordEdge => .wordEdge !f.unicode
  | notWordEdge => .notWordEdge !f.unicode
  | wordStart => .wordStart !f.unicode
  | wordEnd => .wordEnd !f.unicode
  | beforeWord => .beforeWord !f.unicode
  | afterWord => .afterWord !f.unicode

/-! ## Terms -/

mutual

/-- The pattern that a term means, and the flags in force behind it. -/
def Term.pattern? (f : Flags) : Term → Option (Pattern × Flags)
  | .empty => some (.empty, f)
  | .flags changes => some (.empty, f.change changes)
  | .letter a => (a.char? f).map fun c => (one (f.withCase (.single c)), f)
  | .dot => if f.unicode then some (one f.dot, f) else none
  | .boundary b => some (.assertion (b.assertion f), f)
  | .set s => (s.set? f).map fun s => (one s, f)
  | .repeated t least most greedy =>
    (t.pattern? f).map fun (p, f) => (.repeated p least most (greedy != f.swapGreed), f)
  | .group index changes t =>
    (t.pattern? (f.change changes)).map fun (p, _) =>
      match index with
      | some i => (.group i p, f)
      | none => (p, f)
  | .alternation ts => alternation? f ts
  | .concatenation ts => concatenationOf? f ts

/-- The first of several terms that fits. -/
def alternation? (f : Flags) : List Term → Option (Pattern × Flags)
  | [] => some (one .none, f)
  | [t] => t.pattern? f
  | t :: ts => do
    let (p, f) ← t.pattern? f
    let (q, f) ← alternation? f ts
    some (alt p q, f)

/-- Several terms one after another. -/
def concatenationOf? (f : Flags) : List Term → Option (Pattern × Flags)
  | [] => some (.empty, f)
  | [t] => t.pattern? f
  | t :: ts => do
    let (p, f) ← t.pattern? f
    let (q, f) ← concatenationOf? f ts
    some (seq p q, f)

end

end Pattern
end TestTransform
