/-
Reading typed data out of JSON values.

A record is read from an object, in which unknown fields are passed over, or from an
array of its fields in their order.  A field that is missing has its default, if it has
one; `null` stands for nothing only where a field is optional.  Nothing is converted: a
number is not a text, and `1.0` is not an integer.
-/
import TestTransform.Json.Value

namespace TestTransform
namespace Json

def asText? : Json → Option Text
  | .str t => some t
  | _ => none

def asBool? : Json → Option Bool
  | .bool b => some b
  | _ => none

/-- A natural number below `2 ^ 32`. -/
def asNat32? : Json → Option Nat
  | .num (.int i) => if 0 ≤ i && i < 4294967296 then some i.toNat else none
  | _ => none

def asFields? : Json → Option Fields
  | .obj fields => some fields
  | _ => none

def items? {α : Type} (f : Json → Option α) : Json → Option (List α)
  | .arr xs => xs.mapM f
  | _ => none

def asTexts? : Json → Option (List Text) := items? asText?

/-- `null`, or what `f` reads. -/
def nullable? {α : Type} (f : Json → Option α) : Json → Option (Option α)
  | .null => some none
  | j => (f j).map some

/-! ## Records -/

/-- The values of the fields called by one of `names`. -/
def namedValues (names : List Text) (fields : Fields) : List Json :=
  (fields.filter fun e => names.contains e.1).map (·.2)

/-- The value of the field called by one of `names`; two such fields are refused. -/
def uniqueField? (fields : Fields) (names : List Text) : Option (Option Json) :=
  match namedValues names fields with
  | [] => some none
  | [x] => some (some x)
  | _ => none

/-- The first `n` items and, for those that are missing, nothing; further ones are
refused. -/
def positional? : (n : Nat) → List Json → Option (List (Option Json))
  | 0, [] => some []
  | 0, _ :: _ => none
  | n + 1, [] => (positional? n []).map (none :: ·)
  | n + 1, x :: xs => (positional? n xs).map (some x :: ·)

/-- The values of a record's fields, each of which is given by the names it goes by. -/
def record? (names : List (List Text)) : Json → Option (List (Option Json))
  | .obj fields => names.mapM (uniqueField? fields)
  | .arr items => positional? names.length items
  | _ => none

def required? {α : Type} (f : Json → Option α) : Option Json → Option α
  | none => none
  | some j => f j

def optional? {α : Type} (f : Json → Option α) : Option Json → Option (Option α)
  | none => some none
  | some j => nullable? f j

def defaulted? {α : Type} (default : α) (f : Json → Option α) : Option Json → Option α
  | none => some default
  | some j => f j

end Json
end TestTransform
