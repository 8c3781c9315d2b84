/-
JSON values.

An object is a list of fields.  As read it has them in the order of the text, repeated
names included; `canon` sorts the names and lets the last of equal ones win, and most of
the library works on values of that form.
-/
import TestTransform.Json.Number
import TestTransform.Order.Assoc

namespace TestTransform

inductive Json where
  | null
  | bool (value : Bool)
  | num (value : Json.Number)
  | str (value : Text)
  | arr (items : List Json)
  | obj (fields : List (Text × Json))
  deriving Repr, Inhabited

namespace Json

/-- The field list of a value object. -/
abbrev Fields := List (Text × Json)

/-! ## Equality -/

mutual

/-- Whether two values are the same value: equal text, equal order. -/
def beq : Json → Json → Bool
  | .null, .null => true
  | .bool a, .bool b => a == b
  | .num a, .num b => a == b
  | .str a, .str b => a == b
  | .arr xs, .arr ys => beqItems xs ys
  | .obj xs, .obj ys => beqFields xs ys
  | _, _ => false

def beqItems : List Json → List Json → Bool
  | [], [] => true
  | x :: xs, y :: ys => beq x y && beqItems xs ys
  | _, _ => false

def beqFields : Fields → Fields → Bool
  | [], [] => true
  | (k, x) :: xs, (l, y) :: ys => k == l && beq x y && beqFields xs ys
  | _, _ => false

end

mutual

theorem beq_refl : ∀ a : Json, beq a a = true
  | .null => rfl
  | .bool a => by simp [beq]
  | .num a => by simp [beq]
  | .str a => by simp [beq]
  | .arr xs => by simpa [beq] using beqItems_refl xs
  | .obj xs => by simpa [beq] using beqFields_refl xs

theorem beqItems_refl : ∀ xs : List Json, beqItems xs xs = true
  | [] => rfl
  | x :: xs => by simp [beqItems, beq_refl x, beqItems_refl xs]

theorem beqFields_refl : ∀ xs : Fields, beqFields xs xs = true
  | [] => rfl
  | (k, x) :: xs => by simp [beqFields, beq_refl x, beqFields_refl xs]

end

mutual

theorem eq_of_beq : ∀ (a b : Json), beq a b = true → a = b
  | .null, .null, _ => rfl
  | .bool a, .bool b, h => by simpa [beq] using h
  | .num a, .num b, h => by simpa [beq] using h
  | .str a, .str b, h => by simpa [beq] using h
  | .arr xs, .arr ys, h => congrArg Json.arr (eq_of_beqItems xs ys (by simpa [beq] using h))
  | .obj xs, .obj ys, h => congrArg Json.obj (eq_of_beqFields xs ys (by simpa [beq] using h))
  | .null, .bool _, h | .null, .num _, h | .null, .str _, h | .null, .arr _, h
  | .null, .obj _, h | .bool _, .null, h | .bool _, .num _, h | .bool _, .str _, h
  | .bool _, .arr _, h | .bool _, .obj _, h | .num _, .null, h | .num _, .bool _, h
  | .num _, .str _, h | .num _, .arr _, h | .num _, .obj _, h | .str _, .null, h
  | .str _, .bool _, h | .str _, .num _, h | .str _, .arr _, h | .str _, .obj _, h
  | .arr _, .null, h | .arr _, .bool _, h | .arr _, .num _, h | .arr _, .str _, h
  | .arr _, .obj _, h | .obj _, .null, h | .obj _, .bool _, h | .obj _, .num _, h
  | .obj _, .str _, h | .obj _, .arr _, h => by simp [beq] at h

theorem eq_of_beqItems : ∀ xs ys : List Json, beqItems xs ys = true → xs = ys
  | [], [], _ => rfl
  | [], _ :: _, h | _ :: _, [], h => by simp [beqItems] at h
  | x :: xs, y :: ys, h => by
    simp only [beqItems, Bool.and_eq_true] at h
    rw [eq_of_beq x y h.1, eq_of_beqItems xs ys h.2]

theorem eq_of_beqFields : ∀ xs ys : Fields, beqFields xs ys = true → xs = ys
  | [], [], _ => rfl
  | [], _ :: _, h | _ :: _, [], h => by simp [beqFields] at h
  | (k, x) :: xs, (l, y) :: ys, h => by
    simp only [beqFields, Bool.and_eq_true, beq_iff_eq] at h
    rw [h.1.1, eq_of_beq x y h.1.2, eq_of_beqFields xs ys h.2]

end

theorem beq_iff_eq {a b : Json} : beq a b = true ↔ a = b :=
  ⟨eq_of_beq a b, fun h => h ▸ beq_refl a⟩

instance : DecidableEq Json := fun _ _ => decidable_of_iff _ beq_iff_eq

/-! ## Canonical form and numeric equality -/

mutual

/-- Sorts the fields of every object; of equal names the last one wins. -/
def canon : Json → Json
  | .arr xs => .arr (canonItems xs)
  | .obj fields => .obj (Assoc.insertAll Text.cmp [] (canonFields fields))
  | j => j

def canonItems : List Json → List Json
  | [] => []
  | x :: xs => canon x :: canonItems xs

def canonFields : Fields → Fields
  | [] => []
  | (k, x) :: xs => (k, canon x) :: canonFields xs

end

mutual

/-- Equality that compares numbers as numbers, so that the two float zeros are equal. -/
def same : Json → Json → Bool
  | .null, .null => true
  | .bool a, .bool b => a == b
  | .num a, .num b => a.same b
  | .str a, .str b => a == b
  | .arr xs, .arr ys => sameItems xs ys
  | .obj xs, .obj ys => sameFields xs ys
  | _, _ => false

def sameItems : List Json → List Json → Bool
  | [], [] => true
  | x :: xs, y :: ys => same x y && sameItems xs ys
  | _, _ => false

def sameFields : Fields → Fields → Bool
  | [], [] => true
  | (k, x) :: xs, (l, y) :: ys => k == l && same x y && sameFields xs ys
  | _, _ => false

end

/-! ## Building and looking -/

/-- The value of a field. -/
def field? (name : Text) (fields : Fields) : Option Json := Assoc.find? Text.cmp name fields

def ofNat (n : Nat) : Json := .num (.int n)

/-- A list of texts as an array. -/
def ofTexts (ts : List Text) : Json := .arr (ts.map .str)

/-- A field, unless it has no value. -/
def optionalField {α : Type} (name : Text) (f : α → Json) : Option α → Fields
  | none => []
  | some a => [(name, f a)]

/-- `null` for nothing. -/
def ofOption {α : Type} (f : α → Json) : Option α → Json
  | none => .null
  | some a => f a

end Json
end TestTransform
