/-
Answers that are computed once and remembered.
-/
import TestTransform.Order.Assoc

namespace TestTransform

/-- Answers remembered under keys that may be equal without being the same. -/
structure Memo (κ υ : Type) where
  entries : List (κ × υ) := []
  deriving Repr, Inhabited

namespace Memo

variable {κ υ : Type}

/-- The remembered answer or, if there is none, the computed one, which is remembered. -/
def ask (cmp : κ → κ → Ordering) (compute : κ → υ) (m : Memo κ υ) (k : κ) : υ × Memo κ υ :=
  match Assoc.find? cmp k m.entries with
  | some v => (v, m)
  | none => (compute k, ⟨Assoc.insert cmp k (compute k) m.entries⟩)

end Memo

end TestTransform
