/-
The orders of texts, components and paths are total preorders; that of texts and that of
components tell all values apart, that of paths exactly the paths whose components differ.
-/
import TestTransform.Path.Basic

namespace TestTransform

open Std

/-! ## Texts -/

namespace Text

theorem cmp_eq_compareLex (s t : Text) :
    cmp s t = List.compareLex (compareOn Char.toNat) s t := by
  induction s generalizing t with
  | nil => cases t <;> rfl
  | cons a s ih =>
    cases t with
    | nil => rfl
    | cons b t =>
      rw [cmp, List.compareLex_cons_cons, ← ih, compareOn]
      rcases Nat.lt_trichotomy a.toNat b.toNat with h | h | h
      · simp [h, Nat.compare_eq_lt.mpr h]
      · simp [h]
      · simp [Nat.lt_asymm h, h, Nat.compare_eq_gt.mpr h]

theorem cmp_eq_compareLex' : cmp = List.compareLex (compareOn Char.toNat) := by
  funext s t
  exact cmp_eq_compareLex s t

instance : TransCmp cmp := by
  rw [cmp_eq_compareLex']
  infer_instance

instance : LawfulEqCmp (compareOn Char.toNat) where
  compare_self := by simp [compareOn]
  eq_of_compare h := Char.toNat_inj.mp (by simpa [compareOn] using h)

instance : LawfulEqCmp cmp := by
  rw [cmp_eq_compareLex']
  infer_instance

end Text

/-! ## Components -/

namespace Component

/-- The name of a component; the other kinds have none. -/
def nameOf : Component → Text
  | normal name => name
  | _ => []

theorem cmp_eq_compareLex (a b : Component) :
    cmp a b = compareLex (compareOn rank) (fun a b => Text.cmp a.nameOf b.nameOf) a b := by
  cases a <;> cases b <;> rfl

theorem cmp_eq_compareLex' :
    cmp = compareLex (compareOn rank) (fun a b => Text.cmp a.nameOf b.nameOf) := by
  funext a b
  exact cmp_eq_compareLex a b

instance : TransCmp fun a b : Component => Text.cmp a.nameOf b.nameOf where
  eq_swap := OrientedCmp.eq_swap
  isLE_trans := TransCmp.isLE_trans

instance : TransCmp cmp := by
  rw [cmp_eq_compareLex']
  infer_instance

instance : LawfulEqCmp cmp where
  compare_self := ReflCmp.compare_self
  eq_of_compare {a b} h := by
    cases a <;> cases b <;> first | rfl | (simp [cmp, rank] at h; done) | skip
    rename_i s t
    exact congrArg normal (LawfulEqCmp.eq_of_compare h)

end Component

/-! ## Paths -/

namespace Path

theorem cmpComponents_eq_compareLex (a b : List Component) :
    cmpComponents a b = List.compareLex Component.cmp a b := by
  induction a generalizing b with
  | nil => cases b <;> rfl
  | cons a s ih =>
    cases b with
    | nil => rfl
    | cons b t =>
      rw [cmpComponents, List.compareLex_cons_cons, ← ih]
      cases a.cmp b <;> rfl

theorem cmp_eq_compareLex (p q : Path) :
    p.cmp q = List.compareLex Component.cmp p.components q.components :=
  cmpComponents_eq_compareLex _ _

instance : TransCmp cmp where
  eq_swap {p q} := by
    rw [cmp_eq_compareLex, cmp_eq_compareLex]
    exact OrientedCmp.eq_swap
  isLE_trans {p q r} hpq hqr := by
    rw [cmp_eq_compareLex] at *
    exact TransCmp.isLE_trans hpq hqr

theorem cmp_eq_iff {p q : Path} : p.cmp q = .eq ↔ p.components = q.components := by
  rw [cmp_eq_compareLex]
  exact LawfulEqCmp.compare_eq_iff_eq

/-- Two spellings are of the same path exactly when the order does not tell them apart. -/
theorem cmp_eq_iff_same {p q : Path} : p.cmp q = .eq ↔ p.same q = true := by
  rw [cmp_eq_iff, same, beq_iff_eq]

theorem same_iff {p q : Path} : p.same q = true ↔ p.components = q.components := by
  rw [same, beq_iff_eq]

theorem same_refl (p : Path) : p.same p = true := same_iff.mpr rfl

theorem same_comm (p q : Path) : p.same q = q.same p := by
  rw [Bool.eq_iff_iff, same_iff, same_iff, eq_comm]

end Path
end TestTransform
