/-
The numbers in a value.

A reader gives integers of 64 bits and floats in their normal spelling only, and putting a
value into canonical form adds no number.  Among values with such numbers the compact text
tells everything apart.
-/
import TestTransform.Proofs.Json.Canon
import TestTransform.Proofs.Json.Numeral

namespace TestTransform
namespace Json

/-! ## Numbers that are read -/

namespace Numeral

theorem gather_le {n : Nat} (hn : n ≤ maxSignificand) (t : Text) :
    (gather n t).1 ≤ maxSignificand := by
  induction t generalizing n with
  | nil => exact hn
  | cons c t ih =>
    rw [gather]
    split
    · rename_i h
      exact ih h
    · exact hn

theorem isNormal_of_scale? {fuel : Nat} {x y : Binary64} {e : Int} (hx : x.IsNormal)
    (h : scale? fuel x e = some y) : y.IsNormal := by
  have hpower : ∀ n p, Binary64.ofNat? (Nat.pow 10 n) = some p → p.significand ≠ 0 :=
    fun n p hp => Binary64.significand_of_ofNat? (Nat.pow_pos (by omega)).ne' hp
  induction fuel generalizing x e with
  | zero =>
    rw [scale?] at h
    rwa [← Option.some.inj h]
  | succ fuel ih =>
    rw [scale?] at h
    split at h
    · obtain ⟨p, hp, h⟩ := Option.bind_eq_some_iff.mp h
      split at h
      · exact Binary64.isNormal_of_div? (hpower _ p hp) h
      · exact Binary64.isNormal_of_mul? h
    · split at h
      · rwa [← Option.some.inj h]
      · split at h
        · cases h
        · obtain ⟨p, hp, h⟩ := Option.bind_eq_some_iff.mp h
          obtain ⟨z, hz, h⟩ := Option.bind_eq_some_iff.mp h
          exact ih (Binary64.isNormal_of_div? (hpower _ p hp) hz) h

theorem isMachine_of_float? {negative : Bool} {significand : Nat} {e : Int} {v : Number}
    (h : float? negative significand e = some v) : v.IsMachine := by
  rw [float?] at h
  obtain ⟨x, hx, h⟩ := Option.bind_eq_some_iff.mp h
  obtain ⟨y, hy, rfl⟩ := Option.map_eq_some_iff.mp h
  exact (isNormal_of_scale? (Binary64.isNormal_of_ofNat? hx) hy).signed negative

theorem isMachine_of_withExponent? {negative : Bool} {significand : Nat} {start : Int}
    {e : Option (Bool × Text)} {v : Number}
    (h : withExponent? negative significand start e = some v) : v.IsMachine := by
  cases e with
  | none => exact isMachine_of_float? h
  | some e =>
    rw [withExponent?] at h
    split at h
    · split at h
      · cases h
      · cases h
        exact Binary64.isNormal_zero negative
    · exact isMachine_of_float? h

theorem isMachine_of_value? {n : Numeral} {v : Number} (h : n.value? = some v) :
    v.IsMachine := by
  have hgather := gather_le (Nat.zero_le _) n.whole
  rw [maxSignificand] at hgather
  rw [value?] at h
  generalize gather 0 n.whole = g at hgather h
  obtain ⟨significand, dropped⟩ := g
  have hmax : Nat.pow 2 64 - 1 = 2 ^ 64 - 1 := rfl
  have hhalf : Nat.pow 2 63 = 2 ^ 63 := rfl
  dsimp only at h hgather
  split at h
  · split at h
    · exact isMachine_of_float? h
    · split at h
      · cases h
        constructor <;> omega
      · split at h
        · rename_i hrange
          cases h
          simp only [Bool.and_eq_true, decide_eq_true_eq, hhalf] at hrange
          constructor <;> omega
        · exact isMachine_of_float? h
  · exact isMachine_of_withExponent? h
  · exact isMachine_of_withExponent? h

end Numeral

/-! ## All numbers of a value -/

mutual

def numbers : Json → List Number
  | .num n => [n]
  | .arr xs => itemNumbers xs
  | .obj fs => fieldNumbers fs
  | _ => []

def itemNumbers : List Json → List Number
  | [] => []
  | x :: xs => numbers x ++ itemNumbers xs

def fieldNumbers : Fields → List Number
  | [] => []
  | (_, x) :: fs => numbers x ++ fieldNumbers fs

end

theorem mem_itemNumbers {n : Number} {xs : List Json} :
    n ∈ itemNumbers xs ↔ ∃ x ∈ xs, n ∈ numbers x := by
  induction xs with
  | nil => simp [itemNumbers]
  | cons x xs ih => simp [itemNumbers, ih]

theorem mem_fieldNumbers {n : Number} {fs : Fields} :
    n ∈ fieldNumbers fs ↔ ∃ f ∈ fs, n ∈ numbers f.2 := by
  induction fs with
  | nil => simp [fieldNumbers]
  | cons f fs ih =>
    obtain ⟨k, x⟩ := f
    rw [fieldNumbers, List.mem_append, ih]
    simp

/-- Whether all numbers of a value are such as a reader gives. -/
def IsMachine (j : Json) : Prop := ∀ n ∈ numbers j, n.IsMachine

instance (j : Json) : Decidable (IsMachine j) :=
  inferInstanceAs (Decidable (∀ n ∈ numbers j, n.IsMachine))

theorem isMachine_arr {xs : List Json} : IsMachine (.arr xs) ↔ ∀ x ∈ xs, IsMachine x := by
  constructor
  · intro h x hx n hn
    exact h n (mem_itemNumbers.mpr ⟨x, hx, hn⟩)
  · intro h n hn
    obtain ⟨x, hx, hn⟩ := mem_itemNumbers.mp hn
    exact h x hx n hn

theorem isMachine_obj {fs : Fields} : IsMachine (.obj fs) ↔ ∀ f ∈ fs, IsMachine f.2 := by
  constructor
  · intro h f hf n hn
    exact h n (mem_fieldNumbers.mpr ⟨f, hf, hn⟩)
  · intro h n hn
    obtain ⟨f, hf, hn⟩ := mem_fieldNumbers.mp hn
    exact h f hf n hn

mutual

/-- Canonical form adds no number. -/
theorem numbers_canon : ∀ (j : Json), ∀ n ∈ numbers (canon j), n ∈ numbers j
  | .null, _, hn | .bool _, _, hn | .num _, _, hn | .str _, _, hn => hn
  | .arr xs, n, hn => by
    rw [canon, numbers] at hn
    exact itemNumbers_canon xs n hn
  | .obj fs, n, hn => by
    rw [canon, numbers] at hn
    obtain ⟨f, hf, hn⟩ := mem_fieldNumbers.mp hn
    apply fieldNumbers_canon fs n
    rcases exists_of_mem_insertAll hf with ⟨g, hg, -⟩ | ⟨g, hg, hvalue⟩
    · cases hg
    · exact mem_fieldNumbers.mpr ⟨g, hg, hvalue ▸ hn⟩

theorem itemNumbers_canon : ∀ (xs : List Json), ∀ n ∈ itemNumbers (canonItems xs),
    n ∈ itemNumbers xs
  | [], _, hn => hn
  | x :: xs, n, hn => by
    rw [canonItems, itemNumbers, List.mem_append] at hn
    rw [itemNumbers, List.mem_append]
    exact hn.imp (numbers_canon x n) (itemNumbers_canon xs n)

theorem fieldNumbers_canon : ∀ (fs : Fields), ∀ n ∈ fieldNumbers (canonFields fs),
    n ∈ fieldNumbers fs
  | [], _, hn => hn
  | (k, x) :: fs, n, hn => by
    rw [canonFields, fieldNumbers, List.mem_append] at hn
    rw [fieldNumbers, List.mem_append]
    exact hn.imp (numbers_canon x n) (fieldNumbers_canon fs n)

end

theorem IsMachine.canon {j : Json} (h : IsMachine j) : IsMachine j.canon :=
  fun n hn => h n (numbers_canon j n hn)

/-! ## Values that are read -/

mutual

theorem isMachine_of_value? : ∀ {depth : Nat} (f : Form) {j : Json},
    f.value? depth = some j → IsMachine j
  | _, .null, _, h | _, .bool _, _, h => by
    cases h
    exact fun n hn => by cases hn
  | _, .num _, _, h => by
    obtain ⟨v, hv, rfl⟩ := Option.map_eq_some_iff.mp h
    intro n hn
    rw [List.mem_singleton.mp hn]
    exact Numeral.isMachine_of_value? hv
  | _, .str _, _, h => by
    obtain ⟨t, -, rfl⟩ := Option.map_eq_some_iff.mp h
    exact fun n hn => by cases hn
  | 0, .arr _, _, h | 0, .obj _, _, h => by cases h
  | _ + 1, .arr xs, _, h => by
    obtain ⟨vs, hvs, rfl⟩ := Option.map_eq_some_iff.mp h
    exact isMachine_arr.mpr (isMachine_of_itemValues? xs hvs)
  | _ + 1, .obj fs, _, h => by
    obtain ⟨vs, hvs, rfl⟩ := Option.map_eq_some_iff.mp h
    exact isMachine_obj.mpr (isMachine_of_fieldValues? fs hvs)

theorem isMachine_of_itemValues? : ∀ {depth : Nat} (xs : List Form) {vs : List Json},
    Form.itemValues? depth xs = some vs → ∀ v ∈ vs, IsMachine v
  | _, [], _, h => by
    cases h
    exact fun v hv => by cases hv
  | depth, x :: xs, vs, h => by
    rw [Form.itemValues?] at h
    split at h
    · rename_i v vs' hv hvs'
      cases h
      exact List.forall_mem_cons.mpr ⟨isMachine_of_value? x hv, isMachine_of_itemValues? xs hvs'⟩
    · cases h

theorem isMachine_of_fieldValues? : ∀ {depth : Nat} (fs : List (List Letter × Form))
    {vs : Fields}, Form.fieldValues? depth fs = some vs → ∀ v ∈ vs, IsMachine v.2
  | _, [], _, h => by
    cases h
    exact fun v hv => by cases hv
  | depth, (name, x) :: fs, vs, h => by
    rw [Form.fieldValues?] at h
    split at h
    · rename_i k v vs' hk hv hvs'
      cases h
      exact List.forall_mem_cons.mpr ⟨isMachine_of_value? x hv, isMachine_of_fieldValues? fs hvs'⟩
    · cases h

end

theorem isMachine_of_ofText? {t : Text} {j : Json} (h : ofText? t = some j) : IsMachine j := by
  obtain ⟨raw, hraw, rfl⟩ := Option.map_eq_some_iff.mp h
  obtain ⟨f, -, hvalue⟩ := Option.bind_eq_some_iff.mp hraw
  exact (isMachine_of_value? f hvalue).canon

/-! ## Compact texts of such values -/

mutual

/-- Different values are written differently. -/
theorem compact_injective : ∀ (x y : Json), IsMachine x → IsMachine y →
    compact x = compact y → x = y
  | .null, _, _, _, h => (eq_of_compact_null h).symm
  | .bool _, _, _, _, h => (eq_of_compact_bool h).symm
  | .str _, _, _, _, h => (eq_of_compact_str h).symm
  | .num m, y, hx, hy, h => by
    obtain ⟨n, rfl⟩ := exists_num_of_kind (kind_eq_of_compact h)
    rw [Number.text_injective (hx m (List.mem_singleton_self m))
      (hy n (List.mem_singleton_self n)) h]
  | .arr xs, y, hx, hy, h => by
    obtain ⟨ys, rfl, hitems⟩ := exists_arr_of_compact h
    rw [items_injective xs ys (isMachine_arr.mp hx) (isMachine_arr.mp hy) hitems]
  | .obj fs, y, hx, hy, h => by
    obtain ⟨gs, rfl, hfields⟩ := exists_obj_of_compact h
    rw [fields_injective fs gs (isMachine_obj.mp hx) (isMachine_obj.mp hy) hfields]

theorem items_injective : ∀ (xs ys : List Json), (∀ x ∈ xs, IsMachine x) →
    (∀ y ∈ ys, IsMachine y) → xs.map compact = ys.map compact → xs = ys
  | [], [], _, _, _ => rfl
  | [], _ :: _, _, _, h | _ :: _, [], _, _, h => by cases h
  | x :: xs, y :: ys, hx, hy, h => by
    obtain ⟨hx, hxs⟩ := List.forall_mem_cons.mp hx
    obtain ⟨hy, hys⟩ := List.forall_mem_cons.mp hy
    rw [List.map_cons, List.map_cons, List.cons.injEq] at h
    rw [compact_injective x y hx hy h.1, items_injective xs ys hxs hys h.2]

theorem fields_injective : ∀ (fs gs : Fields), (∀ f ∈ fs, IsMachine f.2) →
    (∀ g ∈ gs, IsMachine g.2) → spelled fs = spelled gs → fs = gs
  | [], [], _, _, _ => rfl
  | [], _ :: _, _, _, h | _ :: _, [], _, _, h => by cases h
  | (k, x) :: fs, (l, y) :: gs, hf, hg, h => by
    obtain ⟨hx, hfs⟩ := List.forall_mem_cons.mp hf
    obtain ⟨hy, hgs⟩ := List.forall_mem_cons.mp hg
    simp only [spelled, List.map_cons, List.cons.injEq, Prod.mk.injEq] at h
    rw [h.1.1, compact_injective x y hx hy h.1.2, fields_injective fs gs hfs hgs h.2]

end

end Json
end TestTransform
