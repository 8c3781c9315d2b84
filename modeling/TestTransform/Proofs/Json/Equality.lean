/-
When values are equal as values.

A value equals itself.  The other way round, equal values are written alike as long as their
numbers are such as a reader gives and no zero has a sign.
-/
import TestTransform.Proofs.Json.Numbers

namespace TestTransform
namespace Json

/-- Whether a number is no negative zero. -/
def Number.IsPlain : Number → Prop
  | .int _ => True
  | .float x => x.significand = 0 → x.negative = false

theorem Number.eq_of_same {m n : Number} (hm : m.IsMachine) (hn : n.IsMachine)
    (hm' : m.IsPlain) (hn' : n.IsPlain) (h : m.same n = true) : m = n := by
  cases m with
  | int i =>
    cases n with
    | int j => simpa [Number.same] using h
    | float y => cases h
  | float x =>
    cases n with
    | int j => cases h
    | float y =>
      simp only [Number.same, Binary64.same, Bool.or_eq_true, Bool.and_eq_true] at h
      rcases h with h | ⟨hx, hy⟩
      · rw [LawfulBEq.eq_of_beq h]
      · replace hx : x.significand = 0 := LawfulBEq.eq_of_beq hx
        replace hy : y.significand = 0 := LawfulBEq.eq_of_beq hy
        have hzero : ∀ z : Binary64, z.IsNormal → z.significand = 0 → z.negative = false →
            z = Binary64.zero false := by
          rintro ⟨negative, significand, exponent⟩ hz rfl rfl
          have hexponent : exponent = -1074 := hz.full.resolve_left (by simp)
          rw [hexponent]
          rfl
        rw [hzero x hm hx (hm' hx), hzero y hn hy (hn' hy)]

theorem Number.same_refl (n : Number) : n.same n = true := by
  cases n with
  | int i => simp [Number.same]
  | float x => simp [Number.same, Binary64.same]

mutual

theorem same_refl : ∀ (j : Json), same j j = true
  | .null => rfl
  | .bool b => by simp [same]
  | .num n => by rw [same, Number.same_refl]
  | .str t => by simp [same]
  | .arr xs => by rw [same, sameItems_refl xs]
  | .obj fs => by rw [same, sameFields_refl fs]

theorem sameItems_refl : ∀ (xs : List Json), sameItems xs xs = true
  | [] => rfl
  | x :: xs => by rw [sameItems, same_refl x, sameItems_refl xs, Bool.true_and]

theorem sameFields_refl : ∀ (fs : Fields), sameFields fs fs = true
  | [] => rfl
  | (k, x) :: fs => by
    rw [sameFields, same_refl x, sameFields_refl fs, beq_self_eq_true]
    rfl

end

/-- Whether the numbers of a value are such as a reader gives, without negative zeros. -/
def IsPlain (j : Json) : Prop := ∀ n ∈ numbers j, n.IsMachine ∧ n.IsPlain

mutual

theorem eq_of_same : ∀ (x y : Json), IsPlain x → IsPlain y → same x y = true → x = y
  | .null, .null, _, _, _ => rfl
  | .bool a, .bool b, _, _, h => by rw [LawfulBEq.eq_of_beq (α := Bool) h]
  | .num m, .num n, hx, hy, h => by
    obtain ⟨hm, hm'⟩ := hx m (List.mem_singleton_self m)
    obtain ⟨hn, hn'⟩ := hy n (List.mem_singleton_self n)
    rw [Number.eq_of_same hm hn hm' hn' h]
  | .str s, .str t, _, _, h => by rw [LawfulBEq.eq_of_beq (α := Text) h]
  | .arr xs, .arr ys, hx, hy, h => by rw [items_eq_of_same xs ys hx hy h]
  | .obj fs, .obj gs, hx, hy, h => by rw [fields_eq_of_same fs gs hx hy h]
  | .null, .bool _, _, _, h | .null, .num _, _, _, h | .null, .str _, _, _, h
  | .null, .arr _, _, _, h | .null, .obj _, _, _, h | .bool _, .null, _, _, h
  | .bool _, .num _, _, _, h | .bool _, .str _, _, _, h | .bool _, .arr _, _, _, h
  | .bool _, .obj _, _, _, h | .num _, .null, _, _, h | .num _, .bool _, _, _, h
  | .num _, .str _, _, _, h | .num _, .arr _, _, _, h | .num _, .obj _, _, _, h
  | .str _, .null, _, _, h | .str _, .bool _, _, _, h | .str _, .num _, _, _, h
  | .str _, .arr _, _, _, h | .str _, .obj _, _, _, h | .arr _, .null, _, _, h
  | .arr _, .bool _, _, _, h | .arr _, .num _, _, _, h | .arr _, .str _, _, _, h
  | .arr _, .obj _, _, _, h | .obj _, .null, _, _, h | .obj _, .bool _, _, _, h
  | .obj _, .num _, _, _, h | .obj _, .str _, _, _, h | .obj _, .arr _, _, _, h => by cases h

theorem items_eq_of_same : ∀ (xs ys : List Json), (∀ n ∈ itemNumbers xs, n.IsMachine ∧ n.IsPlain) →
    (∀ n ∈ itemNumbers ys, n.IsMachine ∧ n.IsPlain) → sameItems xs ys = true → xs = ys
  | [], [], _, _, _ => rfl
  | [], _ :: _, _, _, h | _ :: _, [], _, _, h => by cases h
  | x :: xs, y :: ys, hx, hy, h => by
    obtain ⟨hx, hxs⟩ := List.forall_mem_append.mp hx
    obtain ⟨hy, hys⟩ := List.forall_mem_append.mp hy
    rw [sameItems, Bool.and_eq_true] at h
    rw [eq_of_same x y hx hy h.1, items_eq_of_same xs ys hxs hys h.2]

theorem fields_eq_of_same : ∀ (fs gs : Fields), (∀ n ∈ fieldNumbers fs, n.IsMachine ∧ n.IsPlain) →
    (∀ n ∈ fieldNumbers gs, n.IsMachine ∧ n.IsPlain) → sameFields fs gs = true → fs = gs
  | [], [], _, _, _ => rfl
  | [], _ :: _, _, _, h | _ :: _, [], _, _, h => by cases h
  | (k, x) :: fs, (l, y) :: gs, hf, hg, h => by
    obtain ⟨hx, hfs⟩ := List.forall_mem_append.mp hf
    obtain ⟨hy, hgs⟩ := List.forall_mem_append.mp hg
    rw [sameFields, Bool.and_eq_true, Bool.and_eq_true] at h
    rw [LawfulBEq.eq_of_beq h.1.1, eq_of_same x y hx hy h.1.2, fields_eq_of_same fs gs hfs hgs h.2]

end

end Json
end TestTransform
