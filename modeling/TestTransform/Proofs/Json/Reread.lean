/-
A value is read back from its compact text.

Its form is found whatever stands behind the text.  The form has the value again if its
brackets do not nest deeper than the reader goes, and if each number is the one that its own
numeral stands for.  Integers always are; for floats the reader rounds more than once, so for
them it is something to be asked for.
-/
import TestTransform.Proofs.Json.Numbers
import TestTransform.Proofs.Json.Reading

namespace TestTransform
namespace Json

open Form

/-! ## Numbers -/

namespace Numeral

theorem gather_of_le {n : Nat} {t : Text}
    (h : n * 10 ^ t.length + Text.digitsValue t ≤ maxSignificand) :
    gather n t = (n * 10 ^ t.length + Text.digitsValue t, []) := by
  induction t generalizing n with
  | nil => simp [gather, Text.digitsValue]
  | cons c t ih =>
    have hvalue : n * 10 ^ (c :: t).length + Text.digitsValue (c :: t) =
        (10 * n + Text.digitValue c) * 10 ^ t.length + Text.digitsValue t := by
      rw [← List.singleton_append, Text.digitsValue_append, List.length_append, Nat.pow_add]
      simp [Text.digitsValue]
      ring
    rw [hvalue] at h ⊢
    have hstep : 10 * n + Text.digitValue c ≤ maxSignificand :=
      (Nat.le_mul_of_pos_right _ (Nat.pow_pos (by omega))).trans ((Nat.le_add_right _ _).trans h)
    rw [gather]
    simp only [hstep, if_true]
    exact ih h

theorem value?_ofInt {i : Int} (h : -2 ^ 63 ≤ i ∧ i < 2 ^ 64) :
    (ofInt i).value? = some (.int i) := by
  have hmax : maxSignificand = 2 ^ 64 - 1 := rfl
  have hhalf : Nat.pow 2 63 = 2 ^ 63 := rfl
  have hgather : gather 0 (Text.ofNat i.natAbs) = (i.natAbs, []) := by
    have hvalue := gather_of_le (n := 0) (t := Text.ofNat i.natAbs)
      (by rw [Text.digitsValue_ofNat]; omega)
    rwa [Text.digitsValue_ofNat, Nat.zero_mul, Nat.zero_add] at hvalue
  simp only [value?, ofInt, hgather]
  by_cases hi : i < 0
  · have hrange : 1 ≤ i.natAbs ∧ i.natAbs ≤ 2 ^ 63 := by omega
    have habs : -(i.natAbs : Int) = i := by omega
    simp only [hi, hhalf, hrange, habs, ne_eq, not_true_eq_false, if_false, decide_true,
      Bool.not_true, Bool.false_eq_true, Bool.and_self, if_true]
  · have habs : (i.natAbs : Int) = i := by omega
    simp [hi, habs]

end Numeral

/-- Whether a number is the one that its own numeral stands for. -/
def Number.Rereads (n : Number) : Prop := n.numeral.value? = some n

instance (n : Number) : Decidable n.Rereads := inferInstanceAs (Decidable (_ = _))

theorem Number.rereads_int {i : Int} (h : (Number.int i).IsMachine) : (Number.int i).Rereads :=
  Numeral.value?_ofInt h

/-- Whether all numbers of a value are read back as they are. -/
def Rereads (j : Json) : Prop := ∀ n ∈ numbers j, n.Rereads

theorem Rereads.isMachine {j : Json} (h : Rereads j) : IsMachine j :=
  fun n hn => Numeral.isMachine_of_value? (h n hn)

theorem rereads_arr {xs : List Json} : Rereads (.arr xs) ↔ ∀ x ∈ xs, Rereads x := by
  constructor
  · intro h x hx n hn
    exact h n (mem_itemNumbers.mpr ⟨x, hx, hn⟩)
  · intro h n hn
    obtain ⟨x, hx, hn⟩ := mem_itemNumbers.mp hn
    exact h x hx n hn

theorem rereads_obj {fs : Fields} : Rereads (.obj fs) ↔ ∀ f ∈ fs, Rereads f.2 := by
  constructor
  · intro h f hf n hn
    exact h n (mem_fieldNumbers.mpr ⟨f, hf, hn⟩)
  · intro h n hn
    obtain ⟨f, hf, hn⟩ := mem_fieldNumbers.mp hn
    exact h f hf n hn

/-! ## Forms -/

mutual

/-- The form in which a value is written. -/
def formOf : Json → Form
  | .null => .null
  | .bool b => .bool b
  | .num n => .num n.numeral
  | .str t => .str (t.map letterOf)
  | .arr xs => .arr (itemForms xs)
  | .obj fs => .obj (fieldForms fs)

def itemForms : List Json → List Form
  | [] => []
  | x :: xs => formOf x :: itemForms xs

def fieldForms : Fields → List (List Letter × Form)
  | [] => []
  | (k, x) :: fs => (k.map letterOf, formOf x) :: fieldForms fs

end

theorem reads_null : Reads .null .null := by
  intro fuel rest hfuel _
  obtain ⟨fuel, rfl⟩ : ∃ n, fuel = n + 1 := ⟨fuel - 1, by simp [compact] at hfuel; omega⟩
  rfl

theorem reads_bool (b : Bool) : Reads (.bool b) (.bool b) := by
  intro fuel rest hfuel _
  obtain ⟨fuel, rfl⟩ : ∃ n, fuel = n + 1 := ⟨fuel - 1, by
    cases b <;> (simp [compact] at hfuel; omega)⟩
  cases b <;> rfl

theorem reads_num {n : Number} (h : n.IsMachine) : Reads (.num n) (.num n.numeral) := by
  intro fuel rest hfuel hrest
  have hpos := List.length_pos_iff.mpr (compact_ne_nil (.num n))
  obtain ⟨fuel, rfl⟩ : ∃ m, fuel = m + 1 := ⟨fuel - 1, by omega⟩
  have hnumeral : numeral? (compact (.num n) ++ rest) = some (n.numeral, rest) := by
    rw [compact, ← Number.spelled_numeral]
    exact Numeral.numeral?_spelled (Number.isProper_numeral h) hrest
  obtain ⟨c, tail, hcompact, hc⟩ := lead_compact (.num n)
  have hne : ∀ {d : Char} {tail' : Text}, compact (.num n) ++ rest = d :: tail' →
      leadKind d = 2 := by
    intro d tail' heq
    rw [hcompact, List.cons_append, List.cons.injEq] at heq
    rw [← heq.1, hc]
    rfl
  rw [parse?, skip_compact]
  split <;> first
    | (rename_i heq; exact absurd (hne heq) (by decide))
    | (rw [hnumeral]; rfl)

mutual

/-- What is written for a value is read as the form in which it is written. -/
theorem reads_formOf : ∀ (j : Json), IsMachine j → Reads j (formOf j)
  | .null, _ => reads_null
  | .bool b, _ => reads_bool b
  | .num n, h => reads_num (h n (List.mem_singleton_self n))
  | .str t, _ => reads_str t
  | .arr xs, h => reads_arr (reads_itemForms xs (isMachine_arr.mp h))
  | .obj fs, h => reads_obj (reads_fieldForms fs (isMachine_obj.mp h))

theorem reads_itemForms : ∀ (xs : List Json), (∀ x ∈ xs, IsMachine x) →
    List.Forall₂ Reads xs (itemForms xs)
  | [], _ => .nil
  | x :: xs, h =>
    have hsplit := List.forall_mem_cons.mp h
    .cons (reads_formOf x hsplit.1) (reads_itemForms xs hsplit.2)

theorem reads_fieldForms : ∀ (fs : Fields), (∀ f ∈ fs, IsMachine f.2) →
    List.Forall₂ ReadsField fs (fieldForms fs)
  | [], _ => .nil
  | (_, x) :: fs, h =>
    have hsplit := List.forall_mem_cons.mp h
    .cons ⟨rfl, reads_formOf x hsplit.1⟩ (reads_fieldForms fs hsplit.2)

end

/-! ## Values -/

mutual

/-- How deep the brackets of a value nest. -/
def nesting : Json → Nat
  | .arr xs => itemNesting xs + 1
  | .obj fs => fieldNesting fs + 1
  | _ => 0

def itemNesting : List Json → Nat
  | [] => 0
  | x :: xs => max (nesting x) (itemNesting xs)

def fieldNesting : Fields → Nat
  | [] => 0
  | (_, x) :: fs => max (nesting x) (fieldNesting fs)

end

theorem fieldNesting_le {fs : Fields} {depth : Nat} :
    fieldNesting fs ≤ depth ↔ ∀ f ∈ fs, nesting f.2 ≤ depth := by
  induction fs with
  | nil => simp [fieldNesting]
  | cons f fs ih =>
    obtain ⟨k, x⟩ := f
    rw [fieldNesting, max_le_iff, ih, List.forall_mem_cons]

mutual

/-- The form of a value has this value. -/
theorem value?_formOf : ∀ {depth : Nat} (j : Json), Rereads j → nesting j ≤ depth →
    (formOf j).value? depth = some j
  | _, .null, _, _ => by rw [formOf, value?]
  | _, .bool _, _, _ => by rw [formOf, value?]
  | _, .num n, h, _ => by
    have hn : n.numeral.value? = some n := h n (List.mem_singleton_self n)
    rw [formOf, value?, hn]
    rfl
  | _, .str t, _, _ => by
    rw [formOf, value?, text?_map_letterOf]
    rfl
  | 0, .arr _, _, hd => by cases hd
  | 0, .obj _, _, hd => by cases hd
  | depth + 1, .arr xs, h, hd => by
    rw [nesting] at hd
    rw [formOf, value?, itemValues?_itemForms xs (rereads_arr.mp h) (by omega)]
    rfl
  | depth + 1, .obj fs, h, hd => by
    rw [nesting] at hd
    rw [formOf, value?, fieldValues?_fieldForms fs (rereads_obj.mp h) (by omega)]
    rfl

theorem itemValues?_itemForms : ∀ {depth : Nat} (xs : List Json), (∀ x ∈ xs, Rereads x) →
    itemNesting xs ≤ depth → itemValues? depth (itemForms xs) = some xs
  | _, [], _, _ => rfl
  | depth, x :: xs, h, hd => by
    obtain ⟨hx, hxs⟩ := List.forall_mem_cons.mp h
    rw [itemNesting] at hd
    rw [itemForms, itemValues?, value?_formOf x hx (by omega),
      itemValues?_itemForms xs hxs (by omega)]

theorem fieldValues?_fieldForms : ∀ {depth : Nat} (fs : Fields), (∀ f ∈ fs, Rereads f.2) →
    fieldNesting fs ≤ depth → fieldValues? depth (fieldForms fs) = some fs
  | _, [], _, _ => rfl
  | depth, (k, x) :: fs, h, hd => by
    obtain ⟨hx, hfs⟩ := List.forall_mem_cons.mp h
    rw [fieldNesting] at hd
    rw [fieldForms, fieldValues?, text?_map_letterOf, value?_formOf x hx (by omega),
      fieldValues?_fieldForms fs hfs (by omega)]

end

/-- A value is read back from its compact text. -/
theorem ofTextRaw?_compact {j : Json} (h : Rereads j) (hd : nesting j ≤ maxDepth) :
    ofTextRaw? j.compact = some j := by
  rw [ofTextRaw?, (reads_formOf j h.isMachine).ofText?, Option.bind_some, value?_formOf j h hd]

/-! ## How deep a value that is read nests -/

mutual

/-- Canonical form does not nest deeper. -/
theorem nesting_canon : ∀ (j : Json), nesting (canon j) ≤ nesting j
  | .null | .bool _ | .num _ | .str _ => Nat.le_refl _
  | .arr xs => Nat.succ_le_succ (itemNesting_canon xs)
  | .obj fs => Nat.succ_le_succ (by
      apply fieldNesting_le.mpr
      intro f hf
      rcases exists_of_mem_insertAll hf with ⟨g, hg, -⟩ | ⟨g, hg, hvalue⟩
      · cases hg
      · rw [← hvalue]
        exact (fieldNesting_le.mp (Nat.le_refl _) g hg).trans (fieldNesting_canon fs))

theorem itemNesting_canon : ∀ (xs : List Json), itemNesting (canonItems xs) ≤ itemNesting xs
  | [] => Nat.le_refl _
  | x :: xs => max_le_max (nesting_canon x) (itemNesting_canon xs)

theorem fieldNesting_canon : ∀ (fs : Fields), fieldNesting (canonFields fs) ≤ fieldNesting fs
  | [] => Nat.le_refl _
  | (_, x) :: fs => max_le_max (nesting_canon x) (fieldNesting_canon fs)

end

mutual

/-- A value that is read does not nest deeper than the reader goes. -/
theorem nesting_of_value? : ∀ {depth : Nat} (f : Form) {j : Json},
    f.value? depth = some j → nesting j ≤ depth
  | _, .null, _, h | _, .bool _, _, h => by
    cases h
    exact Nat.zero_le _
  | _, .num _, _, h | _, .str _, _, h => by
    obtain ⟨v, -, rfl⟩ := Option.map_eq_some_iff.mp h
    exact Nat.zero_le _
  | 0, .arr _, _, h | 0, .obj _, _, h => by cases h
  | _ + 1, .arr xs, _, h => by
    obtain ⟨vs, hvs, rfl⟩ := Option.map_eq_some_iff.mp h
    exact Nat.succ_le_succ (nesting_of_itemValues? xs hvs)
  | _ + 1, .obj fs, _, h => by
    obtain ⟨vs, hvs, rfl⟩ := Option.map_eq_some_iff.mp h
    exact Nat.succ_le_succ (nesting_of_fieldValues? fs hvs)

theorem nesting_of_itemValues? : ∀ {depth : Nat} (xs : List Form) {vs : List Json},
    Form.itemValues? depth xs = some vs → itemNesting vs ≤ depth
  | _, [], _, h => by
    cases h
    exact Nat.zero_le _
  | depth, x :: xs, vs, h => by
    rw [Form.itemValues?] at h
    split at h
    · rename_i v vs' hv hvs'
      cases h
      exact max_le (nesting_of_value? x hv) (nesting_of_itemValues? xs hvs')
    · cases h

theorem nesting_of_fieldValues? : ∀ {depth : Nat} (fs : List (List Letter × Form))
    {vs : Fields}, Form.fieldValues? depth fs = some vs → fieldNesting vs ≤ depth
  | _, [], _, h => by
    cases h
    exact Nat.zero_le _
  | depth, (name, x) :: fs, vs, h => by
    rw [Form.fieldValues?] at h
    split at h
    · rename_i k v vs' hk hv hvs'
      cases h
      exact max_le (nesting_of_value? x hv) (nesting_of_fieldValues? fs hvs')
    · cases h

end

end Json
end TestTransform
