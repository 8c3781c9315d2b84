/-
Lists of pairs in the order of their keys.

Insertions keep the order, and in such a list a key has one place only, so what stands in
it is what is found.
-/
import Mathlib.Data.List.Sort
import TestTransform.Proofs.Order.Lookup

namespace TestTransform
namespace Assoc

open Std

variable {κ υ : Type} {cmp : κ → κ → Ordering}

/-- Whether the keys of a list rise. -/
def Rising (cmp : κ → κ → Ordering) (l : List (κ × υ)) : Prop :=
  l.Pairwise fun a b => cmp a.1 b.1 = .lt

theorem rising_nil : Rising cmp ([] : List (κ × υ)) := List.Pairwise.nil

theorem Rising.distinct {l : List (κ × υ)} (h : Rising cmp l) :
    l.Pairwise fun a b => cmp a.1 b.1 ≠ .eq := by
  refine List.Pairwise.imp (fun {a b} hlt heq => ?_) h
  rw [hlt] at heq
  cases heq

/-- A pair whose key no other one has is what is found. -/
theorem find?_of_mem_of_distinct [TransCmp cmp] {l : List (κ × υ)}
    (h : l.Pairwise fun a b => cmp a.1 b.1 ≠ .eq) {e : κ × υ} (he : e ∈ l) :
    find? cmp e.1 l = some e.2 := by
  induction l with
  | nil => simp at he
  | cons e' l ih =>
    rw [List.pairwise_cons] at h
    rcases List.mem_cons.mp he with rfl | he
    · exact find?_cons_eq ReflCmp.compare_self
    · have hne : cmp e.1 e'.1 ≠ .eq := fun heq => h.1 e he (OrientedCmp.eq_symm heq)
      rw [find?_cons_ne hne, ih h.2 he]

theorem find?_of_mem [TransCmp cmp] {l : List (κ × υ)} (h : Rising cmp l) {e : κ × υ}
    (he : e ∈ l) : find? cmp e.1 l = some e.2 :=
  find?_of_mem_of_distinct h.distinct he

theorem Rising.insert [TransCmp cmp] {l : List (κ × υ)} (h : Rising cmp l) (k : κ) (v : υ) :
    Rising cmp (Assoc.insert cmp k v l) := by
  induction l with
  | nil => exact List.pairwise_singleton _ _
  | cons e l ih =>
    obtain ⟨k', v'⟩ := e
    have hl := List.pairwise_cons.mp h
    cases hk : cmp k k' with
    | lt =>
      simp only [Assoc.insert, hk]
      refine List.pairwise_cons.mpr ⟨fun e he => ?_, h⟩
      rcases List.mem_cons.mp he with rfl | he
      · exact hk
      · exact TransCmp.lt_trans hk (hl.1 e he)
    | eq =>
      simp only [Assoc.insert, hk]
      exact List.pairwise_cons.mpr ⟨fun e he => hl.1 e he, hl.2⟩
    | gt =>
      simp only [Assoc.insert, hk]
      refine List.pairwise_cons.mpr ⟨fun e he => ?_, ih hl.2⟩
      rcases mem_of_mem_insert he with he | ⟨hke, -⟩
      · exact hl.1 e he
      · rw [← TransCmp.congr_right hke]
        exact OrientedCmp.lt_of_gt hk

theorem Rising.modify {l : List (κ × υ)} (h : Rising cmp l) (k : κ) (f : υ → υ) :
    Rising cmp (Assoc.modify cmp k f l) := by
  refine List.pairwise_map.mpr (h.imp fun {a b} hab => ?_)
  split <;> split <;> exact hab

theorem Rising.erase {l : List (κ × υ)} (h : Rising cmp l) (k : κ) :
    Rising cmp (Assoc.erase cmp k l) :=
  List.Pairwise.filter _ h

/-- A pair behind all others goes to the end. -/
theorem insert_last [TransCmp cmp] {l : List (κ × υ)} {k : κ} {v : υ}
    (h : ∀ e ∈ l, cmp e.1 k = .lt) : Assoc.insert cmp k v l = l ++ [(k, v)] := by
  induction l with
  | nil => rfl
  | cons e l ih =>
    obtain ⟨k', v'⟩ := e
    have hgt : cmp k k' = .gt := OrientedCmp.gt_of_lt (h (k', v') List.mem_cons_self)
    simp only [Assoc.insert, hgt]
    rw [ih fun e he => h e (List.mem_cons_of_mem _ he)]
    rfl

theorem insertAll_of_rising [TransCmp cmp] {l new : List (κ × υ)} (h : Rising cmp (l ++ new)) :
    insertAll cmp l new = l ++ new := by
  induction new generalizing l with
  | nil => simp [insertAll]
  | cons e new ih =>
    have hlast : ∀ e' ∈ l, cmp e'.1 e.1 = .lt := by
      intro e' he'
      exact (List.pairwise_append.mp h).2.2 e' he' e List.mem_cons_self
    have hsplit : l ++ e :: new = (l ++ [e]) ++ new := by simp
    rw [hsplit] at h ⊢
    rw [insertAll, List.foldl_cons, insert_last hlast]
    exact ih h

theorem Rising.insertAll [TransCmp cmp] {l : List (κ × υ)} (h : Rising cmp l)
    (new : List (κ × υ)) : Rising cmp (Assoc.insertAll cmp l new) := by
  induction new generalizing l with
  | nil => exact h
  | cons e new ih => exact ih (h.insert e.1 e.2)

theorem Rising.mem_of_find? [TransCmp cmp] [LawfulEqCmp cmp] {l l' : List (κ × υ)}
    (h : Rising cmp l) (hfind : ∀ k, find? cmp k l = find? cmp k l') {e : κ × υ} (he : e ∈ l) :
    e ∈ l' := by
  have hfound := find?_of_mem h he
  rw [hfind] at hfound
  obtain ⟨k, hk, hmem⟩ := Assoc.mem_of_find? hfound
  rw [← LawfulEqCmp.eq_of_compare hk] at hmem
  exact hmem

/-- Lists in order in which the same is found are the same. -/
theorem Rising.ext [TransCmp cmp] [LawfulEqCmp cmp] {l l' : List (κ × υ)} (h : Rising cmp l)
    (h' : Rising cmp l') (hfind : ∀ k, find? cmp k l = find? cmp k l') : l = l' := by
  have hirrefl : Std.Irrefl fun a b : κ × υ => cmp a.1 b.1 = .lt := by
    constructor
    intro a ha
    have hself : cmp a.1 a.1 = .eq := ReflCmp.compare_self
    rw [hself] at ha
    cases ha
  have hantisymm : Std.Antisymm fun a b : κ × υ => cmp a.1 b.1 = .lt := by
    constructor
    intro a b hab hba
    rw [OrientedCmp.gt_of_lt hab] at hba
    cases hba
  exact List.Pairwise.eq_of_mem_iff h h' fun e =>
    ⟨h.mem_of_find? hfind, h'.mem_of_find? fun k => (hfind k).symm⟩

/-! ## Keys that all differ -/

theorem insert_perm {k : κ} {v : υ} {l : List (κ × υ)} (h : ∀ e ∈ l, cmp k e.1 ≠ .eq) :
    (insert cmp k v l).Perm ((k, v) :: l) := by
  induction l with
  | nil => exact List.Perm.refl _
  | cons e l ih =>
    obtain ⟨hne, hrest⟩ := List.forall_mem_cons.mp h
    obtain ⟨k', v'⟩ := e
    cases hk : cmp k k' with
    | lt =>
      simp only [insert, hk]
      exact List.Perm.refl _
    | eq => exact absurd hk hne
    | gt =>
      simp only [insert, hk]
      exact ((ih hrest).cons _).trans (List.Perm.swap _ _ l)

/-- Pairs whose keys all differ are only put in order. -/
theorem insertAll_perm [OrientedCmp cmp] {l new : List (κ × υ)}
    (h : (l ++ new).Pairwise fun a b => cmp a.1 b.1 ≠ .eq) :
    (insertAll cmp l new).Perm (l ++ new) := by
  induction new generalizing l with
  | nil =>
    rw [List.append_nil]
    exact List.Perm.refl _
  | cons e new ih =>
    have hmiddle : (e :: l ++ new).Perm (l ++ e :: new) := List.perm_middle.symm
    have hsymm : ∀ {a b : κ × υ}, cmp a.1 b.1 ≠ .eq → cmp b.1 a.1 ≠ .eq := fun hab heq =>
      hab (OrientedCmp.eq_symm heq)
    have hpair := (hmiddle.pairwise_iff hsymm).mpr h
    have hfront : (insert cmp e.1 e.2 l).Perm (e :: l) :=
      insert_perm fun e' he' => (List.pairwise_cons.mp hpair).1 e' (List.mem_append_left _ he')
    have hinsert := hfront.append_right new
    exact (ih ((hinsert.pairwise_iff hsymm).mpr hpair)).trans (hinsert.trans hmiddle)

end Assoc
end TestTransform
