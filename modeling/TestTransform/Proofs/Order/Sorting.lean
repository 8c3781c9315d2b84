/-
Sorting a list by insertion.

A sorted list has the elements that were there before.  If no two of them compare equal,
each is less than all behind it; and such a list is known by which elements it has.  The same
holds if elements that compare equal to an earlier one are left out.
-/
import Mathlib.Data.List.Sort
import TestTransform.Order.Assoc

namespace TestTransform
namespace Sorted

open Std

variable {α : Type} {cmp : α → α → Ordering}

/-! ## The elements -/

attribute [local simp] insert in
theorem insert_perm (x : α) (l : List α) : (insert cmp x l).Perm (x :: l) := by
  induction l with
  | nil => simp
  | cons y l ih =>
    simp only [insert]
    split
    · exact List.Perm.refl _
    · exact (ih.cons y).trans (List.Perm.swap x y l)

/-- What `sort` has when it has put the elements of `l` into `sorted`. -/
theorem foldl_insert_perm (l sorted : List α) :
    (l.foldl (fun acc x => insert cmp x acc) sorted).Perm (l ++ sorted) := by
  induction l generalizing sorted with
  | nil => exact List.Perm.refl _
  | cons x l ih =>
    have hrest : (l ++ insert cmp x sorted).Perm (l ++ x :: sorted) :=
      (insert_perm x sorted).append_left l
    exact (ih (insert cmp x sorted)).trans (hrest.trans List.perm_middle)

theorem sort_perm (l : List α) : (sort cmp l).Perm l := by
  have h : (sort cmp l).Perm (l ++ []) := foldl_insert_perm l []
  rwa [List.append_nil] at h

theorem mem_sort {l : List α} {x : α} : x ∈ sort cmp l ↔ x ∈ l := (sort_perm l).mem_iff

/-! ## The order -/

/-- No element is greater than one behind it. -/
abbrev Ordered (cmp : α → α → Ordering) (l : List α) : Prop :=
  l.Pairwise fun a b => cmp a b ≠ .gt

theorem insert_ordered [TransCmp cmp] {l : List α} (h : Ordered cmp l) (x : α) :
    Ordered cmp (insert cmp x l) := by
  induction l with
  | nil => exact List.pairwise_singleton _ _
  | cons y l ih =>
    have hl := List.pairwise_cons.mp h
    rw [insert]
    by_cases hxy : cmp x y = .lt
    · rw [if_pos (by simp [hxy])]
      refine List.pairwise_cons.mpr ⟨?_, h⟩
      intro z hz
      rcases List.mem_cons.mp hz with rfl | hz
      · simp [hxy]
      · have hyz : (cmp y z).isLE := Ordering.isLE_iff_ne_gt.mpr (hl.1 z hz)
        have hxz : cmp x z = .lt := TransCmp.lt_of_lt_of_isLE hxy hyz
        simp [hxz]
    · rw [if_neg (by simp [hxy])]
      have hyx : cmp y x ≠ .gt := fun hgt => hxy (OrientedCmp.lt_of_gt hgt)
      refine List.pairwise_cons.mpr ⟨?_, ih hl.2⟩
      intro z hz
      rcases List.mem_cons.mp ((insert_perm x l).mem_iff.mp hz) with rfl | hz
      · exact hyx
      · exact hl.1 z hz

theorem sort_ordered [TransCmp cmp] (l : List α) : Ordered cmp (sort cmp l) := by
  have h : ∀ l sorted : List α, Ordered cmp sorted →
      Ordered cmp (l.foldl (fun acc x => insert cmp x acc) sorted) := by
    intro l
    induction l with
    | nil => exact fun _ hs => hs
    | cons x l ih => exact fun sorted hs => ih _ (insert_ordered hs x)
  exact h l [] List.Pairwise.nil

/-- Elements that are told apart by the order are sorted strictly. -/
theorem sort_rising [TransCmp cmp] {l : List α} (h : l.Pairwise fun a b => cmp a b ≠ .eq) :
    (sort cmp l).Pairwise fun a b => cmp a b = .lt := by
  have hne : (sort cmp l).Pairwise fun a b => cmp a b ≠ .eq := by
    refine ((sort_perm l).pairwise_iff ?_).mpr h
    intro a b hab hba
    exact hab (OrientedCmp.eq_comm.mp hba)
  refine ((sort_ordered l).and hne).imp ?_
  intro a b hab
  cases hc : cmp a b with
  | lt => rfl
  | eq => exact absurd hc hab.2
  | gt => exact absurd hc hab.1

/-- A strictly sorted list is known by its elements. -/
theorem eq_of_rising [TransCmp cmp] {l l' : List α} (hl : l.Pairwise fun a b => cmp a b = .lt)
    (hl' : l'.Pairwise fun a b => cmp a b = .lt) (h : ∀ a, a ∈ l ↔ a ∈ l') : l = l' := by
  have hirrefl : Std.Irrefl fun a b => cmp a b = .lt := by
    constructor
    intro a ha
    have hself : cmp a a = .eq := ReflCmp.compare_self
    rw [hself] at ha
    cases ha
  have hantisymm : Std.Antisymm fun a b => cmp a b = .lt := by
    constructor
    intro a b hab hba
    rw [OrientedCmp.gt_of_lt hab] at hba
    cases hba
  exact hl.eq_of_mem_iff hl' h

/-! ## Elements left out -/

attribute [local simp] insertNew in
theorem mem_of_mem_insertNew {x y : α} {l : List α} (h : y ∈ insertNew cmp x l) :
    y = x ∨ y ∈ l := by
  induction l with
  | nil => simpa using h
  | cons z l ih =>
    simp only [insertNew] at h
    split at h
    · exact List.mem_cons.mp h
    · exact .inr h
    · rcases List.mem_cons.mp h with rfl | h
      · exact .inr List.mem_cons_self
      · exact (ih h).imp_right (List.mem_cons_of_mem z)

theorem mem_of_mem_foldl_insertNew {y : α} {new l : List α}
    (h : y ∈ new.foldl (fun acc x => insertNew cmp x acc) l) : y ∈ l ∨ y ∈ new := by
  induction new generalizing l with
  | nil => exact .inl h
  | cons x new ih =>
    rcases ih h with h | h
    · rcases mem_of_mem_insertNew h with rfl | h
      · exact .inr List.mem_cons_self
      · exact .inl h
    · exact .inr (List.mem_cons_of_mem x h)

theorem mem_of_mem_distinct {x : α} {l : List α} (h : x ∈ distinct cmp l) : x ∈ l :=
  (mem_of_mem_foldl_insertNew h).resolve_left List.not_mem_nil

theorem insertNew_rising [TransCmp cmp] {l : List α} (h : l.Pairwise fun a b => cmp a b = .lt)
    (x : α) : (insertNew cmp x l).Pairwise fun a b => cmp a b = .lt := by
  induction l with
  | nil => exact List.pairwise_singleton _ _
  | cons y l ih =>
    obtain ⟨hy, hl⟩ := List.pairwise_cons.mp h
    cases hxy : cmp x y with
    | lt =>
      simp only [insertNew, hxy]
      refine List.pairwise_cons.mpr ⟨fun z hz => ?_, h⟩
      rcases List.mem_cons.mp hz with rfl | hz
      · exact hxy
      · exact TransCmp.lt_trans hxy (hy z hz)
    | eq =>
      simp only [insertNew, hxy]
      exact h
    | gt =>
      simp only [insertNew, hxy]
      refine List.pairwise_cons.mpr ⟨fun z hz => ?_, ih hl⟩
      rcases mem_of_mem_insertNew hz with rfl | hz
      · exact OrientedCmp.lt_of_gt hxy
      · exact hy z hz

theorem foldl_insertNew_rising [TransCmp cmp] {l : List α}
    (h : l.Pairwise fun a b => cmp a b = .lt) (new : List α) :
    (new.foldl (fun acc x => insertNew cmp x acc) l).Pairwise fun a b => cmp a b = .lt := by
  induction new generalizing l with
  | nil => exact h
  | cons x new ih => exact ih (insertNew_rising h x)

theorem distinct_rising [TransCmp cmp] (l : List α) :
    (distinct cmp l).Pairwise fun a b => cmp a b = .lt :=
  foldl_insertNew_rising List.Pairwise.nil l

theorem mem_insertNew [LawfulEqCmp cmp] {x y : α} {l : List α} :
    y ∈ insertNew cmp x l ↔ y = x ∨ y ∈ l := by
  refine ⟨mem_of_mem_insertNew, fun h => ?_⟩
  induction l with
  | nil => simpa [insertNew] using h
  | cons z l ih =>
    cases hxz : cmp x z with
    | lt =>
      simp only [insertNew, hxz]
      exact List.mem_cons.mpr h
    | eq =>
      simp only [insertNew, hxz]
      obtain rfl := LawfulEqCmp.eq_of_compare hxz
      exact h.elim (fun heq => heq ▸ List.mem_cons_self) id
    | gt =>
      simp only [insertNew, hxz]
      rcases h with h | h
      · exact List.mem_cons_of_mem z (ih (.inl h))
      · exact (List.mem_cons.mp h).elim (fun heq => heq ▸ List.mem_cons_self)
          fun h => List.mem_cons_of_mem z (ih (.inr h))

theorem mem_distinct [LawfulEqCmp cmp] {x : α} {l : List α} : x ∈ distinct cmp l ↔ x ∈ l := by
  have hfold : ∀ new l : List α,
      x ∈ new.foldl (fun acc x => insertNew cmp x acc) l ↔ x ∈ l ∨ x ∈ new := by
    intro new
    induction new with
    | nil => simp
    | cons y new ih =>
      intro l
      rw [List.foldl_cons, ih, mem_insertNew, List.mem_cons, or_comm (a := x = y), or_assoc]
  rw [distinct, hfold]
  exact or_iff_right List.not_mem_nil

/-! ## Searching by halves -/

/-- The half that is not searched on has nothing that compares equal. -/
theorem searchFor_iff [TransCmp cmp] {x : α} {fuel : Nat} {l : List α}
    (h : l.Pairwise fun a b => cmp a b = .lt) (hfuel : l.length ≤ fuel) :
    searchFor cmp x fuel l = true ↔ ∃ y ∈ l, cmp x y = .eq := by
  induction fuel generalizing l with
  | zero => simp [List.length_eq_zero_iff.mp (Nat.le_zero.mp hfuel), searchFor]
  | succ fuel ih =>
    obtain ⟨front, hfront⟩ : ∃ front, l.take (l.length / 2) = front := ⟨_, rfl⟩
    have hsplit := List.take_append_drop (l.length / 2) l
    have hlength := congrArg List.length hfront
    rw [List.length_take] at hlength
    rw [hfront] at hsplit
    rw [searchFor, hfront]
    cases hdrop : l.drop (l.length / 2) with
    | nil =>
      have hnil : l = [] := by
        have hle := List.drop_eq_nil_iff.mp hdrop
        exact List.length_eq_zero_iff.mp (by omega)
      simp [hnil]
    | cons y behind =>
      rw [hdrop] at hsplit
      subst hsplit
      obtain ⟨hf, hyb, hcross⟩ := List.pairwise_append.mp h
      obtain ⟨hy, hb⟩ := List.pairwise_cons.mp hyb
      rw [List.length_append, List.length_cons] at hfuel hlength
      have hmem : (∃ z ∈ front ++ y :: behind, cmp x z = .eq) ↔ (∃ z ∈ front, cmp x z = .eq) ∨
          cmp x y = .eq ∨ ∃ z ∈ behind, cmp x z = .eq := by
        simp only [List.mem_append, List.mem_cons, or_and_right, exists_or, exists_eq_left]
      rw [hmem]
      dsimp only
      cases hxy : cmp x y with
      | lt =>
        dsimp only
        rw [ih hf (by omega)]
        refine (or_iff_left ?_).symm
        rintro (h | ⟨z, hz, heq⟩)
        · cases h
        · rw [TransCmp.lt_trans hxy (hy z hz)] at heq
          cases heq
      | eq => simp
      | gt =>
        dsimp only
        rw [ih hb (by omega)]
        refine Iff.symm ((or_iff_right ?_).trans (or_iff_right nofun))
        rintro ⟨z, hz, heq⟩
        have hzx := TransCmp.lt_trans (hcross z hz y List.mem_cons_self) (OrientedCmp.lt_of_gt hxy)
        rw [OrientedCmp.gt_of_lt hzx] at heq
        cases heq

theorem search_iff [TransCmp cmp] [LawfulEqCmp cmp] {x : α} {l : List α}
    (h : l.Pairwise fun a b => cmp a b = .lt) : search cmp x l = true ↔ x ∈ l := by
  rw [search, searchFor_iff h (Nat.le_refl _)]
  constructor
  · rintro ⟨y, hy, heq⟩
    rw [LawfulEqCmp.eq_of_compare heq]
    exact hy
  · exact fun hx => ⟨x, hx, ReflCmp.compare_self⟩

end Sorted
end TestTransform
