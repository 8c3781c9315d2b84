/-
Looking up what was put into a list of pairs.

`find?` only asks which keys compare equal, so none of the lemmas needs the list to be in
order: an insertion is found again under every equal key, and leaves all others alone.
-/
import TestTransform.Order.Assoc

namespace TestTransform
namespace Assoc

open Std

variable {κ υ : Type} {cmp : κ → κ → Ordering}

attribute [local simp] find? in
theorem find?_cons_eq {k k' : κ} {v : υ} {l : List (κ × υ)} (h : cmp k k' = .eq) :
    find? cmp k ((k', v) :: l) = some v := by
  simp [h]

theorem find?_cons_ne {k k' : κ} {v : υ} {l : List (κ × υ)} (h : cmp k k' ≠ .eq) :
    find? cmp k ((k', v) :: l) = find? cmp k l := by
  simp [find?, h]

theorem find?_eq_none {k : κ} {l : List (κ × υ)} (h : ∀ e ∈ l, cmp k e.1 ≠ .eq) :
    find? cmp k l = none := by
  induction l with
  | nil => rfl
  | cons e l ih =>
    obtain ⟨hne, hrest⟩ := List.forall_mem_cons.mp h
    rw [find?_cons_ne hne, ih hrest]

theorem find?_append (k : κ) (l l' : List (κ × υ)) :
    find? cmp k (l ++ l') = (find? cmp k l).or (find? cmp k l') := by
  induction l with
  | nil => rfl
  | cons e l ih =>
    rw [List.cons_append, find?, find?, ih]
    split <;> rfl

/-- Equal keys find the same value. -/
theorem find?_congr [TransCmp cmp] {k k' : κ} (h : cmp k k' = .eq) (l : List (κ × υ)) :
    find? cmp k l = find? cmp k' l := by
  induction l with
  | nil => rfl
  | cons e l ih =>
    obtain ⟨k'', v⟩ := e
    rw [find?, find?, TransCmp.congr_left h, ih]

theorem find?_insert_self [ReflCmp cmp] (k : κ) (v : υ) (l : List (κ × υ)) :
    find? cmp k (insert cmp k v l) = some v := by
  induction l with
  | nil => exact find?_cons_eq ReflCmp.compare_self
  | cons e l ih =>
    obtain ⟨k', v'⟩ := e
    cases h : cmp k k' with
    | lt =>
      simp only [insert, h]
      exact find?_cons_eq ReflCmp.compare_self
    | eq =>
      simp only [insert, h]
      exact find?_cons_eq h
    | gt =>
      simp only [insert, h]
      rw [find?_cons_ne (by simp [h]), ih]

theorem find?_insert_of_ne [TransCmp cmp] {k k' : κ} (h : cmp k' k ≠ .eq) (v : υ)
    (l : List (κ × υ)) : find? cmp k' (insert cmp k v l) = find? cmp k' l := by
  induction l with
  | nil => exact find?_cons_ne h
  | cons e l ih =>
    obtain ⟨k'', v''⟩ := e
    cases hk : cmp k k'' with
    | lt =>
      simp only [insert, hk]
      exact find?_cons_ne h
    | eq =>
      -- The key in the list stays, but it is no more equal to `k'` than `k` is.
      have hne : cmp k' k'' ≠ .eq := by rwa [← TransCmp.congr_right hk]
      simp only [insert, hk]
      rw [find?_cons_ne hne, find?_cons_ne hne]
    | gt =>
      simp only [insert, hk]
      rw [find?, find?, ih]

/-- What is found after an insertion: the new value, or what was there. -/
theorem find?_insert [TransCmp cmp] (k k' : κ) (v : υ) (l : List (κ × υ)) :
    find? cmp k' (insert cmp k v l) = if cmp k' k = .eq then some v else find? cmp k' l := by
  by_cases h : cmp k' k = .eq
  · rw [if_pos h, find?_congr h, find?_insert_self]
  · rw [if_neg h, find?_insert_of_ne h]

/-- What is found after a change: what was there, changed if its key is equal. -/
theorem find?_modify [TransCmp cmp] (k k' : κ) (f : υ → υ) (l : List (κ × υ)) :
    find? cmp k' (modify cmp k f l) =
      (find? cmp k' l).map fun v => if cmp k k' = .eq then f v else v := by
  induction l with
  | nil => rfl
  | cons e l ih =>
    obtain ⟨k'', v⟩ := e
    have hmodify : modify cmp k f ((k'', v) :: l) =
        (k'', if cmp k k'' = .eq then f v else v) :: modify cmp k f l := by
      by_cases hk : cmp k k'' = .eq <;> simp [modify, hk]
    rw [hmodify]
    by_cases hk' : cmp k' k'' = .eq
    · rw [find?_cons_eq hk', find?_cons_eq hk', ← TransCmp.congr_right hk']
      rfl
    · rw [find?_cons_ne hk', find?_cons_ne hk', ih]

/-- What is found after a key was taken out. -/
theorem find?_erase [TransCmp cmp] (k k' : κ) (l : List (κ × υ)) :
    find? cmp k' (erase cmp k l) = if cmp k k' = .eq then none else find? cmp k' l := by
  induction l with
  | nil => simp [erase, find?]
  | cons e l ih =>
    obtain ⟨k'', v⟩ := e
    rw [erase] at ih ⊢
    by_cases hk' : cmp k' k'' = .eq
    · have hsame := TransCmp.congr_right (a := k) hk'
      by_cases hk : cmp k k' = .eq
      · rw [List.filter_cons_of_neg (by simp [← hsame, hk]), ih, if_pos hk, if_pos hk]
      · rw [List.filter_cons_of_pos (by simp [← hsame, hk]), if_neg hk, find?_cons_eq hk',
          find?_cons_eq hk']
    · by_cases hk'' : cmp k k'' = .eq
      · rw [List.filter_cons_of_neg (by simp [hk'']), ih, find?_cons_ne hk']
      · rw [List.filter_cons_of_pos (by simp [hk'']), find?_cons_ne hk', ih, find?_cons_ne hk']

/-- An insertion changes nothing but what stands under equal keys. -/
theorem erase_insert [TransCmp cmp] (k : κ) (v : υ) (l : List (κ × υ)) :
    erase cmp k (insert cmp k v l) = erase cmp k l := by
  have hself : cmp k k = .eq := ReflCmp.compare_self
  induction l with
  | nil => simp [insert, erase, hself]
  | cons e l ih =>
    obtain ⟨k', v'⟩ := e
    rw [erase] at ih
    cases hk : cmp k k' with
    | lt => simp [insert, erase, hk, hself]
    | eq => simp [insert, erase, hk]
    | gt => simp [insert, erase, hk, ih]

/-- What is found stands in the list, under an equal key. -/
theorem mem_of_find? {k : κ} {v : υ} {l : List (κ × υ)} (h : find? cmp k l = some v) :
    ∃ k', cmp k k' = .eq ∧ (k', v) ∈ l := by
  induction l with
  | nil => simp [find?] at h
  | cons e l ih =>
    obtain ⟨k', v'⟩ := e
    by_cases hk : cmp k k' = .eq
    · rw [find?_cons_eq hk] at h
      cases h
      exact ⟨k', hk, List.mem_cons_self⟩
    · rw [find?_cons_ne hk] at h
      obtain ⟨k'', hk'', hmem⟩ := ih h
      exact ⟨k'', hk'', List.mem_cons_of_mem _ hmem⟩

/-- A key that stands in the list is found, though perhaps with the value of an equal key
in front of it. -/
theorem find?_isSome_of_mem {k k' : κ} {v : υ} {l : List (κ × υ)} (hk : cmp k k' = .eq)
    (h : (k', v) ∈ l) : (find? cmp k l).isSome := by
  induction l with
  | nil => simp at h
  | cons e l ih =>
    obtain ⟨k'', v''⟩ := e
    by_cases hk' : cmp k k'' = .eq
    · simp [find?_cons_eq hk']
    · rw [find?_cons_ne hk']
      rcases List.mem_cons.mp h with h | h
      · cases h
        exact absurd hk hk'
      · exact ih h

/-- A pair after an insertion was there before, or holds the new value under an equal
key. -/
theorem mem_of_mem_insert [ReflCmp cmp] {k : κ} {v : υ} {l : List (κ × υ)} {e : κ × υ}
    (h : e ∈ insert cmp k v l) : e ∈ l ∨ (cmp k e.1 = .eq ∧ e.2 = v) := by
  induction l with
  | nil =>
    simp only [insert, List.mem_singleton] at h
    subst h
    exact .inr ⟨ReflCmp.compare_self, rfl⟩
  | cons e' l ih =>
    obtain ⟨k', v'⟩ := e'
    cases hk : cmp k k' with
    | lt =>
      simp only [insert, hk, List.mem_cons] at h
      rcases h with rfl | h
      · exact .inr ⟨ReflCmp.compare_self, rfl⟩
      · exact .inl (List.mem_cons.mpr h)
    | eq =>
      simp only [insert, hk, List.mem_cons] at h
      rcases h with rfl | h
      · exact .inr ⟨hk, rfl⟩
      · exact .inl (List.mem_cons_of_mem _ h)
    | gt =>
      simp only [insert, hk, List.mem_cons] at h
      rcases h with rfl | h
      · exact .inl List.mem_cons_self
      · exact (ih h).imp_left (List.mem_cons_of_mem _)

/-- An insertion brings no key but its own. -/
theorem key_of_mem_insert {k : κ} {v : υ} {l : List (κ × υ)} {e : κ × υ}
    (h : e ∈ insert cmp k v l) : e.1 = k ∨ ∃ e' ∈ l, e.1 = e'.1 := by
  induction l with
  | nil => exact .inl (congrArg Prod.fst (List.mem_singleton.mp h))
  | cons e' l ih =>
    obtain ⟨k', v'⟩ := e'
    rw [insert] at h
    split at h
    · rcases List.mem_cons.mp h with rfl | h
      · exact .inl rfl
      · exact .inr ⟨e, h, rfl⟩
    · rcases List.mem_cons.mp h with rfl | h
      · exact .inr ⟨(k', v'), List.mem_cons_self, rfl⟩
      · exact .inr ⟨e, List.mem_cons_of_mem _ h, rfl⟩
    · rcases List.mem_cons.mp h with rfl | h
      · exact .inr ⟨(k', v'), List.mem_cons_self, rfl⟩
      · refine (ih h).imp_right ?_
        rintro ⟨e', he', heq⟩
        exact ⟨e', List.mem_cons_of_mem _ he', heq⟩

theorem keys_modify (k : κ) (f : υ → υ) (l : List (κ × υ)) :
    (modify cmp k f l).map (·.1) = l.map (·.1) := by
  rw [modify, List.map_map]
  refine List.map_congr_left fun e _ => ?_
  dsimp only [Function.comp_apply]
  split <;> rfl

end Assoc
end TestTransform
