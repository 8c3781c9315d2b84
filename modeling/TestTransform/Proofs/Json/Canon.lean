/-
What is found in an object in canonical form.

Sorting puts each field in its place, so a field that is written once is found with the
value it was written with.  Objects that are spelled alike have the same fields with values
that are spelled alike.
-/
import TestTransform.Proofs.Json.Compact
import TestTransform.Proofs.Order.Rising
import TestTransform.Proofs.Path.Order

namespace TestTransform

open Std

namespace Assoc

variable {κ υ : Type} {cmp : κ → κ → Ordering}

theorem insertAll_append (l new new' : List (κ × υ)) :
    insertAll cmp l (new ++ new') = insertAll cmp (insertAll cmp l new) new' := by
  rw [insertAll, List.foldl_append]
  rfl

theorem find?_insertAll_of_ne [TransCmp cmp] {k : κ} {new : List (κ × υ)}
    (h : ∀ e ∈ new, cmp k e.1 ≠ .eq) (l : List (κ × υ)) :
    find? cmp k (insertAll cmp l new) = find? cmp k l := by
  induction new generalizing l with
  | nil => rfl
  | cons e new ih =>
    have hrest : ∀ e' ∈ new, cmp k e'.1 ≠ .eq := fun e' he' => h e' (List.mem_cons_of_mem _ he')
    show find? cmp k (insertAll cmp (insert cmp e.1 e.2 l) new) = _
    rw [ih hrest, find?_insert_of_ne (h e List.mem_cons_self)]

/-- Pairs with different keys are all found. -/
theorem find?_insertAll_of_distinct [TransCmp cmp] {new : List (κ × υ)}
    (h : new.Pairwise fun a b => cmp a.1 b.1 ≠ .eq) (k : κ) (l : List (κ × υ)) :
    find? cmp k (insertAll cmp l new) = (find? cmp k new).or (find? cmp k l) := by
  induction new generalizing l with
  | nil => rfl
  | cons e new ih =>
    have hsplit := List.pairwise_cons.mp h
    show find? cmp k (insertAll cmp (insert cmp e.1 e.2 l) new) = _
    by_cases hk : cmp k e.1 = .eq
    · have hnone : ∀ e' ∈ new, cmp k e'.1 ≠ .eq := by
        intro e' he'
        rw [TransCmp.congr_left hk]
        exact hsplit.1 e' he'
      rw [find?_insertAll_of_ne hnone, find?_insert, if_pos hk, find?_cons_eq hk]
      rfl
    · rw [ih hsplit.2, find?_insert_of_ne hk, find?_cons_ne hk]

theorem find?_map (f : υ → υ) (k : κ) (l : List (κ × υ)) :
    find? cmp k (l.map fun e => (e.1, f e.2)) = (find? cmp k l).map f := by
  induction l with
  | nil => rfl
  | cons e l ih =>
    rw [List.map_cons, find?, find?, ih]
    split <;> rfl

end Assoc

namespace Json

attribute [local simp] canonFields in
theorem canonFields_eq_map (fs : Fields) : canonFields fs = fs.map fun f => (f.1, canon f.2) := by
  induction fs with
  | nil => simp
  | cons f fs ih => simp [ih]

attribute [local simp] canonItems in
theorem canonItems_eq_map (xs : List Json) : canonItems xs = xs.map canon := by
  induction xs with
  | nil => simp
  | cons x xs ih => simp [ih]

/-- What was put into a list of fields was in one of the two lists, as far as values go. -/
theorem exists_of_mem_insertAll {fs new : Fields} {f : Text × Json}
    (h : f ∈ Assoc.insertAll Text.cmp fs new) :
    (∃ g ∈ fs, g.2 = f.2) ∨ ∃ g ∈ new, g.2 = f.2 := by
  induction new generalizing fs with
  | nil => exact .inl ⟨f, h, rfl⟩
  | cons e new ih =>
    rcases ih h with ⟨g, hg, hvalue⟩ | ⟨g, hg, hvalue⟩
    · rcases Assoc.mem_of_mem_insert hg with hg | ⟨-, hg⟩
      · exact .inl ⟨g, hg, hvalue⟩
      · exact .inr ⟨e, List.mem_cons_self, by rw [← hvalue, hg]⟩
    · exact .inr ⟨g, List.mem_cons_of_mem _ hg, hvalue⟩

/-- Whether a value is in canonical form. -/
def IsCanonical (j : Json) : Prop := canon j = j

attribute [local simp] canon in
theorem isCanonical_arr {xs : List Json} (h : ∀ x ∈ xs, IsCanonical x) :
    IsCanonical (.arr xs) := by
  simp [IsCanonical, canonItems_eq_map, List.map_congr_left h]

theorem isCanonical_obj {fs : Fields} (hfs : Assoc.Rising Text.cmp fs)
    (h : ∀ f ∈ fs, IsCanonical f.2) : IsCanonical (.obj fs) := by
  have hfields : canonFields fs = fs := by
    rw [canonFields_eq_map]
    exact (List.map_congr_left fun f hf => by rw [h f hf]).trans (List.map_id' fs)
  rw [IsCanonical, canon, hfields, Assoc.insertAll_of_rising hfs, List.nil_append]

/-- The fields of an object in canonical form are in order. -/
theorem IsCanonical.rising {fs : Fields} (h : IsCanonical (.obj fs)) :
    Assoc.Rising Text.cmp fs := by
  rw [IsCanonical, canon] at h
  rw [← Json.obj.inj h]
  exact Assoc.rising_nil.insertAll _

mutual

theorem isCanonical_canon : ∀ (j : Json), IsCanonical (canon j)
  | .null | .bool _ | .num _ | .str _ => rfl
  | .arr xs => isCanonical_arr (isCanonical_canonItems xs)
  | .obj fs => isCanonical_obj (Assoc.rising_nil.insertAll _) (by
      intro f hf
      rcases exists_of_mem_insertAll hf with ⟨g, hg, -⟩ | ⟨g, hg, hvalue⟩
      · cases hg
      · rw [← hvalue]
        exact isCanonical_canonFields fs g hg)

theorem isCanonical_canonItems : ∀ (xs : List Json), ∀ x ∈ canonItems xs, IsCanonical x
  | [] => by
    intro x hx
    cases hx
  | x :: xs => List.forall_mem_cons.mpr ⟨isCanonical_canon x, isCanonical_canonItems xs⟩

theorem isCanonical_canonFields : ∀ (fs : Fields), ∀ f ∈ canonFields fs, IsCanonical f.2
  | [] => by
    intro f hf
    cases hf
  | (_, x) :: fs => List.forall_mem_cons.mpr ⟨isCanonical_canon x, isCanonical_canonFields fs⟩

end

/-- The values of an object in canonical form are in canonical form. -/
theorem IsCanonical.values {fs : Fields} (h : IsCanonical (.obj fs)) :
    ∀ f ∈ fs, IsCanonical f.2 := by
  intro f hf
  have hcanon : Json.obj fs = canon (.obj fs) := h.symm
  rw [canon] at hcanon
  rw [Json.obj.inj hcanon] at hf
  rcases exists_of_mem_insertAll hf with ⟨g, hg, -⟩ | ⟨g, hg, hvalue⟩
  · cases hg
  · rw [← hvalue]
    exact isCanonical_canonFields fs g hg

/-- Fields that are spelled alike have values that are spelled alike. -/
theorem field?_of_spelled {fs gs : Fields} (h : spelled fs = spelled gs) (name : Text) :
    (field? name fs).map compact = (field? name gs).map compact := by
  induction fs generalizing gs with
  | nil =>
    cases gs with
    | nil => rfl
    | cons g gs => cases h
  | cons f fs ih =>
    cases gs with
    | nil => cases h
    | cons g gs =>
      rw [spelled, spelled, List.map_cons, List.map_cons, List.cons.injEq, Prod.mk.injEq] at h
      obtain ⟨⟨hname, hvalue⟩, hrest⟩ := h
      have hrest' := ih hrest
      rw [field?, field?, Assoc.find?, Assoc.find?, hname]
      by_cases hk : (Text.cmp name g.1 == .eq) = true
      · rw [if_pos hk, if_pos hk, Option.map_some, Option.map_some, hvalue]
      · rw [if_neg hk, if_neg hk]
        exact hrest'

/-- The value of a field of an object, if that is in canonical form. -/
theorem field?_of_canon {fs gs : Fields}
    (h : compact (canon (.obj fs)) = compact (canon (.obj gs))) (name : Text) :
    (field? name (Assoc.insertAll Text.cmp [] (canonFields fs))).map compact =
      (field? name (Assoc.insertAll Text.cmp [] (canonFields gs))).map compact := by
  rw [canon, canon] at h
  obtain ⟨fs', hobj, hspelled⟩ := exists_obj_of_compact h
  cases hobj
  exact field?_of_spelled hspelled name

/-! ## Lists and options of plain values -/

theorem canon_arr_map {α : Type} {f : α → Json} (hf : ∀ a, canon (f a) = f a) (xs : List α) :
    canon (.arr (xs.map f)) = .arr (xs.map f) := by
  have hitems : (xs.map f).map canon = xs.map f := by
    rw [List.map_map]
    exact List.map_congr_left fun a _ => hf a
  rw [canon, canonItems_eq_map, hitems]

theorem eq_of_compact_arr {α : Type} {f : α → Json} (hcanon : ∀ a, canon (f a) = f a)
    (hf : ∀ a b, compact (f a) = compact (f b) → a = b) {xs ys : List α}
    (h : compact (canon (.arr (xs.map f))) = compact (canon (.arr (ys.map f)))) : xs = ys := by
  rw [canon_arr_map hcanon, canon_arr_map hcanon] at h
  obtain ⟨items, harr, hspelled⟩ := exists_arr_of_compact h
  cases harr
  rw [List.map_map, List.map_map] at hspelled
  exact (List.map_inj_right fun a b hab => hf a b hab).mp hspelled

theorem eq_of_compact_ofTexts {ss ts : List Text}
    (h : compact (canon (ofTexts ss)) = compact (canon (ofTexts ts))) : ss = ts :=
  eq_of_compact_arr (fun _ => rfl) (fun _ _ hst => (Json.str.inj (eq_of_compact_str hst)).symm) h

theorem eq_of_compact_ofNats {ms ns : List Nat}
    (h : compact (canon (.arr (ms.map ofNat))) = compact (canon (.arr (ns.map ofNat)))) :
    ms = ns := by
  refine eq_of_compact_arr (fun _ => rfl) (fun m n hmn => ?_) h
  have hnum : (Json.num (.int n)) = .num (.int m) := eq_of_compact_int hmn
  have hint : (n : Int) = m := Number.int.inj (Json.num.inj hnum)
  omega

theorem map_eq_of_compact_ofOption {α : Type} {f : α → Text} {x y : Option α}
    (h : compact (canon (ofOption (fun a => .str (f a)) x)) =
      compact (canon (ofOption (fun a => .str (f a)) y))) : x.map f = y.map f := by
  cases x with
  | none =>
    cases y with
    | none => rfl
    | some b =>
      have hnull := eq_of_compact_null h
      cases hnull
  | some a =>
    cases y with
    | none =>
      have hnull := eq_of_compact_null h.symm
      cases hnull
    | some b =>
      have hstr : Json.str (f b) = .str (f a) := eq_of_compact_str h
      rw [Option.map_some, Option.map_some, Json.str.inj hstr]

end Json
end TestTransform
