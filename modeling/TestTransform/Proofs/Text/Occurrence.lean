/-
The last occurrence of one text in another, and how a text ends: in blanks, or with its last line
ended.
-/
import Mathlib.Data.List.DropRight
import TestTransform.Proofs.Path.Names

namespace TestTransform
namespace Text

/-! ## The last occurrence -/

/-- What is put in front of a text moves the last occurrence along. -/
theorem splitAtLast?_append {part rest front back : Text}
    (h : splitAtLast? part rest = some (front, back)) (before : Text) :
    splitAtLast? part (before ++ rest) = some (before ++ front, back) := by
  induction before with
  | nil => exact h
  | cons c before ih => simp only [List.cons_append, splitAtLast?, ih]

/-- A text does not occur where one of its characters is missing. -/
theorem splitAtLast?_eq_none {part t : Text} {d : Char} (hd : d ∈ part) (ht : d ∉ t) :
    splitAtLast? part t = none := by
  have hpart : part ≠ [] := List.ne_nil_of_mem hd
  induction t with
  | nil => simp [splitAtLast?, hpart]
  | cons c t ih =>
    have hstart : startsWith (c :: t) part = false := by
      rw [Bool.eq_false_iff]
      intro hs
      obtain ⟨rest, hrest⟩ := startsWith_iff.mp hs
      exact ht (hrest ▸ List.mem_append_left rest hd)
    simp [splitAtLast?, ih (List.not_mem_of_not_mem_cons ht), hstart]

/-! ## Blank endings -/

theorem trimEnd_eq_rdropWhile (t : Text) : trimEnd t = t.rdropWhile isBlank := by
  induction t with
  | nil => rfl
  | cons c t ih =>
    simp only [trimEnd, ih, List.rdropWhile, List.reverse_cons, List.dropWhile_append]
    cases h : t.reverse.dropWhile isBlank with
    | nil => by_cases hc : isBlank c = true <;> simp [hc]
    | cons d s => simp

theorem mem_of_mem_trimEnd {c : Char} {t : Text} (h : c ∈ trimEnd t) : c ∈ t := by
  rw [trimEnd_eq_rdropWhile] at h
  exact (List.rdropWhile_prefix isBlank t).mem h

/-- A blank is left exactly if something behind it is none. -/
theorem mem_trimEnd_iff {c : Char} (hc : isBlank c = true) {t : Text} :
    c ∈ trimEnd t ↔ ∃ a b, t = a ++ c :: b ∧ ∃ d ∈ b, isBlank d = false := by
  have hsplit := List.rdropWhile_append_rtakeWhile (p := isBlank) (l := t)
  rw [trimEnd_eq_rdropWhile]
  constructor
  · intro h
    have hlast := List.rdropWhile_last_not isBlank t (List.ne_nil_of_mem h)
    obtain ⟨a, b, hab⟩ := List.append_of_mem h
    have ht : t = a ++ c :: (b ++ t.rtakeWhile isBlank) := by
      rw [← List.cons_append, ← List.append_assoc, ← hab, hsplit]
    refine ⟨a, _, ht, ?_⟩
    simp only [hab] at hlast
    cases b with
    | nil =>
      rw [List.getLast_concat] at hlast
      exact absurd hc hlast
    | cons e b =>
      rw [List.getLast_append_of_ne_nil _ (List.cons_ne_nil _ _),
        List.getLast_cons (List.cons_ne_nil _ _)] at hlast
      exact ⟨_, List.mem_append_left _ (List.getLast_mem _), Bool.eq_false_iff.mpr hlast⟩
  · rintro ⟨a, b, rfl, d, hd, hblank⟩
    have hkept : ∀ front, front ++ c :: b = (a ++ c :: b).rtakeWhile isBlank → False := by
      intro front h
      have hmem : d ∈ (a ++ c :: b).rtakeWhile isBlank :=
        h ▸ List.mem_append_right front (List.mem_cons_of_mem c hd)
      rw [List.mem_rtakeWhile_imp hmem] at hblank
      cases hblank
    rcases List.append_eq_append_iff.mp hsplit with ⟨y, ha, hy⟩ | ⟨y, hy, hb⟩
    · exact absurd hy.symm (hkept y)
    · cases y with
      | nil => exact absurd hb (hkept [])
      | cons e y =>
        rw [List.cons_append, List.cons.injEq] at hb
        rw [hy, hb.1]
        exact List.mem_append_right a List.mem_cons_self

/-! ## Ended lines -/

/-- Whether a text has no line that is not ended. -/
def IsEnded (t : Text) : Prop := t = [] ∨ t.getLast? = some '\n'

theorem isEnded_of_last {t : Text} (h : t.getLast? = some '\n') (s : Text) : IsEnded (s ++ t) := by
  rw [IsEnded, List.getLast?_append, h]
  exact .inr rfl

theorem isEnded_append {s t : Text} (hs : IsEnded s) (ht : IsEnded t) : IsEnded (s ++ t) := by
  rcases ht with rfl | ht
  · rwa [List.append_nil]
  · exact isEnded_of_last ht s

theorem isEnded_flatMap {α : Type} {f : α → Text} (hf : ∀ a, IsEnded (f a)) (l : List α) :
    IsEnded (l.flatMap f) := by
  induction l with
  | nil => exact .inl rfl
  | cons a l ih => exact isEnded_append (hf a) ih

/-- What ends the text is ended. -/
theorem IsEnded.of_append {s t : Text} (h : IsEnded (s ++ t)) : IsEnded t := by
  cases ht : t.getLast? with
  | none => exact .inl (List.getLast?_eq_none_iff.mp ht)
  | some c =>
    rcases h with h | h
    · exact .inl (List.append_eq_nil_iff.mp h).2
    · rw [List.getLast?_append, ht] at h
      exact .inr (ht.trans h)

end Text
end TestTransform
