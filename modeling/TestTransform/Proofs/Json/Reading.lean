/-
What is written is read again.

A compact text has no blanks, so the reader finds each bracket, comma and quote where it
was put, and the fuel that the text is long is enough.
-/
import Mathlib.Data.List.Forall2
import TestTransform.Proofs.Json.Compact

namespace TestTransform
namespace Json

open Form

/-! ## Forms -/

/-- Whether what is written for a value is read as a form, whatever may stand behind it. -/
def Reads (j : Json) (f : Form) : Prop :=
  ∀ fuel rest, (compact j).length ≤ fuel → Stops rest →
    parse? fuel (compact j ++ rest) = some (f, rest)

theorem skip_cons {c : Char} (h : isSpace c = false) (t : Text) : skip (c :: t) = c :: t := by
  rw [skip, List.dropWhile_cons_of_neg (by simp [h])]

theorem skip_compact (x : Json) (rest : Text) :
    skip (compact x ++ rest) = compact x ++ rest := by
  obtain ⟨c, tail, hx, hc⟩ := lead_compact x
  rw [hx, List.cons_append]
  refine skip_cons ?_ _
  rw [Bool.eq_false_iff]
  intro h
  simp only [isSpace, Bool.or_eq_true] at h
  rcases h with ((h | h) | h) | h <;> rw [LawfulBEq.eq_of_beq h] at hc <;> cases x <;> cases hc

theorem skip_compactItems (xs : List Json) (rest : Text) :
    skip (compactItems xs ++ rest) = compactItems xs ++ rest := by
  cases xs <;> exact skip_cons rfl _

theorem skip_compactFields (fs : Fields) (rest : Text) :
    skip (compactFields fs ++ rest) = compactFields fs ++ rest := by
  cases fs <;> exact skip_cons rfl _

theorem compact_ne_nil (x : Json) : compact x ≠ [] := by
  obtain ⟨c, tail, hx, -⟩ := lead_compact x
  rw [hx]
  exact List.cons_ne_nil c tail

theorem reads_str (t : Text) : Reads (.str t) (.str (t.map letterOf)) := by
  intro fuel rest hfuel _
  cases fuel with
  | zero => exact absurd (List.length_eq_zero_iff.mp (Nat.le_zero.mp hfuel)) (compact_ne_nil _)
  | succ fuel =>
    rw [compact, quoted, List.cons_append, List.append_assoc, List.singleton_append, parse?,
      skip_cons rfl]
    simp only [string?_flatMap_escape, Option.map_some]

/-- The items of an array, if each of them is read. -/
theorem items?_arrayBody {xs : List Json} {fs : List Form} (hxs : List.Forall₂ Reads xs fs) :
    ∀ {x f}, Reads x f → ∀ fuel rest, (arrayBody (x :: xs)).length ≤ fuel →
      Form.items? fuel (arrayBody (x :: xs) ++ rest) = some (f :: fs, rest) := by
  induction hxs with
  | nil =>
    intro x f hx fuel rest hfuel
    rw [arrayBody, List.length_append] at hfuel
    obtain ⟨fuel, rfl⟩ : ∃ n, fuel = n + 1 := ⟨fuel - 1, by simp [compactItems] at hfuel; omega⟩
    have hvalue := hx fuel _ (by simp [compactItems] at hfuel; omega) (stops_compactItems [] rest)
    rw [arrayBody, List.append_assoc, Form.items?, hvalue]
    rfl
  | @cons y g ys gs hy hys ih =>
    intro x f hx fuel rest hfuel
    rw [arrayBody, compactItems_cons, List.length_append, List.length_cons] at hfuel
    obtain ⟨fuel, rfl⟩ : ∃ n, fuel = n + 1 := ⟨fuel - 1, by omega⟩
    have hvalue := hx fuel _ (by omega) (stops_compactItems (y :: ys) rest)
    rw [arrayBody, List.append_assoc, Form.items?, hvalue]
    simp only [skip_compactItems]
    rw [compactItems_cons, List.cons_append]
    simp only [ih hy fuel rest (by omega), Option.map_some]

theorem reads_arr {xs : List Json} {fs : List Form} (h : List.Forall₂ Reads xs fs) :
    Reads (.arr xs) (.arr fs) := by
  intro fuel rest hfuel _
  rw [compact_arr, List.length_cons] at hfuel
  obtain ⟨fuel, rfl⟩ : ∃ n, fuel = n + 1 := ⟨fuel - 1, by omega⟩
  rw [compact_arr, List.cons_append, parse?, skip_cons rfl]
  cases h with
  | nil => rfl
  | @cons x f xs fs hx hxs =>
    have hskip : skip (arrayBody (x :: xs) ++ rest) = arrayBody (x :: xs) ++ rest := by
      rw [arrayBody, List.append_assoc, skip_compact]
    have hitems := items?_arrayBody hxs hx fuel rest (by omega)
    simp only [hskip]
    split
    · rename_i tail heq
      rw [arrayBody, List.append_assoc] at heq
      exact absurd heq (compact_append_ne rfl)
    · rw [hitems]
      rfl

/-- Whether a field is read as the form of a field. -/
def ReadsField (field : Text × Json) (f : List Letter × Form) : Prop :=
  f.1 = field.1.map letterOf ∧ Reads field.2 f.2

/-- The fields of an object, if each of them is read. -/
theorem fields?_objectBody {xs : Fields} {fs : List (List Letter × Form)}
    (hxs : List.Forall₂ ReadsField xs fs) :
    ∀ {x f}, ReadsField x f → ∀ fuel rest, (objectBody (x :: xs)).length ≤ fuel →
      Form.fields? fuel (objectBody (x :: xs) ++ rest) = some (f :: fs, rest) := by
  induction hxs with
  | nil =>
    rintro ⟨k, x⟩ ⟨l, f⟩ ⟨rfl, hx⟩ fuel rest hfuel
    simp only [objectBody, quoted, List.length_append, List.length_cons] at hfuel
    obtain ⟨fuel, rfl⟩ : ∃ n, fuel = n + 1 := ⟨fuel - 1, by omega⟩
    simp only [objectBody, quoted, List.cons_append, List.append_assoc, List.nil_append]
    rw [Form.fields?, skip_cons rfl]
    simp only [string?_flatMap_escape, skip_cons (c := ':') rfl]
    have hvalue := hx fuel _ (by dsimp only; omega) (stops_compactFields [] rest)
    rw [hvalue]
    rfl
  | @cons y g ys gs hy hys ih =>
    rintro ⟨k, x⟩ ⟨l, f⟩ ⟨rfl, hx⟩ fuel rest hfuel
    rw [objectBody, compactFields_cons, List.length_append, List.length_cons, List.length_append,
      List.length_cons] at hfuel
    obtain ⟨fuel, rfl⟩ : ∃ n, fuel = n + 1 := ⟨fuel - 1, by omega⟩
    simp only [objectBody, quoted, List.cons_append, List.append_assoc, List.nil_append]
    rw [Form.fields?, skip_cons rfl]
    simp only [string?_flatMap_escape, skip_cons (c := ':') rfl]
    have hvalue := hx fuel _ (by dsimp only; omega) (stops_compactFields (y :: ys) rest)
    rw [hvalue]
    simp only [skip_compactFields]
    rw [compactFields_cons, List.cons_append]
    simp only [ih hy fuel rest (by omega), Option.map_some]

theorem reads_obj {xs : Fields} {fs : List (List Letter × Form)}
    (h : List.Forall₂ ReadsField xs fs) : Reads (.obj xs) (.obj fs) := by
  intro fuel rest hfuel _
  rw [compact_obj, List.length_cons] at hfuel
  obtain ⟨fuel, rfl⟩ : ∃ n, fuel = n + 1 := ⟨fuel - 1, by omega⟩
  rw [compact_obj, List.cons_append, parse?, skip_cons rfl]
  cases h with
  | nil => rfl
  | @cons x f xs fs hx hxs =>
    have hskip : skip (objectBody (x :: xs) ++ rest) = objectBody (x :: xs) ++ rest :=
      skip_cons rfl _
    have hfields := fields?_objectBody hxs hx fuel rest (by omega)
    simp only [hskip]
    split
    · rename_i tail heq
      cases heq
    · rw [hfields]
      rfl

/-- The form of a whole text. -/
theorem Reads.ofText? {j : Json} {f : Form} (h : Reads j f) : Form.ofText? j.compact = some f := by
  have hparse := h (j.compact.length + 1) [] (Nat.le_succ _) (by simp [Stops])
  rw [List.append_nil] at hparse
  rw [Form.ofText?, hparse]
  rfl

end Json
end TestTransform
