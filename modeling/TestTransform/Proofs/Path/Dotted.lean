/-
Names with a dot in them.

Whatever is put behind the name of an imported module, the file that is then looked for has
a dot in its name.  So a file without one, such as that of a graph, is never imported.
-/
import TestTransform.Proofs.Path.Names

namespace TestTransform

namespace Text

theorem splitOn_append_sep (c : Char) (s t : Text) :
    splitOn c (s ++ c :: t) = splitOn c s ++ splitOn c t := by
  induction s with
  | nil => simp [splitOn]
  | cons a s ih =>
    rw [List.cons_append, splitOn, splitOn, ih]
    split
    · rfl
    · cases h : splitOn c s with
      | nil => exact absurd h (splitOn_ne_nil c s)
      | cons p ps => rfl

/-- What holds no separator only lengthens the last piece. -/
theorem splitOn_append_plain {c : Char} {t : Text} (ht : c ∉ t) (s : Text) :
    ∃ front last, splitOn c s = front ++ [last] ∧ splitOn c (s ++ t) = front ++ [last ++ t] := by
  induction s with
  | nil => exact ⟨[], [], rfl, by rw [List.nil_append, splitOn_of_not_mem ht]; rfl⟩
  | cons a s ih =>
    obtain ⟨front, last, hs, hst⟩ := ih
    rw [List.cons_append, splitOn, splitOn, hs, hst]
    split
    · exact ⟨[] :: front, last, rfl, rfl⟩
    · cases front with
      | nil => exact ⟨[], a :: last, rfl, rfl⟩
      | cons p ps => exact ⟨(a :: p) :: ps, last, rfl, rfl⟩

end Text

namespace Path

open Component

/-! ## The name of a path -/

theorem name?_eq_some_iff {p : Path} {name : Text} :
    p.name? = some name ↔ p.components.getLast? = some (.normal name) := by
  rw [components, List.getLast?_map, name?]
  cases p.spans.getLast? with
  | none => simp
  | some s =>
    obtain ⟨c, start, stop⟩ := s
    cases c <;> simp

/-- The piece behind the last slash is the name, if it can be one. -/
theorem name?_of_splitOn {p : Path} (front : List Text) {piece : Text}
    (h : Text.splitOn '/' p.text = front ++ [piece]) (hp : IsName piece) :
    p.name? = some piece := by
  obtain ⟨first, hfirst, -⟩ := components_eq_append p
  have hpiece : ofPiece? piece = some (.normal piece) := ofPiece?_text (c := .normal piece) hp
  rw [name?_eq_some_iff, hfirst, h, List.filterMap_append, List.filterMap_cons_some hpiece,
    List.filterMap_nil, ← List.append_assoc, List.getLast?_concat]

theorem name?_normalize {p : Path} {name : Text} (h : p.name? = some name) :
    p.normalize.name? = some name := by
  rw [name?_eq_some_iff] at h ⊢
  obtain ⟨front, hfront⟩ := List.getLast?_eq_some_iff.mp h
  rw [components_normalize, hfront, normalComponents, List.foldl_append]
  simp [pushComponent]

theorem name?_join (dir : Path) {name : Text} (h : IsName name) :
    (dir.join ⟨name⟩).name? = some name := by
  have hslash := h.2.2.2
  have hrelative : (Path.mk name).isAbsolute = false := by
    rw [isAbsolute, beq_eq_false_iff_ne]
    intro hhead
    exact hslash (List.mem_of_mem_head? hhead)
  have hsplit := Text.splitOn_of_not_mem hslash
  simp only [join, hrelative, Bool.false_eq_true, if_false]
  split
  · rename_i hdir
    rw [Bool.or_eq_true, beq_iff_eq, beq_iff_eq] at hdir
    rcases hdir with hdir | hdir
    · refine name?_of_splitOn [] ?_ h
      rw [hdir, List.nil_append, hsplit]
      rfl
    · obtain ⟨front, hfront⟩ := List.getLast?_eq_some_iff.mp hdir
      refine name?_of_splitOn (Text.splitOn '/' front) ?_ h
      rw [hfront, List.append_assoc, List.singleton_append, Text.splitOn_append_sep, hsplit]
  · refine name?_of_splitOn (Text.splitOn '/' dir.text) ?_ h
    rw [Text.splitOn_append_sep, hsplit]

/-! ## Dots -/

/-- Whether the name of a path has a dot in it. -/
def IsDotted (p : Path) : Prop := ∃ name, p.name? = some name ∧ '.' ∈ name

theorem IsDotted.normalize {p : Path} (h : p.IsDotted) : p.normalize.IsDotted := by
  obtain ⟨name, hname, hdot⟩ := h
  exact ⟨name, name?_normalize hname, hdot⟩

theorem isDotted_of_extension? {p : Path} (h : p.extension?.isSome = true) : p.IsDotted := by
  obtain ⟨ext, hext⟩ := Option.isSome_iff_exists.mp h
  rw [extension?, Option.bind_eq_some_iff] at hext
  obtain ⟨name, hname, hsplit⟩ := hext
  cases hparts : splitName name with
  | mk stem old =>
    rw [hparts] at hsplit
    cases hsplit
    refine ⟨name, hname, ?_⟩
    rw [splitName_eq hparts]
    simp

/-- An ending with a dot makes a name with a dot, if it is too long to make `..`. -/
theorem isDotted_append {ending : Text} (hslash : '/' ∉ ending) (hdot : '.' ∈ ending)
    (hlong : 3 ≤ ending.length) (p : Path) : (p.append ending).IsDotted := by
  obtain ⟨front, last, -, hsplit⟩ := Text.splitOn_append_plain hslash p.text
  have hlength : 3 ≤ (last ++ ending).length := by
    rw [List.length_append]
    omega
  refine ⟨last ++ ending, name?_of_splitOn _ hsplit ⟨?_, ?_, ?_, ?_⟩, by simp [hdot]⟩
  · rintro h
    simp [h] at hlength
  · rintro h
    simp [h] at hlength
  · rintro h
    simp [h] at hlength
  · exact Text.not_mem_of_mem_splitOn (by rw [hsplit]; simp)

theorem isDotted_append_slash {name : Text} (h : IsName name) (hdot : '.' ∈ name) (p : Path) :
    (p.append ('/' :: name)).IsDotted := by
  refine ⟨name, name?_of_splitOn (Text.splitOn '/' p.text) ?_ h, hdot⟩
  rw [append, Text.splitOn_append_sep, Text.splitOn_of_not_mem h.2.2.2]

theorem not_isDotted_join (dir : Path) {name : Text} (h : IsName name) (hdot : '.' ∉ name) :
    ¬ (dir.join ⟨name⟩).normalize.IsDotted := by
  rintro ⟨name', hname, hdot'⟩
  rw [name?_normalize (name?_join dir h)] at hname
  cases hname
  exact hdot hdot'

end Path
end TestTransform
