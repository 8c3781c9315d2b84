/-
The name of a path with a new extension.

A name begins behind a slash, so a path that is cut within its name has the rest of that for its
last piece, and what is put behind the cut only lengthens it.
-/
import TestTransform.Proofs.Path.Dotted

namespace TestTransform
namespace Path

open Component

/-- Whether a text ends where a component can begin. -/
def Opens (front : Text) : Prop := front = [] ∨ front.getLast? = some '/'

theorem opens_append_slash (t : Text) : Opens (t ++ ['/']) := .inr List.getLast?_concat

/-- A component of the pieces begins at the start of a piece. -/
theorem opens_take_start (pieces : List Text) {before : Text} (hbefore : Opens before) :
    ∀ s ∈ spansFrom before.length pieces,
      Opens ((before ++ Text.join "/" pieces).take s.start) := by
  induction pieces generalizing before with
  | nil => simp [spansFrom]
  | cons piece rest ih =>
    have hrest : ∀ s ∈ spansFrom (before.length + piece.length + 1) rest,
        Opens ((before ++ Text.join "/" (piece :: rest)).take s.start) := by
      intro s hs
      have hne : rest ≠ [] := by
        rintro rfl
        simp [spansFrom] at hs
      have hlength : (before ++ piece ++ ['/']).length = before.length + piece.length + 1 := by
        simp only [List.length_append, List.length_singleton]
      have hopens := ih (opens_append_slash (before ++ piece)) s (hlength ▸ hs)
      rwa [List.append_assoc, List.append_assoc, ← List.append_assoc piece, ← Text.slash_toList,
        ← Text.join_cons_of_ne hne] at hopens
    have hhead : Opens ((before ++ Text.join "/" (piece :: rest)).take before.length) := by
      rwa [List.take_left' rfl]
    intro s hs
    rw [spansFrom] at hs
    split at hs
    · exact hrest s hs
    · split at hs
      · rcases List.mem_cons.mp hs with rfl | hs
        · exact hhead
        · exact hrest s hs
      · rcases List.mem_cons.mp hs with rfl | hs
        · exact hhead
        · exact hrest s hs

/-- In front of the name of a path stands nothing or a slash. -/
theorem opens_take_of_mem_spans {p : Path} {s : Span} (h : s ∈ p.spans) :
    Opens (p.text.take s.start) := by
  obtain ⟨t⟩ := p
  have hjoin := opens_take_start (Text.splitOn '/' t) (.inl rfl : Opens [])
  rw [List.nil_append, Text.join_splitOn] at hjoin
  simp only [spans, spansOf] at h
  split at h
  · rcases List.mem_cons.mp h with rfl | h
    · exact .inl rfl
    · exact hjoin s h
  · split at h
    · rename_i rest hsplit
      have ht := Text.join_splitOn t
      rw [hsplit] at ht
      rcases List.mem_cons.mp h with rfl | h
      · exact .inl rfl
      · have hne : rest ≠ [] := by
          rintro rfl
          simp [spansFrom] at h
        rw [Text.join_cons_of_ne hne] at ht
        rw [← ht]
        exact opens_take_start rest (opens_append_slash ['.']) s h
    · exact hjoin s h

/-- If what stands behind the last slash is not left out as a component, the name is that. -/
theorem name_eq_of_opens {front piece : Text} (hfront : Opens front) (hslash : '/' ∉ piece)
    (hne : piece ≠ []) (hdot : piece ≠ ['.']) :
    ∀ name ∈ (Path.mk (front ++ piece)).name?, name = piece := by
  intro name hname
  have hsplit : ∃ pieces, Text.splitOn '/' (front ++ piece) = pieces ++ [piece] := by
    rcases hfront with rfl | hlast
    · exact ⟨[], Text.splitOn_of_not_mem hslash⟩
    · obtain ⟨before, rfl⟩ := List.getLast?_eq_some_iff.mp hlast
      exact ⟨Text.splitOn '/' before, by rw [List.append_assoc, List.singleton_append,
        Text.splitOn_append_sep, Text.splitOn_of_not_mem hslash]⟩
  obtain ⟨pieces, hsplit⟩ := hsplit
  obtain ⟨first, hfirst, -⟩ := components_eq_append (Path.mk (front ++ piece))
  obtain ⟨c, hc, htext⟩ : ∃ c, ofPiece? piece = some c ∧ (c = .parent ∨ c = .normal piece) := by
    rw [ofPiece?, if_neg (not_or.mpr ⟨hne, hdot⟩)]
    split
    · exact ⟨_, rfl, .inl rfl⟩
    · exact ⟨_, rfl, .inr rfl⟩
  rw [Option.mem_def, name?_eq_some_iff, hfirst, hsplit, List.filterMap_append,
    List.filterMap_cons_some hc, List.filterMap_nil, ← List.append_assoc, List.getLast?_concat,
    Option.some.injEq] at hname
  rw [hname] at htext
  rcases htext with h | h
  · cases h
  · exact Component.normal.inj h

theorem slash_not_mem_name {p : Path} {name : Text} (h : p.name? = some name) : '/' ∉ name := by
  obtain ⟨first, steps, hcomponents, hfirst, hsteps⟩ := components_cases p
  have hmem : Component.normal name ∈ p.components :=
    List.mem_of_getLast? (name?_eq_some_iff.mp h)
  rw [hcomponents, List.mem_append] at hmem
  rcases hmem with hmem | hmem
  · rcases hfirst with rfl | rfl | rfl <;> simp at hmem
  · exact slash_not_mem_text (hsteps _ hmem)

/-- The stem of a name is what the name begins with. -/
theorem exists_splitName (name : Text) : ∃ rest, name = (splitName name).1 ++ rest := by
  cases h : splitName name with
  | mk stem old =>
    cases old with
    | some ext => exact ⟨'.' :: ext, splitName_eq h⟩
    | none =>
      refine ⟨[], ?_⟩
      simp only [splitName] at h
      split at h
      · cases h
      · rw [← congrArg Prod.fst h, List.append_nil]

/-- A new extension brings no characters into the name but its own. -/
theorem not_mem_name_withExtension {p : Path} {name ext : Text} {c : Char}
    (hname : p.name? = some name) (hc : c ∉ name) (hdot : c ≠ '.') (hext : c ∉ ext)
    (hne : ext ≠ []) (hslash : '/' ∉ ext) : ∀ new ∈ (p.withExtension ext).name?, c ∉ new := by
  obtain ⟨s, hlast, hs⟩ : ∃ s, p.spans.getLast? = some s ∧ s.component = .normal name := by
    have hcomponent := name?_eq_some_iff.mp hname
    rw [components, List.getLast?_map] at hcomponent
    exact Option.map_eq_some_iff.mp hcomponent
  obtain ⟨component, start, stop⟩ := s
  obtain rfl : component = .normal name := hs
  have hmem := List.mem_of_getLast? hlast
  have hopens := opens_take_of_mem_spans hmem
  have htext : (p.text.take stop).drop start = name := text_of_mem_spans hmem
  have hname' := slash_not_mem_name hname
  intro new hnew
  -- Wherever the name is cut, what is left of it stands behind the same slash.
  have hcut : ∀ kept rest, name = kept ++ rest →
      p.text.take (start + kept.length) = p.text.take start ++ kept := by
    intro kept rest hkept
    have hdrop : p.text.drop start = kept ++ (rest ++ (p.text.drop start).drop (stop - start)) := by
      rw [← List.append_assoc, ← hkept, ← htext, List.drop_take, List.take_append_drop]
    rw [List.take_add, hdrop, List.take_left' rfl]
  obtain ⟨rest, hstem⟩ := exists_splitName name
  cases hsplit : splitName name with
  | mk stem old =>
    rw [hsplit] at hstem
    simp only [withExtension, hlast, hsplit] at hnew
    split at hnew
    · rename_i hdots
      simp only [Bool.and_eq_true, beq_iff_eq] at hdots
      obtain ⟨⟨rfl, hold⟩, -⟩ := hdots
      obtain ⟨old, rfl⟩ := Option.isSome_iff_exists.mp hold
      have htake : p.text.take (start + 2) = p.text.take start ++ ['.', '.'] :=
        hcut ['.', '.'] old (splitName_eq hsplit)
      rw [htake] at hnew
      rw [name_eq_of_opens hopens (by decide) (by decide) (by decide) new hnew]
      simp [hdot]
    · have htake : p.text.take (start + stem.length) = p.text.take start ++ stem :=
        hcut stem rest hstem
      rw [htake, if_neg (by simpa using hne), List.append_assoc] at hnew
      have hpiece : new = stem ++ '.' :: ext := by
        refine name_eq_of_opens hopens ?_ (by simp) ?_ new hnew
        · rw [hstem] at hname'
          simp only [List.mem_append, List.mem_cons, not_or] at hname' ⊢
          exact ⟨hname'.1, by decide, hslash⟩
        · intro hsingle
          rcases List.append_eq_singleton_iff.mp hsingle with ⟨-, h⟩ | ⟨-, h⟩
          · exact hne (List.cons.inj h).2
          · cases h
      rw [hstem, List.mem_append, not_or] at hc
      simp [hpiece, hc.1, hdot, hext]

end Path
end TestTransform
