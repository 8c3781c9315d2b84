/-
Names at the end of a path, and what their extensions are replaced by.
-/
import TestTransform.Proofs.Path.Normal

namespace TestTransform

/-! ## Beginnings and endings of texts -/

namespace Text

theorem dropPrefix?_append (head t : Text) : dropPrefix? head (head ++ t) = some t := by
  induction head with
  | nil => cases t <;> rfl
  | cons c head ih => simp [dropPrefix?, ih]

theorem dropPrefix?_eq_some {head t rest : Text} (h : dropPrefix? head t = some rest) :
    t = head ++ rest := by
  induction head generalizing t with
  | nil => simpa [dropPrefix?] using h
  | cons c head ih =>
    cases t with
    | nil => simp [dropPrefix?] at h
    | cons d t =>
      simp only [dropPrefix?] at h
      split at h
      · rename_i hcd
        rw [List.cons_append, ← ih h, beq_iff_eq.mp hcd]
      · cases h

theorem startsWith_iff {t head : Text} : startsWith t head = true ↔ ∃ rest, t = head ++ rest := by
  rw [startsWith, Option.isSome_iff_exists]
  constructor
  · rintro ⟨rest, h⟩
    exact ⟨rest, dropPrefix?_eq_some h⟩
  · rintro ⟨rest, rfl⟩
    exact ⟨rest, dropPrefix?_append head rest⟩

theorem endsWith_iff {t ending : Text} : endsWith t ending = true ↔ ∃ front, t = front ++ ending := by
  rw [endsWith, startsWith_iff]
  constructor
  · rintro ⟨rest, h⟩
    refine ⟨rest.reverse, ?_⟩
    rw [← List.reverse_reverse t, h, List.reverse_append, List.reverse_reverse]
  · rintro ⟨front, rfl⟩
    exact ⟨front.reverse, List.reverse_append⟩

theorem splitAtLast?_eq_some {part t before rest : Text}
    (h : splitAtLast? part t = some (before, rest)) :
    t = before ++ rest ∧ startsWith rest part = true := by
  induction t generalizing before with
  | nil =>
    simp only [splitAtLast?] at h
    split at h
    · rename_i hp
      cases h
      rw [List.isEmpty_iff.mp hp]
      exact ⟨rfl, rfl⟩
    · cases h
  | cons c t ih =>
    simp only [splitAtLast?] at h
    split at h
    · rename_i before' rest' ht
      cases h
      obtain ⟨ht, hr⟩ := ih ht
      exact ⟨by rw [ht, List.cons_append], hr⟩
    · split at h
      · rename_i hs
        cases h
        exact ⟨rfl, hs⟩
      · cases h

theorem join_cons_of_ne {sep t : Text} {ts : List Text} (h : ts ≠ []) :
    join sep (t :: ts) = t ++ sep ++ join sep ts := by
  cases ts with
  | nil => exact absurd rfl h
  | cons u us => rfl

theorem join_append {sep : Text} {ts us : List Text} (hts : ts ≠ []) (hus : us ≠ []) :
    join sep (ts ++ us) = join sep ts ++ sep ++ join sep us := by
  induction ts with
  | nil => exact absurd rfl hts
  | cons t ts ih =>
    cases ts with
    | nil => exact join_cons_of_ne hus
    | cons t' ts =>
      rw [List.cons_append, join_cons_of_ne (by simp), ih (List.cons_ne_nil t' ts),
        join_cons_of_ne (List.cons_ne_nil t' ts)]
      simp only [List.append_assoc]

/-- The pieces with the separator between them are the text again. -/
theorem join_pieces (c : Char) (t : Text) : join [c] (splitOn c t) = t := by
  induction t with
  | nil => rfl
  | cons d t ih =>
    have hne := splitOn_ne_nil c t
    simp only [splitOn]
    split
    · rename_i hd
      rw [join_cons_of_ne hne, ih, beq_iff_eq.mp hd]
      rfl
    · split
      · rename_i h
        exact absurd h hne
      · rename_i p ps h
        rw [h] at ih
        cases ps with
        | nil => rw [← ih]; rfl
        | cons q qs => rw [← ih]; rfl

theorem join_splitOn (t : Text) : join "/" (splitOn '/' t) = t := join_pieces '/' t

end Text

namespace Path

/-! ## Where components stand -/

theorem spansFrom_text (pieces : List Text) (before : Text) :
    ∀ s ∈ spansFrom before.length pieces,
      ((before ++ Text.join "/" pieces).take s.stop).drop s.start = s.component.text := by
  induction pieces generalizing before with
  | nil => simp [spansFrom]
  | cons piece rest ih =>
    -- The piece stands right behind `before`.
    have hhead : ((before ++ Text.join "/" (piece :: rest)).take (before.length + piece.length)).drop
        before.length = piece := by
      obtain ⟨tail, htail⟩ : ∃ tail, Text.join "/" (piece :: rest) = piece ++ tail := by
        cases rest with
        | nil => exact ⟨[], by simp [Text.join]⟩
        | cons u us => exact ⟨"/" ++ Text.join "/" (u :: us), by simp [Text.join]⟩
      rw [htail, ← List.append_assoc, ← List.length_append, List.take_left' rfl,
        List.drop_left' rfl]
    have hrest : ∀ s ∈ spansFrom (before.length + piece.length + 1) rest,
        ((before ++ Text.join "/" (piece :: rest)).take s.stop).drop s.start =
          s.component.text := by
      intro s hs
      have hne : rest ≠ [] := by
        rintro rfl
        simp [spansFrom] at hs
      have hlen : (before ++ piece ++ "/").length = before.length + piece.length + 1 := by
        rw [List.length_append, List.length_append]
        rfl
      have := ih (before ++ piece ++ "/") s (hlen ▸ hs)
      rwa [List.append_assoc, List.append_assoc, ← List.append_assoc piece,
        ← Text.join_cons_of_ne hne] at this
    intro s hs
    rw [spansFrom] at hs
    split at hs
    · exact hrest s hs
    · split at hs
      · rename_i hp
        rcases List.mem_cons.mp hs with rfl | hs
        · rw [hhead, beq_iff_eq.mp hp]
          rfl
        · exact hrest s hs
      · rcases List.mem_cons.mp hs with rfl | hs
        · exact hhead
        · exact hrest s hs

/-- A component stands in the text where its span says. -/
theorem text_of_mem_spans {p : Path} {s : Span} (h : s ∈ p.spans) :
    (p.text.take s.stop).drop s.start = s.component.text := by
  obtain ⟨t⟩ := p
  have hjoin := spansFrom_text (Text.splitOn '/' t) []
  rw [List.nil_append, Text.join_splitOn] at hjoin
  simp only [spans, spansOf] at h
  split at h
  · rcases List.mem_cons.mp h with rfl | h
    · rfl
    · exact hjoin s h
  · split at h
    · rename_i rest hsplit
      have ht := Text.join_splitOn t
      rw [hsplit] at ht
      rcases List.mem_cons.mp h with rfl | h
      · have hdot : ∃ tail, t = '.' :: tail := by
          rw [← ht]
          cases rest with
          | nil => exact ⟨[], rfl⟩
          | cons u us => exact ⟨"/" ++ Text.join "/" (u :: us), rfl⟩
        obtain ⟨tail, rfl⟩ := hdot
        rfl
      · have hne : rest ≠ [] := by
          rintro rfl
          simp [spansFrom] at h
        have := spansFrom_text rest "./" s h
        rw [Text.join_cons_of_ne hne] at ht
        rw [← ht]
        exact this
    · exact hjoin s h

/-! ## Extensions -/

theorem splitName_eq {name stem ext : Text} (h : splitName name = (stem, some ext)) :
    name = stem ++ '.' :: ext := by
  simp only [splitName] at h
  split at h
  · rename_i c s d e hs
    cases h
    obtain ⟨hname, hdot⟩ := Text.splitAtLast?_eq_some hs
    obtain ⟨rest, hr⟩ := Text.startsWith_iff.mp hdot
    rw [List.singleton_append, List.cons.injEq] at hr
    rw [hname, hr.1]
  · cases h

/-- With a new extension, a path ends in it or in two dots, or has no name to change. -/
theorem withExtension_cases (p : Path) {ext : Text} (hext : ext ≠ []) :
    (∃ front, (p.withExtension ext).text = front ++ '.' :: ext) ∨
      (∃ front, (p.withExtension ext).text = front ++ "..") ∨
      (p.name? = none ∧ p.withExtension ext = p) := by
  cases hlast : p.spans.getLast? with
  | none => exact .inr (.inr ⟨by simp [name?, hlast], by simp [withExtension, hlast]⟩)
  | some s =>
    obtain ⟨c, start, stop⟩ := s
    cases c with
    | normal name =>
      have hspan := text_of_mem_spans (List.mem_of_getLast? hlast)
      cases hsplit : splitName name with
      | mk stem old =>
        simp only [withExtension, hlast, hsplit]
        split
        · rename_i h
          simp only [Bool.and_eq_true, beq_iff_eq] at h
          obtain ⟨⟨rfl, hold⟩, rfl⟩ := h
          obtain ⟨e, rfl⟩ := Option.isSome_iff_exists.mp hold
          -- The name is `..` and an extension, and is cut behind the dots.
          have hname : p.text.drop start = ['.'] ++ '.' :: e := by
            rw [← splitName_eq hsplit]
            simpa [Component.text] using hspan
          refine .inr (.inl ⟨p.text.take start, ?_⟩)
          rw [List.take_add, hname]
          rfl
        · exact .inl ⟨p.text.take (start + stem.length), by simp [hext]⟩
    | root => exact .inr (.inr ⟨by simp [name?, hlast], by simp [withExtension, hlast]⟩)
    | current => exact .inr (.inr ⟨by simp [name?, hlast], by simp [withExtension, hlast]⟩)
    | parent => exact .inr (.inr ⟨by simp [name?, hlast], by simp [withExtension, hlast]⟩)

/-- A path in normal form that has no name consists of the root and `..` at most. -/
theorem text_of_normal_nameless {p : Path} (hn : p.normalize = p) (hname : p.name? = none) :
    p.text ∈ ([[], ['/'], ['.', '.'], ['/', '.', '.']] : List Text) := by
  obtain ⟨names, bottom, hstack, -, hb⟩ := components_fold_isNormalStack p
  have hcomponents : p.components = (p.components.foldl pushComponent []).reverse := by
    have := components_normalize p
    rwa [hn] at this
  have hlast : p.components.getLast? = p.spans.getLast?.map (·.component) := by
    rw [components, List.getLast?_map]
  have hnames : names = [] := by
    cases names with
    | nil => rfl
    | cons name names =>
      exfalso
      rw [hcomponents, hstack, List.getLast?_reverse] at hlast
      simp only [List.map_cons, List.cons_append, List.head?_cons] at hlast
      obtain ⟨s, hs, hc⟩ := Option.map_eq_some_iff.mp hlast.symm
      obtain ⟨c, start, stop⟩ := s
      simp only at hc
      subst hc
      simp [name?, hs] at hname
  subst hnames
  have htext : p.text = (ofComponents (p.components.foldl pushComponent []).reverse).text :=
    congrArg Path.text hn.symm
  rw [htext, hstack]
  simp only [bottoms, List.mem_cons, List.not_mem_nil, or_false] at hb
  rcases hb with rfl | rfl | rfl | rfl <;> decide

end Path
end TestTransform
