/-
The normal form of a path.

A path is written from its components and read back into them, and what `normalize` writes
has a fixed shape: perhaps the root, perhaps one `..`, then names.  Folding such a list
again changes nothing, so all spellings of one normal form name the same path, and a normal form
whose last name gets an ending is one again.
-/
import TestTransform.Path.Resolve
import TestTransform.Proofs.Path.Order

namespace TestTransform

/-! ## Cutting and joining -/

namespace Text

attribute [local simp] splitOn in
theorem splitOn_ne_nil (c : Char) (t : Text) : splitOn c t ≠ [] := by
  cases t with
  | nil => simp
  | cons a t =>
    simp only [splitOn]
    split
    · simp
    · split <;> simp

theorem splitOn_of_not_mem {c : Char} {t : Text} (h : c ∉ t) : splitOn c t = [t] := by
  induction t with
  | nil => rfl
  | cons a t ih =>
    rw [List.mem_cons, not_or] at h
    have ha : (a == c) = false := by simpa using Ne.symm h.1
    simp only [splitOn, ha, ih h.2, Bool.false_eq_true, if_false]

theorem splitOn_append {c : Char} {t : Text} (h : c ∉ t) (s : Text) :
    splitOn c (t ++ c :: s) = t :: splitOn c s := by
  induction t with
  | nil => simp [splitOn]
  | cons a t ih =>
    rw [List.mem_cons, not_or] at h
    have ha : (a == c) = false := by simpa using Ne.symm h.1
    simp only [List.cons_append, splitOn, ha, ih h.2, Bool.false_eq_true, if_false]

/-- No piece holds the separator. -/
theorem not_mem_of_mem_splitOn {c : Char} {t piece : Text} (h : piece ∈ splitOn c t) :
    c ∉ piece := by
  induction t generalizing piece with
  | nil =>
    simp only [splitOn, List.mem_singleton] at h
    simp [h]
  | cons a t ih =>
    by_cases ha : (a == c) = true
    · simp only [splitOn, ha, if_true, List.mem_cons] at h
      rcases h with rfl | h
      · simp
      · exact ih h
    · simp only [splitOn, ha, Bool.false_eq_true, if_false] at h
      have hac : c ≠ a := by
        rintro rfl
        simp at ha
      split at h
      · rw [List.mem_singleton.mp h]
        simpa using hac
      · rename_i p ps hp
        rw [hp] at ih
        rcases List.mem_cons.mp h with rfl | h
        · simpa [hac] using ih (List.mem_cons_self)
        · exact ih (List.mem_cons_of_mem _ h)

theorem slash_toList : (("/" : String) : Text) = ['/'] := rfl

/-- Pieces without a slash are found again between the slashes put between them. -/
theorem splitOn_join {pieces : List Text} (hne : pieces ≠ []) (h : ∀ t ∈ pieces, '/' ∉ t) :
    splitOn '/' (join "/" pieces) = pieces := by
  induction pieces with
  | nil => exact absurd rfl hne
  | cons t ts ih =>
    cases ts with
    | nil => exact splitOn_of_not_mem (h t List.mem_cons_self)
    | cons u us =>
      rw [join.eq_3 _ _ _ (by simp), slash_toList, List.append_assoc, List.singleton_append,
        splitOn_append (h t List.mem_cons_self)]
      rw [← slash_toList, ih (by simp) fun s hs => h s (List.mem_cons_of_mem _ hs)]

theorem join_append_last (sep t ending : Text) (ts : List Text) :
    join sep (ts ++ [t ++ ending]) = join sep (ts ++ [t]) ++ ending := by
  induction ts with
  | nil => rfl
  | cons s ts ih =>
    rw [List.cons_append, List.cons_append, join.eq_3 _ _ _ (by simp), join.eq_3 _ _ _ (by simp),
      ih, List.append_assoc (s ++ sep)]

end Text

/-! ## Components as pieces of text -/

namespace Component

/-- Whether a text between slashes is a name, that is, spells a component of its own and
none of those with a meaning of theirs. -/
def IsName (t : Text) : Prop := t ≠ [] ∧ t ≠ ['.'] ∧ t ≠ ['.', '.'] ∧ '/' ∉ t

instance (t : Text) : Decidable (IsName t) := inferInstanceAs (Decidable (_ ∧ _))

/-- A component that may stand behind the first: `..` or a name. -/
def IsStep : Component → Prop
  | parent => True
  | normal name => IsName name
  | _ => False

/-- What a piece between slashes spells behind the first place. -/
def ofPiece? (piece : Text) : Option Component :=
  if piece = [] ∨ piece = ['.'] then none
  else if piece = ['.', '.'] then some parent
  else some (normal piece)

theorem ofPiece?_text {c : Component} (h : c.IsStep) : ofPiece? c.text = some c := by
  cases c with
  | parent => rfl
  | normal name =>
    obtain ⟨h₁, h₂, h₃, -⟩ := h
    simp [ofPiece?, text, h₁, h₂, h₃]
  | root => exact h.elim
  | current => exact h.elim

theorem isStep_of_ofPiece? {piece : Text} {c : Component} (hs : '/' ∉ piece)
    (h : ofPiece? piece = some c) : c.IsStep := by
  unfold ofPiece? at h
  split at h
  · cases h
  · rename_i hne
    rw [not_or] at hne
    split at h
    · cases h
      exact trivial
    · cases h
      exact ⟨hne.1, hne.2, ‹_›, hs⟩

theorem slash_not_mem_text {c : Component} (h : c.IsStep) : '/' ∉ c.text := by
  cases c with
  | parent => decide
  | normal name => exact h.2.2.2
  | root => exact h.elim
  | current => exact h.elim

theorem text_ne_nil {c : Component} (h : c.IsStep) : c.text ≠ [] := by
  cases c with
  | parent => decide
  | normal name => exact h.1
  | root => exact h.elim
  | current => exact h.elim

theorem text_ne_dot {c : Component} (h : c.IsStep) : c.text ≠ ['.'] := by
  cases c with
  | parent => decide
  | normal name => exact h.2.1
  | root => exact h.elim
  | current => exact h.elim

end Component

namespace Path

open Component

theorem spansFrom_map_component (n : Nat) (pieces : List Text) :
    (spansFrom n pieces).map (·.component) = pieces.filterMap ofPiece? := by
  induction pieces generalizing n with
  | nil => rfl
  | cons piece pieces ih =>
    by_cases h : piece = [] ∨ piece = ['.']
    · have hb : (piece == [] || piece == ['.']) = true := by simpa using h
      rw [spansFrom, if_pos hb, ih, List.filterMap_cons_none (by simp [ofPiece?, h])]
    · have hb : ¬ (piece == [] || piece == ['.']) = true := by simpa using h
      rw [spansFrom, if_neg hb]
      by_cases hp : piece = ['.', '.']
      · rw [if_pos (by simpa using hp), List.map_cons, ih,
          List.filterMap_cons_some (b := .parent) (by simp [ofPiece?, hp])]
      · rw [if_neg (by simpa using hp), List.map_cons, ih,
          List.filterMap_cons_some (b := .normal piece) (by simp [ofPiece?, h, hp])]

/-- The components of a text that begins with a slash. -/
theorem components_slash (t : Text) :
    (Path.mk ('/' :: t)).components = .root :: (Text.splitOn '/' t).filterMap ofPiece? := by
  have hs : Text.splitOn '/' ('/' :: t) = [] :: Text.splitOn '/' t := by simp [Text.splitOn]
  rw [components, spans, spansOf, List.map_cons, spansFrom_map_component, hs,
    List.filterMap_cons_none (by simp [ofPiece?])]

/-- The components of a text that begins neither with a slash nor with a piece `.`. -/
theorem components_of_relative {t : Text} (hs : t.head? ≠ some '/')
    (hd : (Text.splitOn '/' t).head? ≠ some ['.']) :
    (Path.mk t).components = (Text.splitOn '/' t).filterMap ofPiece? := by
  rw [components, spans, spansOf.eq_2 _ (by rintro rest rfl; simp at hs)]
  split
  · rename_i rest h
    simp [h] at hd
  · exact spansFrom_map_component _ _

/-- The components of an absolute path are the root and those of the pieces. -/
theorem components_of_isAbsolute {p : Path} (h : p.isAbsolute = true) :
    p.components = .root :: (Text.splitOn '/' p.text).filterMap ofPiece? := by
  obtain ⟨t⟩ := p
  obtain ⟨rest, rfl⟩ : ∃ rest, t = '/' :: rest := by
    cases t with
    | nil => cases h
    | cons c rest => exact ⟨rest, by rw [show c = '/' by simpa [isAbsolute] using h]⟩
  have hpieces : Text.splitOn '/' ('/' :: rest) = [] :: Text.splitOn '/' rest := by
    simp [Text.splitOn]
  rw [components_slash, hpieces, List.filterMap_cons_none (by simp [ofPiece?])]

/-- Those of a relative path are the ones of the pieces, perhaps behind a `.`. -/
theorem components_of_not_isAbsolute {p : Path} (h : p.isAbsolute = false) :
    ∃ first, p.components = first ++ (Text.splitOn '/' p.text).filterMap ofPiece? ∧
      (first = [] ∨ first = [.current]) := by
  obtain ⟨t⟩ := p
  have hs : t.head? ≠ some '/' := by simpa [isAbsolute] using h
  by_cases hd : (Text.splitOn '/' t).head? = some ['.']
  · obtain ⟨rest, hrest⟩ : ∃ rest, Text.splitOn '/' t = ['.'] :: rest := by
      cases hsp : Text.splitOn '/' t with
      | nil => simp [hsp] at hd
      | cons piece rest => exact ⟨rest, by simpa [hsp] using hd⟩
    refine ⟨[.current], ?_, .inr rfl⟩
    rw [components, spans, spansOf.eq_2 _ (by rintro rest rfl; simp at hs), hrest,
      List.filterMap_cons_none (by simp [ofPiece?])]
    simp only [List.map_cons, spansFrom_map_component, List.singleton_append]
  · exact ⟨[], components_of_relative hs hd, .inl rfl⟩

/-- The components are those of the pieces, behind what the text begins with. -/
theorem components_eq_append (p : Path) :
    ∃ first, p.components = first ++ (Text.splitOn '/' p.text).filterMap ofPiece? ∧
      (first = [] ∨ first = [.root] ∨ first = [.current]) := by
  cases h : p.isAbsolute with
  | true => exact ⟨[.root], components_of_isAbsolute h, .inr (.inl rfl)⟩
  | false =>
    obtain ⟨first, hp, hf⟩ := components_of_not_isAbsolute h
    exact ⟨first, hp, hf.imp_right .inr⟩

/-- All components of a path but perhaps the first are `..` or names. -/
theorem components_cases (p : Path) :
    ∃ first steps, p.components = first ++ steps ∧
      (first = [] ∨ first = [.root] ∨ first = [.current]) ∧ ∀ c ∈ steps, c.IsStep := by
  obtain ⟨first, hp, hf⟩ := components_eq_append p
  refine ⟨first, _, hp, hf, fun c hc => ?_⟩
  obtain ⟨piece, hpiece, hc⟩ := List.mem_filterMap.mp hc
  exact isStep_of_ofPiece? (Text.not_mem_of_mem_splitOn hpiece) hc

/-! ## Writing components down and reading them again -/

theorem filterMap_ofPiece?_text {cs : List Component} (h : ∀ c ∈ cs, c.IsStep) :
    (cs.map Component.text).filterMap ofPiece? = cs := by
  induction cs with
  | nil => rfl
  | cons c cs ih =>
    rw [List.map_cons, List.filterMap_cons_some (ofPiece?_text (h c List.mem_cons_self)),
      ih fun d hd => h d (List.mem_cons_of_mem _ hd)]

/-- The pieces between the slashes of a written list of steps spell the list. -/
theorem splitOn_join_text {cs : List Component} (h : ∀ c ∈ cs, c.IsStep) :
    (Text.splitOn '/' (Text.join "/" (cs.map Component.text))).filterMap ofPiece? = cs := by
  cases cs with
  | nil => rfl
  | cons c cs =>
    rw [Text.splitOn_join (by simp), filterMap_ofPiece?_text h]
    intro t ht
    obtain ⟨d, hd, rfl⟩ := List.mem_map.mp ht
    exact slash_not_mem_text (h d hd)

theorem components_ofComponents_root {cs : List Component} (h : ∀ c ∈ cs, c.IsStep) :
    (ofComponents (.root :: cs)).components = .root :: cs := by
  rw [ofComponents, components_slash, splitOn_join_text h]

theorem head?_join_text {c : Component} {cs : List Component} (h : ∀ d ∈ c :: cs, d.IsStep) :
    (Text.join "/" ((c :: cs).map Component.text)).head? = c.text.head? := by
  have hne := text_ne_nil (h c List.mem_cons_self)
  cases cs with
  | nil => rfl
  | cons d cs =>
    rw [List.map_cons, Text.join.eq_3 _ _ _ (by simp)]
    cases hc : c.text with
    | nil => exact absurd hc hne
    | cons a t => rfl

theorem components_ofComponents_steps {cs : List Component} (h : ∀ c ∈ cs, c.IsStep) :
    (ofComponents cs).components = cs := by
  cases cs with
  | nil => rfl
  | cons c cs =>
    have hc := h c List.mem_cons_self
    have hroot : c ≠ .root := by
      rintro rfl
      exact hc
    have hof : ofComponents (c :: cs) = ⟨Text.join "/" ((c :: cs).map Component.text)⟩ := by
      cases c <;> first | rfl | exact absurd rfl hroot
    have hsplit : Text.splitOn '/' (Text.join "/" ((c :: cs).map Component.text)) =
        (c :: cs).map Component.text := by
      refine Text.splitOn_join (by simp) fun t ht => ?_
      obtain ⟨d, hd, rfl⟩ := List.mem_map.mp ht
      exact slash_not_mem_text (h d hd)
    rw [hof, components_of_relative, hsplit, filterMap_ofPiece?_text h]
    · rw [head?_join_text h]
      intro hslash
      exact slash_not_mem_text hc (List.mem_of_mem_head? hslash)
    · rw [hsplit, List.map_cons, List.head?_cons]
      intro hdot
      exact text_ne_dot hc (Option.some.inj hdot)

/-! ## The shape of a normal form -/

/-- The components in front of the names of a normal form. -/
def bottoms : List (List Component) := [[], [.root], [.parent], [.parent, .root]]

/-- A stack of components with names on top of what a normal form may begin with. -/
def IsNormalStack (stack : List Component) : Prop :=
  ∃ (names : List Text) (bottom : List Component), stack = names.map Component.normal ++ bottom ∧
    (∀ name ∈ names, IsName name) ∧ bottom ∈ bottoms

theorem pushComponent_isNormalStack {stack : List Component} (h : IsNormalStack stack)
    {c : Component} (hc : c.IsStep) : IsNormalStack (pushComponent stack c) := by
  obtain ⟨names, bottom, rfl, hn, hb⟩ := h
  cases c with
  | root => exact hc.elim
  | current => exact hc.elim
  | normal name =>
    refine ⟨name :: names, bottom, by simp [pushComponent], ?_, hb⟩
    intro t ht
    rcases List.mem_cons.mp ht with rfl | ht
    · exact hc
    · exact hn t ht
  | parent =>
    cases names with
    | cons name names =>
      refine ⟨names, bottom, ?_, fun t ht => hn t (List.mem_cons_of_mem _ ht), hb⟩
      cases names <;> cases bottom <;> rfl
    | nil =>
      simp only [bottoms, List.mem_cons, List.not_mem_nil, or_false] at hb
      rcases hb with rfl | rfl | rfl | rfl
      · exact ⟨[], [.parent], rfl, by simp, by simp [bottoms]⟩
      · exact ⟨[], [.parent, .root], rfl, by simp, by simp [bottoms]⟩
      · exact ⟨[], [], rfl, by simp, by simp [bottoms]⟩
      · exact ⟨[], [.root], rfl, by simp, by simp [bottoms]⟩

theorem foldl_pushComponent_isNormalStack {cs stack : List Component} (h : IsNormalStack stack)
    (hc : ∀ c ∈ cs, c.IsStep) : IsNormalStack (cs.foldl pushComponent stack) := by
  induction cs generalizing stack with
  | nil => exact h
  | cons c cs ih =>
    exact ih (pushComponent_isNormalStack h (hc c List.mem_cons_self))
      fun d hd => hc d (List.mem_cons_of_mem _ hd)

theorem components_fold_isNormalStack (p : Path) :
    IsNormalStack (p.components.foldl pushComponent []) := by
  obtain ⟨first, steps, hp, hf, hs⟩ := components_cases p
  rw [hp, List.foldl_append]
  refine foldl_pushComponent_isNormalStack ?_ hs
  rcases hf with rfl | rfl | rfl
  · exact ⟨[], [], rfl, by simp, by simp [bottoms]⟩
  · exact ⟨[], [.root], rfl, by simp, by simp [bottoms]⟩
  · exact ⟨[], [], rfl, by simp, by simp [bottoms]⟩

theorem foldl_pushComponent_names (names : List Text) (stack : List Component) :
    (names.map Component.normal).foldl pushComponent stack =
      (names.map Component.normal).reverse ++ stack := by
  induction names generalizing stack with
  | nil => rfl
  | cons name names ih =>
    rw [List.map_cons, List.foldl_cons, ih, List.reverse_cons, List.append_assoc]
    rfl

/-- Folding a normal form again rebuilds the stack it came from. -/
theorem foldl_pushComponent_reverse {stack : List Component} (h : IsNormalStack stack) :
    stack.reverse.foldl pushComponent [] = stack := by
  obtain ⟨names, bottom, rfl, -, hb⟩ := h
  have hbottom : bottom.reverse.foldl pushComponent [] = bottom := by
    simp only [bottoms, List.mem_cons, List.not_mem_nil, or_false] at hb
    rcases hb with rfl | rfl | rfl | rfl <;> rfl
  rw [List.reverse_append, List.foldl_append, hbottom, ← List.map_reverse,
    foldl_pushComponent_names, ← List.map_reverse, List.reverse_reverse]

theorem components_ofComponents_reverse {stack : List Component} (h : IsNormalStack stack) :
    (ofComponents stack.reverse).components = stack.reverse := by
  obtain ⟨names, bottom, rfl, hn, hb⟩ := h
  have hstep : ∀ c ∈ (names.map Component.normal).reverse, c.IsStep := by
    intro c hc
    obtain ⟨name, hname, rfl⟩ := List.mem_map.mp (List.mem_reverse.mp hc)
    exact hn name hname
  have hparent : ∀ c ∈ Component.parent :: (names.map Component.normal).reverse, c.IsStep := by
    intro c hc
    rcases List.mem_cons.mp hc with rfl | hc
    · exact trivial
    · exact hstep c hc
  rw [List.reverse_append]
  simp only [bottoms, List.mem_cons, List.not_mem_nil, or_false] at hb
  rcases hb with rfl | rfl | rfl | rfl
  · exact components_ofComponents_steps hstep
  · exact components_ofComponents_root hstep
  · exact components_ofComponents_steps hparent
  · exact components_ofComponents_root hparent

/-! ## Normalizing -/

/-- The components of a normalized path are those that folding left over. -/
theorem components_normalize (p : Path) :
    p.normalize.components = normalComponents p.components :=
  components_ofComponents_reverse (components_fold_isNormalStack p)

theorem normalComponents_components (p : Path) :
    normalComponents (normalComponents p.components) = normalComponents p.components := by
  unfold normalComponents
  rw [foldl_pushComponent_reverse (components_fold_isNormalStack p)]

/-- Normalizing twice is normalizing once. -/
@[simp] theorem normalize_normalize (p : Path) : p.normalize.normalize = p.normalize := by
  rw [normalize, components_normalize, normalComponents_components]
  rfl

/-- All spellings of a path have one normal form. -/
theorem normalize_congr {p q : Path} (h : p.same q = true) : p.normalize = q.normalize := by
  rw [normalize, normalize, same_iff.mp h]

/-- Normal forms that are the same path are the same text. -/
theorem normalize_eq_of_same {p q : Path} (h : p.normalize.same q.normalize = true) :
    p.normalize = q.normalize := by
  rw [← normalize_normalize p, ← normalize_normalize q, normalize_congr h]

/-! ## Endings -/

theorem normalize_ofComponents_reverse {stack : List Component} (h : IsNormalStack stack) :
    (ofComponents stack.reverse).normalize = ofComponents stack.reverse := by
  rw [normalize, components_ofComponents_reverse h, normalComponents,
    foldl_pushComponent_reverse h]

/-- What is put behind the last component lengthens its name. -/
theorem ofComponents_append (cs : List Component) (c : Component) (hc : c ≠ .root) (ending : Text) :
    (ofComponents (cs ++ [c])).append ending =
      ofComponents (cs ++ [.normal (c.text ++ ending)]) := by
  have hjoin : ∀ cs : List Component, Text.join "/" ((cs ++ [c]).map Component.text) ++ ending =
      Text.join "/" ((cs ++ [Component.normal (c.text ++ ending)]).map Component.text) := by
    intro cs
    rw [List.map_append, List.map_append]
    exact (Text.join_append_last _ _ _ _).symm
  cases cs with
  | nil =>
    cases c <;> first
      | exact absurd rfl hc
      | exact congrArg Path.mk (hjoin [])
  | cons d ds =>
    cases d with
    | root => exact congrArg (fun t => Path.mk ('/' :: t)) (hjoin ds)
    | current => exact congrArg Path.mk (hjoin (.current :: ds))
    | parent => exact congrArg Path.mk (hjoin (.parent :: ds))
    | normal name => exact congrArg Path.mk (hjoin (.normal name :: ds))

/-- A normal form stays one with an ending that is no name with a meaning of its own. -/
theorem normalize_append {ending : Text} (hslash : '/' ∉ ending) (hlong : 3 ≤ ending.length)
    (p : Path) : (p.normalize.append ending).normalize = p.normalize.append ending := by
  have hname : ∀ t : Text, '/' ∉ t → IsName (t ++ ending) := by
    intro t ht
    have hlength : 3 ≤ (t ++ ending).length := by rw [List.length_append]; omega
    refine ⟨?_, ?_, ?_, by simp [ht, hslash]⟩ <;>
      (intro h; rw [h] at hlength; simp at hlength)
  obtain ⟨names, bottom, hstack, hnames, hbottom⟩ := components_fold_isNormalStack p
  have hp : p.normalize =
      ofComponents (bottom.reverse ++ (names.map Component.normal).reverse) := by
    rw [normalize, normalComponents, hstack, List.reverse_append]
  have hnew : ∀ (names : List Text) (bottom : List Component), (∀ name ∈ names, IsName name) →
      bottom ∈ bottoms →
      (ofComponents (bottom.reverse ++ (names.map Component.normal).reverse)).normalize =
        ofComponents (bottom.reverse ++ (names.map Component.normal).reverse) := by
    intro names bottom hnames hbottom
    have hstack : IsNormalStack (names.map Component.normal ++ bottom) :=
      ⟨names, bottom, rfl, hnames, hbottom⟩
    have hnormal := normalize_ofComponents_reverse hstack
    rwa [List.reverse_append] at hnormal
  rw [hp]
  cases names with
  | cons name names =>
    have hcons := List.forall_mem_cons.mp hnames
    rw [List.map_cons, List.reverse_cons, ← List.append_assoc,
      ofComponents_append _ _ (by simp) ending]
    have h := hnew ((name ++ ending) :: names) bottom
      (List.forall_mem_cons.mpr ⟨hname name hcons.1.2.2.2, hcons.2⟩) hbottom
    rwa [List.map_cons, List.reverse_cons, ← List.append_assoc] at h
  | nil =>
    simp only [bottoms, List.mem_cons, List.not_mem_nil, or_false] at hbottom
    rcases hbottom with rfl | rfl | rfl | rfl
    · exact hnew [ending] [] (by simpa using hname [] (by simp)) (by simp [bottoms])
    · exact hnew [ending] [.root] (by simpa using hname [] (by simp)) (by simp [bottoms])
    · exact hnew [".." ++ ending] [] (by simpa using hname ['.', '.'] (by simp)) (by simp [bottoms])
    · exact hnew [".." ++ ending] [.root] (by simpa using hname ['.', '.'] (by simp))
        (by simp [bottoms])

end Path
end TestTransform
