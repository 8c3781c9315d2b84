/-
The directories above a path.

The parent of a path is cut out of its text.  For an absolute path in normal form it is the
normal form of what is left without the last component, so all directories above the path are
in normal form, and so is a name below one of them.
-/
import TestTransform.Proofs.Path.Names

namespace TestTransform
namespace Path

open Component

/-! ## Where the last component ends -/

theorem spansFrom_step {c : Component} (hc : c.IsStep) (offset : Nat) (pieces : List Text) :
    spansFrom offset (c.text :: pieces) =
      ⟨c, offset, offset + c.text.length⟩ :: spansFrom (offset + c.text.length + 1) pieces := by
  have hplain : (c.text == [] || c.text == ['.']) = false := by
    simpa using ⟨text_ne_nil hc, text_ne_dot hc⟩
  rw [spansFrom, hplain]
  cases c with
  | root => exact hc.elim
  | current => exact hc.elim
  | parent => rfl
  | normal name =>
    have hname : IsName name := hc
    have hne : ((Component.normal name).text == ['.', '.']) = false :=
      beq_eq_false_iff_ne.mpr hname.2.2.1
    rw [hne]
    rfl

/-- One more piece has one more span. -/
theorem spansFrom_concat {cs : List Component} {c : Component} (hc : c.IsStep)
    (hcs : ∀ d ∈ cs, d.IsStep) (offset : Nat) :
    ∃ s, spansFrom offset ((cs ++ [c]).map Component.text) =
      spansFrom offset (cs.map Component.text) ++ [s] := by
  induction cs generalizing offset with
  | nil => exact ⟨_, spansFrom_step hc offset []⟩
  | cons d cs ih =>
    obtain ⟨s, hs⟩ := ih (fun e he => hcs e (List.mem_cons_of_mem _ he))
      (offset + d.text.length + 1)
    have hd := hcs d List.mem_cons_self
    refine ⟨s, ?_⟩
    rw [List.cons_append, List.map_cons, List.map_cons, spansFrom_step hd, spansFrom_step hd, hs,
      List.cons_append]

/-- The last of some steps ends where their text ends. -/
theorem stop_of_getLast?_spansFrom {cs : List Component} (hcs : ∀ c ∈ cs, c.IsStep)
    {offset : Nat} {s : Span} (hs : (spansFrom offset (cs.map Component.text)).getLast? = some s) :
    s.stop = offset + (Text.join "/" (cs.map Component.text)).length := by
  induction cs generalizing offset with
  | nil => cases hs
  | cons c cs ih =>
    rw [List.map_cons, spansFrom_step (hcs c List.mem_cons_self)] at hs
    cases cs with
    | nil =>
      cases hs
      rfl
    | cons d cs =>
      have hrest : ∀ e ∈ d :: cs, e.IsStep := fun e he => hcs e (List.mem_cons_of_mem _ he)
      rw [List.map_cons, spansFrom_step (hrest d List.mem_cons_self), List.getLast?_cons_cons,
        ← spansFrom_step (hrest d List.mem_cons_self), ← List.map_cons] at hs
      rw [ih hrest hs, List.map_cons (l := d :: cs), Text.join_cons_of_ne (by simp),
        List.length_append, List.length_append]
      have hslash : (("/" : String) : Text).length = 1 := rfl
      omega

/-! ## Absolute paths in normal form -/

/-- The absolute path with some components, the last one first. -/
def rooted (stack : List Component) : Path := ofComponents (.root :: stack.reverse)

/-- Whether components may stand behind the root in a normal form, the last one first: names
and, below them, perhaps a `..`. -/
def IsRooted (stack : List Component) : Prop :=
  ∃ (names : List Text) (ups : List Component), stack = names.map .normal ++ ups ∧
    (∀ name ∈ names, IsName name) ∧ (ups = [] ∨ ups = [.parent])

variable {stack : List Component} {c : Component} {p dir : Path} {name : Text}

theorem IsRooted.isNormalStack (h : IsRooted stack) : IsNormalStack (stack ++ [.root]) := by
  obtain ⟨names, ups, rfl, hnames, hups⟩ := h
  refine ⟨names, ups ++ [.root], List.append_assoc _ _ _, hnames, ?_⟩
  rcases hups with rfl | rfl <;> simp [bottoms]

theorem IsRooted.step (h : IsRooted stack) : ∀ c ∈ stack, c.IsStep := by
  obtain ⟨names, ups, rfl, hnames, hups⟩ := h
  intro c hc
  rcases List.mem_append.mp hc with hc | hc
  · obtain ⟨name, hname, rfl⟩ := List.mem_map.mp hc
    exact hnames name hname
  · rcases hups with rfl | rfl
    · exact absurd hc List.not_mem_nil
    · rw [List.mem_singleton.mp hc]
      trivial

theorem IsRooted.tail (h : IsRooted (c :: stack)) : IsRooted stack := by
  obtain ⟨names, ups, heq, hnames, hups⟩ := h
  cases names with
  | cons name names =>
    obtain ⟨-, rfl⟩ := List.cons.inj heq
    exact ⟨names, ups, rfl, fun n hn => hnames n (List.mem_cons_of_mem _ hn), hups⟩
  | nil =>
    rcases hups with rfl | rfl
    · cases heq
    · cases heq
      exact ⟨[], [], rfl, by simp, .inl rfl⟩

theorem IsRooted.cons (h : IsRooted stack) (hname : IsName name) :
    IsRooted (.normal name :: stack) := by
  obtain ⟨names, ups, rfl, hnames, hups⟩ := h
  refine ⟨name :: names, ups, rfl, fun n hn => ?_, hups⟩
  rcases List.mem_cons.mp hn with rfl | hn
  · exact hname
  · exact hnames n hn

theorem normalize_rooted (h : IsRooted stack) : (rooted stack).normalize = rooted stack := by
  have hnormal := normalize_ofComponents_reverse h.isNormalStack
  rwa [List.reverse_append, List.reverse_singleton, List.singleton_append] at hnormal

/-- An absolute path in normal form is that of its components. -/
theorem exists_rooted (habs : p.isAbsolute = true) (hn : p.normalize = p) :
    ∃ stack, IsRooted stack ∧ p = rooted stack := by
  obtain ⟨names, bottom, hstack, hnames, hb⟩ := components_fold_isNormalStack p
  have hp : p.components = (names.map Component.normal ++ bottom).reverse := by
    rw [← hn, components_normalize, normalComponents, hstack]
  have hroot : (names.map Component.normal ++ bottom).reverse.head? = some .root := by
    rw [← hp, components_of_isAbsolute habs]
    rfl
  have hof : p = ofComponents (names.map Component.normal ++ bottom).reverse := by
    rw [← hstack]
    exact hn.symm
  simp only [bottoms, List.mem_cons, List.not_mem_nil, or_false] at hb
  rcases hb with rfl | rfl | rfl | rfl
  · rw [List.append_nil, List.head?_reverse, List.getLast?_map] at hroot
    obtain ⟨_, -, hname⟩ := Option.map_eq_some_iff.mp hroot
    cases hname
  · refine ⟨names.map .normal, ⟨names, [], (List.append_nil _).symm, hnames, .inl rfl⟩, ?_⟩
    rw [hof, rooted, List.reverse_append]
    rfl
  · simp at hroot
  · refine ⟨names.map .normal ++ [.parent], ⟨names, [.parent], rfl, hnames, .inr rfl⟩, ?_⟩
    rw [hof, rooted, List.reverse_append, List.reverse_append]
    rfl

theorem spans_rooted (h : IsRooted stack) : (rooted stack).spans =
    ⟨.root, 0, 1⟩ :: spansFrom 1 (stack.reverse.map Component.text) := by
  have hstep : ∀ c ∈ stack.reverse, c.IsStep := fun c hc => h.step c (List.mem_reverse.mp hc)
  rw [rooted, ofComponents, spans, spansOf]
  refine congrArg (_ :: ·) ?_
  cases hcs : stack.reverse with
  | nil => rfl
  | cons c cs =>
    rw [hcs] at hstep
    have hsplit : Text.splitOn '/' (Text.join "/" ((c :: cs).map Component.text)) =
        (c :: cs).map Component.text := by
      refine Text.splitOn_join (by simp) fun t ht => ?_
      obtain ⟨d, hd, rfl⟩ := List.mem_map.mp ht
      exact slash_not_mem_text (hstep d hd)
    have hslash : ∀ u : Text, Text.splitOn '/' ('/' :: u) = [] :: Text.splitOn '/' u := fun u => by
      simp [Text.splitOn]
    rw [hslash, hsplit]
    rfl

theorem text_rooted (stack : List Component) :
    (rooted stack).text = '/' :: Text.join "/" (stack.reverse.map Component.text) := rfl

/-- One more component stands behind a slash, which is that of the root if it comes first. -/
theorem text_rooted_singleton (c : Component) : (rooted [c]).text = '/' :: c.text := rfl

theorem text_rooted_cons (c : Component) (hne : stack ≠ []) :
    (rooted (c :: stack)).text = (rooted stack).text ++ '/' :: c.text := by
  have hmap : stack.reverse.map Component.text ≠ [] := by simpa using hne
  rw [text_rooted, text_rooted, List.reverse_cons, List.map_append, List.map_singleton,
    Text.join_append hmap (List.cons_ne_nil _ _), List.append_assoc]
  rfl

theorem exists_text_rooted_cons (c : Component) (stack : List Component) :
    ∃ rest, (rooted (c :: stack)).text = (rooted stack).text ++ rest := by
  cases stack with
  | nil => exact ⟨c.text, text_rooted_singleton c⟩
  | cons d stack => exact ⟨'/' :: c.text, text_rooted_cons c (List.cons_ne_nil d stack)⟩

/-! ## Parents -/

theorem parent?_rooted_nil : (rooted []).parent? = none := rfl

/-- The last component ends where the text does. -/
theorem stop_of_getLast?_spans (h : IsRooted stack) {s : Span}
    (hs : (rooted stack).spans.getLast? = some s) : s.stop = (rooted stack).text.length := by
  have hstep : ∀ c ∈ stack.reverse, c.IsStep := fun c hc => h.step c (List.mem_reverse.mp hc)
  rw [spans_rooted h] at hs
  rw [text_rooted, List.length_cons]
  cases hcs : stack.reverse with
  | nil =>
    rw [hcs] at hs
    cases hs
    rfl
  | cons c cs =>
    rw [hcs] at hs hstep
    have hc := hstep c List.mem_cons_self
    rw [List.map_cons, spansFrom_step hc, List.getLast?_cons_cons, ← spansFrom_step hc,
      ← List.map_cons] at hs
    rw [stop_of_getLast?_spansFrom hstep hs, Nat.add_comm]

/-- The parent is what is left without the last component. -/
theorem parent?_rooted_cons (h : IsRooted (c :: stack)) :
    (rooted (c :: stack)).parent? = some (rooted stack) := by
  have hstep : ∀ d ∈ stack.reverse, d.IsStep :=
    fun d hd => h.tail.step d (List.mem_reverse.mp hd)
  obtain ⟨s, hs⟩ := spansFrom_concat (h.step c List.mem_cons_self) hstep 1
  have hspans : (rooted (c :: stack)).spans = (rooted stack).spans ++ [s] := by
    rw [spans_rooted h, spans_rooted h.tail, List.reverse_cons, hs, List.cons_append]
  -- The span in front of the last one ends where the text of the parent does.
  obtain ⟨last, hlast⟩ : ∃ last, (rooted stack).spans.getLast? = some last := by
    rw [spans_rooted h.tail]
    exact ⟨_, List.getLast?_cons ..⟩
  have hstop := stop_of_getLast?_spans h.tail hlast
  obtain ⟨front, hfront⟩ := List.getLast?_eq_some_iff.mp hlast
  have hreverse : (rooted (c :: stack)).spans.reverse = s :: last :: front.reverse := by
    rw [hspans, hfront, List.reverse_append, List.reverse_append]
    rfl
  obtain ⟨rest, hrest⟩ := exists_text_rooted_cons c stack
  rw [parent?, hreverse]
  dsimp only
  rw [hstop, hrest, List.take_left' rfl]

theorem mem_ancestorsUpTo_rooted (n : Nat) (h : IsRooted stack)
    (hdir : dir ∈ (rooted stack).ancestorsUpTo n) :
    ∃ above, IsRooted above ∧ dir = rooted above ∧ above <:+ stack := by
  induction n generalizing stack with
  | zero => exact ⟨stack, h, List.mem_singleton.mp hdir, List.suffix_rfl⟩
  | succ n ih =>
    rw [ancestorsUpTo] at hdir
    cases stack with
    | nil =>
      rw [parent?_rooted_nil] at hdir
      exact ⟨[], h, List.mem_singleton.mp hdir, List.suffix_rfl⟩
    | cons c stack =>
      rw [parent?_rooted_cons h] at hdir
      rcases List.mem_cons.mp hdir with rfl | hdir
      · exact ⟨c :: stack, h, rfl, List.suffix_rfl⟩
      · obtain ⟨above, habove, hdir, hsuffix⟩ := ih h.tail hdir
        exact ⟨above, habove, hdir, hsuffix.trans (List.suffix_cons c stack)⟩

/-! ## Names below a directory -/

theorem getLast?_text_rooted (h : IsRooted (c :: stack)) :
    (rooted (c :: stack)).text.getLast? ≠ some '/' := by
  obtain ⟨front, hfront⟩ : ∃ front, (rooted (c :: stack)).text = front ++ c.text := by
    cases stack with
    | nil => exact ⟨['/'], text_rooted_singleton c⟩
    | cons d stack =>
      refine ⟨(rooted (d :: stack)).text ++ ['/'], ?_⟩
      rw [text_rooted_cons c (List.cons_ne_nil d stack), List.append_assoc, List.singleton_append]
  have hc := h.step c List.mem_cons_self
  intro hlast
  rw [hfront, List.getLast?_append, Option.or_eq_some_iff] at hlast
  rcases hlast with hlast | ⟨hnone, -⟩
  · exact slash_not_mem_text hc (List.mem_of_getLast? hlast)
  · exact text_ne_nil hc (List.getLast?_eq_none_iff.mp hnone)

theorem join_rooted (h : IsRooted stack) (hname : IsName name) :
    (rooted stack).join ⟨name⟩ = rooted (.normal name :: stack) := by
  have hrelative : (Path.mk name).isAbsolute = false := by
    rw [isAbsolute, beq_eq_false_iff_ne]
    intro hhead
    exact hname.2.2.2 (List.mem_of_mem_head? hhead)
  rw [join, hrelative]
  cases stack with
  | nil => rfl
  | cons c stack =>
    have hplain : ((rooted (c :: stack)).text == [] ||
        (rooted (c :: stack)).text.getLast? == some '/') = false := by
      rw [Bool.or_eq_false_iff, beq_eq_false_iff_ne, beq_eq_false_iff_ne]
      exact ⟨List.cons_ne_nil _ _, getLast?_text_rooted h⟩
    rw [hplain]
    exact congrArg Path.mk (text_rooted_cons (.normal name) (List.cons_ne_nil c stack)).symm

/-- A name below a directory above a path in normal form is in normal form. -/
theorem normalize_join_of_mem_ancestors (habs : p.isAbsolute = true) (hn : p.normalize = p)
    (hdir : dir ∈ p.ancestors) (hname : IsName name) :
    (dir.join ⟨name⟩).normalize = dir.join ⟨name⟩ := by
  obtain ⟨stack, hstack, rfl⟩ := exists_rooted habs hn
  obtain ⟨above, habove, rfl, -⟩ := mem_ancestorsUpTo_rooted _ hstack hdir
  rw [join_rooted habove hname, normalize_rooted (habove.cons hname)]

end Path
end TestTransform
