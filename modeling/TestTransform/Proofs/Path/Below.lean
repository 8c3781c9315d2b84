/-
What lies below a directory.

An absolute path in normal form lies below a directory if its components go on from those of the
directory.  Its text then begins with that of the directory, and what is left of it spells the
other components.  The directories around a path are those that it lies below.
-/
import TestTransform.Proofs.Path.Above
import TestTransform.Proofs.Path.Lexical

namespace TestTransform
namespace Path

open Component

variable {stack : List Component} {p q dir : Path}

/-! ## Components and text -/

theorem components_rooted (h : IsRooted stack) :
    (rooted stack).components = .root :: stack.reverse :=
  components_ofComponents_root fun c hc => h.step c (List.mem_reverse.mp hc)

theorem isAbsolute_rooted (stack : List Component) : (rooted stack).isAbsolute = true := rfl

/-- An absolute path in normal form is written as its components are. -/
theorem ofComponents_components (hn : p.normalize = p) : ofComponents p.components = p := by
  rw [← hn, components_normalize]
  rfl

theorem eq_of_components_eq (hp : p.normalize = p) (hq : q.normalize = q)
    (h : p.components = q.components) : p = q := by
  rw [← ofComponents_components hp, h, ofComponents_components hq]

/-- What is written behind a slash goes on from an absolute path. -/
theorem components_append_slash (habs : dir.isAbsolute = true) (t : Text) :
    (Path.mk (dir.text ++ '/' :: t)).components =
      dir.components ++ (Text.splitOn '/' t).filterMap ofPiece? := by
  have hhead : dir.text.head? = some '/' := by simpa [isAbsolute] using habs
  have habs' : (Path.mk (dir.text ++ '/' :: t)).isAbsolute = true := by
    simp [isAbsolute, hhead]
  rw [components_of_isAbsolute habs', components_of_isAbsolute habs, Text.splitOn_append_sep,
    List.filterMap_append, List.cons_append]

theorem IsRooted.of_suffix {above : List Component} (h : IsRooted stack)
    (hsuffix : above <:+ stack) : IsRooted above := by
  obtain ⟨below, rfl⟩ := hsuffix
  induction below with
  | nil => exact h
  | cons c below ih => exact ih h.tail

/-! ## Absolute paths in normal form -/

/-- Whether a path is absolute and in normal form. -/
structure IsSettled (p : Path) : Prop where
  absolute : p.isAbsolute = true
  normal : p.normalize = p

instance (p : Path) : Decidable p.IsSettled :=
  decidable_of_iff (p.isAbsolute = true ∧ p.normalize = p)
    ⟨fun h => ⟨h.1, h.2⟩, fun h => ⟨h.absolute, h.normal⟩⟩

theorem IsRooted.isSettled (h : IsRooted stack) : (rooted stack).IsSettled :=
  ⟨isAbsolute_rooted stack, normalize_rooted h⟩

theorem IsSettled.exists_rooted (h : p.IsSettled) : ∃ stack, IsRooted stack ∧ p = rooted stack :=
  Path.exists_rooted h.absolute h.normal

theorem isSettled_normalize (h : p.isAbsolute = true) : p.normalize.IsSettled := by
  have hcomponents := (components_normalize p).trans (normalComponents_absolute h)
  exact ⟨isAbsolute_of_components hcomponents, normalize_normalize p⟩

theorem isSettled_resolve (h : dir.isAbsolute = true) (p : Path) : (dir.resolve p).IsSettled := by
  refine ⟨isAbsolute_of_components (components_resolve h p), ?_⟩
  rw [resolve]
  split <;> exact normalize_normalize _

theorem isAbsolute_append (h : p.isAbsolute = true) (ending : Text) :
    (p.append ending).isAbsolute = true := by
  have hhead : p.text.head? = some '/' := by simpa [isAbsolute] using h
  simp [append, isAbsolute, hhead]

theorem isAbsolute_join (h : p.isAbsolute = true) (q : Path) : (p.join q).isAbsolute = true := by
  rw [join]
  split
  · assumption
  · split
    · exact isAbsolute_append h q.text
    · exact isAbsolute_append h ('/' :: q.text)

/-! ## Texts that go on -/

/-- The text of some steps in front of others. -/
def leading (cs : List Component) : Text := cs.flatMap fun c => c.text ++ ['/']

theorem join_leading (cs : List Component) {ds : List Component} (hds : ds ≠ []) :
    Text.join "/" ((cs ++ ds).map Component.text) =
      leading cs ++ Text.join "/" (ds.map Component.text) := by
  induction cs with
  | nil => rfl
  | cons c cs ih =>
    rw [List.cons_append, List.map_cons, Text.join_cons_of_ne (by simp [hds]), ih,
      Text.slash_toList, leading, leading, List.flatMap_cons]
    simp only [List.append_assoc]

theorem spansFrom_leading {cs : List Component} (hcs : ∀ c ∈ cs, c.IsStep) (offset : Nat)
    (ds : List Component) :
    spansFrom offset ((cs ++ ds).map Component.text) =
      spansFrom offset (cs.map Component.text) ++
        spansFrom (offset + (leading cs).length) (ds.map Component.text) := by
  induction cs generalizing offset with
  | nil => rfl
  | cons c cs ih =>
    have hc := hcs c List.mem_cons_self
    have hlength : offset + (leading (c :: cs)).length =
        offset + c.text.length + 1 + (leading cs).length := by
      rw [leading, List.flatMap_cons, List.length_append, List.length_append, ← leading,
        List.length_singleton]
      omega
    rw [List.cons_append, List.map_cons, List.map_cons, spansFrom_step hc, spansFrom_step hc,
      ih fun d hd => hcs d (List.mem_cons_of_mem c hd), List.cons_append, hlength]

/-- An absolute path that goes on from another has its text with a slash in front of more, unless
the other is the root. -/
theorem text_ofComponents_root {above below : List Component} (habove : above ≠ [])
    (hbelow : below ≠ []) : (ofComponents (.root :: (above ++ below))).text =
      (ofComponents (.root :: above)).text ++ '/' :: Text.join "/" (below.map Component.text) := by
  have hjoin : Text.join "/" (above.map Component.text ++ below.map Component.text) = _ :=
    Text.join_append (by simpa using habove) (by simpa using hbelow)
  rw [ofComponents, ofComponents, List.map_append, hjoin, List.append_assoc]
  rfl

/-! ## What is left of a path -/

section Relative

variable {above below : List Component}

/-- The spans of a path go on behind those of its beginning. -/
theorem spans_rooted_append (h : IsRooted stack) (hstack : stack.reverse = above ++ below) :
    (rooted stack).spans = (⟨.root, 0, 1⟩ :: spansFrom 1 (above.map Component.text)) ++
      spansFrom (1 + (leading above).length) (below.map Component.text) := by
  have habove : ∀ c ∈ above, c.IsStep := by
    intro c hc
    refine h.step c (List.mem_reverse.mp ?_)
    rw [hstack]
    exact List.mem_append_left below hc
  rw [spans_rooted h, hstack, spansFrom_leading habove, List.cons_append]

theorem length_spansFrom {cs : List Component} (hcs : ∀ c ∈ cs, c.IsStep) (offset : Nat) :
    (spansFrom offset (cs.map Component.text)).length = cs.length := by
  rw [← List.length_map (f := fun s => s.component), spansFrom_map_component,
    filterMap_ofPiece?_text hcs]

theorem length_spans (p : Path) : p.spans.length = p.components.length :=
  (List.length_map _).symm

/-- What is left of an absolute path in normal form behind a directory that it lies below. -/
theorem relativeTo?_rooted (h : IsRooted stack) (hstack : stack.reverse = above ++ below)
    (hdir : dir.components = .root :: above) :
    (rooted stack).relativeTo? dir = some (ofComponents below) := by
  have hstep : ∀ c ∈ above ++ below, c.IsStep := fun c hc =>
    h.step c (List.mem_reverse.mp (hstack ▸ hc))
  have hbelow : (rooted stack).isBelow dir = true := by
    rw [isBelow, components_rooted h, hdir, hstack, List.isPrefixOf_iff_prefix, ← List.cons_append]
    exact List.prefix_append _ _
  have hspans := spans_rooted_append h hstack
  have hlength : (⟨.root, 0, 1⟩ :: spansFrom 1 (above.map Component.text)).length =
      dir.spans.length := by
    rw [length_spans, hdir, List.length_cons, List.length_cons,
      length_spansFrom fun c hc => hstep c (List.mem_append_left below hc)]
  rw [relativeTo?, if_pos hbelow, hspans, List.drop_left' hlength]
  dsimp only
  cases hcs : below with
  | nil => rfl
  | cons c rest =>
    have hne : below ≠ [] := hcs ▸ List.cons_ne_nil c rest
    have hc : c.IsStep := hstep c (List.mem_append_right above (hcs ▸ List.mem_cons_self))
    -- What is left begins where the first further component does and ends with the text.
    have hfirst : (spansFrom (1 + (leading above).length) (below.map Component.text)).head? =
        some ⟨c, 1 + (leading above).length, 1 + (leading above).length + c.text.length⟩ := by
      rw [hcs, List.map_cons, spansFrom_step hc]
      rfl
    obtain ⟨last, hlast⟩ : ∃ last, (spansFrom (1 + (leading above).length)
        (below.map Component.text)).getLast? = some last := by
      rw [hcs, List.map_cons, spansFrom_step hc]
      exact ⟨_, List.getLast?_cons ..⟩
    have hstop : last.stop = (rooted stack).text.length := by
      refine stop_of_getLast?_spans h ?_
      rw [hspans, List.getLast?_append, hlast]
      rfl
    have htext : (rooted stack).text =
        ('/' :: leading above) ++ Text.join "/" (below.map Component.text) := by
      rw [text_rooted, hstack, join_leading above hne, List.cons_append]
    rw [← hcs, hfirst, hlast]
    dsimp only
    rw [hstop, List.take_length, htext, List.drop_left' (by rw [List.length_cons, Nat.add_comm])]
    have hroot : c ≠ .root := fun heq => (heq ▸ hc : Component.root.IsStep)
    rw [hcs, ofComponents]
    exact fun _ heq => hroot (List.cons.inj heq).1

end Relative

theorem isBelow_iff : p.isBelow dir = true ↔ dir.components <+: p.components :=
  List.isPrefixOf_iff_prefix

/-! ## Directories around a path -/

/-- The text of a directory around a path is the beginning of that of the path. -/
theorem text_prefix_of_mem_ancestors (h : q ∈ p.ancestors) : q.text <+: p.text := by
  have hparent : ∀ {p q : Path}, p.parent? = some q → q.text <+: p.text := by
    intro p q hq
    rw [parent?] at hq
    split at hq
    · cases hq
    · split at hq
      · cases hq
      · cases hq
        exact List.nil_prefix
    · cases hq
      exact List.take_prefix _ _
  rw [ancestors] at h
  revert h
  generalize p.spans.length = n
  intro h
  induction n generalizing p with
  | zero => exact List.mem_singleton.mp h ▸ List.prefix_rfl
  | succ n ih =>
    rw [ancestorsUpTo] at h
    split at h
    · exact List.mem_singleton.mp h ▸ List.prefix_rfl
    · rename_i parent hp
      obtain rfl | h := List.mem_cons.mp h
      · exact List.prefix_rfl
      · exact (ih h).trans (hparent hp)

theorem mem_ancestors_self (p : Path) : p ∈ p.ancestors := by
  rw [ancestors]
  cases p.spans.length with
  | zero => exact List.mem_singleton_self p
  | succ n =>
    rw [ancestorsUpTo]
    split
    · exact List.mem_singleton_self p
    · exact List.mem_cons_self

/-- Only an absolute path has absolute directories around it. -/
theorem isAbsolute_of_mem_ancestors (h : q ∈ p.ancestors) (hq : q.isAbsolute = true) :
    p.isAbsolute = true := by
  obtain ⟨rest, hrest⟩ := text_prefix_of_mem_ancestors h
  have hhead : q.text.head? = some '/' := by simpa [isAbsolute] using hq
  simp [isAbsolute, ← hrest, hhead]

theorem IsSettled.of_mem_ancestors (hp : p.IsSettled) (h : q ∈ p.ancestors) : q.IsSettled := by
  obtain ⟨stack, hstack, rfl⟩ := hp.exists_rooted
  obtain ⟨above, habove, rfl, -⟩ := mem_ancestorsUpTo_rooted _ hstack h
  exact habove.isSettled

/-- A path in normal form lies below the absolute directories around it, which are in normal form
as well. -/
theorem below_of_mem_ancestors (hn : p.normalize = p) (h : q ∈ p.ancestors)
    (hq : q.isAbsolute = true) : q.IsSettled ∧ q.components <+: p.components := by
  obtain ⟨stack, hstack, rfl⟩ := exists_rooted (isAbsolute_of_mem_ancestors h hq) hn
  obtain ⟨above, habove, rfl, hsuffix⟩ := mem_ancestorsUpTo_rooted _ hstack h
  refine ⟨habove.isSettled, ?_⟩
  rw [components_rooted habove, components_rooted hstack, List.cons_prefix_cons]
  exact ⟨rfl, List.reverse_prefix.mpr hsuffix⟩

end Path
end TestTransform
