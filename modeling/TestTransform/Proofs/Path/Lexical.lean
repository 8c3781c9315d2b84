/-
What a path means by its text alone.

A walk along the components of a path keeps the names of the directory that it is in, and
counts how often it is led above the place where it began.  `normalize` works on a stack in
which the names are these names; what is below them shows only whether the count is odd.
So a path resolves to the directory that it leads to, where the root is its own parent,
unless it leads above the root an odd number of times: then a `..` stays behind the root.
Likewise of several `..` at the beginning of a relative path all but one are lost in pairs.
-/
import TestTransform.Proofs.Path.Dotted

namespace TestTransform
namespace Path

open Component

/-! ## Walks -/

/-- Where a walk has come to. -/
structure Position where
  /-- The names that lead to the directory, the innermost first. -/
  names : List Text
  /-- How often the walk was led above the place where it began. -/
  above : Nat

namespace Position

/-- Where all walks from the root begin, and those that are seen by themselves. -/
def start : Position := ⟨[], 0⟩

/-- A walk goes on by one component.  Above its beginning there is nothing to go to. -/
def step (s : Position) : Component → Position
  | .root => start
  | .current => s
  | .parent =>
    match s.names with
    | [] => ⟨[], s.above + 1⟩
    | _ :: names => ⟨names, s.above⟩
  | .normal name => ⟨name :: s.names, s.above⟩

/-- The components that lead to the directory from where the walk began. -/
def components (s : Position) : List Component := (s.names.map .normal).reverse

/-- A position as it is seen by one who knows that the walk began in a directory `dir` below
the root, and that the way there went above the root `before` times. -/
def within (s : Position) (dir : List Text) (before : Nat) : Position :=
  ⟨s.names ++ dir.drop s.above, before + (s.above - dir.length)⟩

/-- The stack that stands for a position; `bottom` is what the walk began with. -/
def stack (s : Position) (bottom : List Component) : List Component :=
  s.names.map .normal ++ (if s.above % 2 = 0 then bottom else .parent :: bottom)

end Position

/-- The position that components lead to. -/
def walk (s : Position) (cs : List Component) : Position := cs.foldl Position.step s

/-- Where `p` leads to from the directory `base`; both are followed from the root. -/
def positionIn (base p : Path) : Position := walk .start (base.components ++ p.components)

/-- The lexical resolution of `p` against `base`, in which the root is its own parent. -/
def lexical (base p : Path) : Path := ofComponents (.root :: (positionIn base p).components)

theorem walk_append (s : Position) (cs ds : List Component) :
    walk s (cs ++ ds) = walk (walk s cs) ds := List.foldl_append

/-! ## Walks and stacks -/

namespace Position

variable {s : Position} {bottom : List Component} {c : Component}

theorem pushComponent_stack (hb : bottom ∈ ([[], [.root]] : List (List Component)))
    (hc : c ≠ .root) : pushComponent (s.stack bottom) c = (s.step c).stack bottom := by
  obtain ⟨names, above⟩ := s
  cases c with
  | root => exact absurd rfl hc
  | current => rfl
  | normal name => rfl
  | parent =>
    cases names with
    | nil =>
      -- The `..` is put down, or takes away the one that was put down before.
      simp only [List.mem_cons, List.not_mem_nil, or_false] at hb
      rcases Nat.mod_two_eq_zero_or_one above with h | h
      · have h' : (above + 1) % 2 = 1 := by omega
        rcases hb with rfl | rfl <;> simp [stack, step, h, h', pushComponent]
      · have h' : (above + 1) % 2 = 0 := by omega
        rcases hb with rfl | rfl <;> simp [stack, step, h, h', pushComponent]
    | cons name names =>
      simp only [stack, step, List.map_cons, List.cons_append]
      exact pushComponent.eq_4 _ _ (by simp) |>.trans rfl

theorem step_within (hc : c ≠ .root) (dir : List Text) (before : Nat) :
    (s.step c).within dir before = (s.within dir before).step c := by
  obtain ⟨names, above⟩ := s
  cases c with
  | root => exact absurd rfl hc
  | current => rfl
  | normal name => rfl
  | parent =>
    cases names with
    | cons name names => rfl
    | nil =>
      -- Outside, the walk leaves `dir`, or is above the root already.
      simp only [step, within, List.nil_append]
      cases hdrop : dir.drop above with
      | nil =>
        have hle : dir.length ≤ above := List.drop_eq_nil_iff.mp hdrop
        rw [List.drop_eq_nil_of_le (by omega)]
        simp only [mk.injEq, true_and]
        omega
      | cons name rest =>
        have hlength := congrArg List.length hdrop
        rw [List.length_drop, List.length_cons] at hlength
        have hrest : dir.drop (above + 1) = rest := by
          rw [← List.drop_drop, hdrop]
          rfl
        simp only [hrest, mk.injEq, true_and]
        omega

end Position

theorem foldl_pushComponent_stack {bottom : List Component}
    (hb : bottom ∈ ([[], [.root]] : List (List Component))) {cs : List Component}
    (hcs : Component.root ∉ cs) (s : Position) :
    cs.foldl pushComponent (s.stack bottom) = (walk s cs).stack bottom := by
  induction cs generalizing s with
  | nil => rfl
  | cons c cs ih =>
    rw [List.mem_cons, not_or] at hcs
    rw [List.foldl_cons, Position.pushComponent_stack hb (Ne.symm hcs.1), ih hcs.2]
    rfl

theorem walk_within {cs : List Component} (hcs : Component.root ∉ cs) (s : Position)
    (dir : List Text) (before : Nat) :
    walk (s.within dir before) cs = (walk s cs).within dir before := by
  induction cs generalizing s with
  | nil => rfl
  | cons c cs ih =>
    rw [List.mem_cons, not_or] at hcs
    show walk ((s.within dir before).step c) cs = (walk (s.step c) cs).within dir before
    rw [← Position.step_within (Ne.symm hcs.1), ih hcs.2]

/-! ## Components of paths -/

theorem root_not_mem_filterMap (pieces : List Text) :
    Component.root ∉ pieces.filterMap ofPiece? := by
  intro h
  obtain ⟨piece, -, hpiece⟩ := List.mem_filterMap.mp h
  unfold ofPiece? at hpiece
  split at hpiece
  · cases hpiece
  · split at hpiece <;> cases hpiece

theorem root_not_mem_components {p : Path} (h : p.isAbsolute = false) :
    Component.root ∉ p.components := by
  obtain ⟨first, hp, hfirst⟩ := components_of_not_isAbsolute h
  rw [hp, List.mem_append, not_or]
  refine ⟨?_, root_not_mem_filterMap _⟩
  rcases hfirst with rfl | rfl <;> simp

theorem isAbsolute_of_components {p : Path} {cs : List Component}
    (h : p.components = .root :: cs) : p.isAbsolute = true := by
  cases hp : p.isAbsolute with
  | true => rfl
  | false => exact absurd (h ▸ List.mem_cons_self) (root_not_mem_components hp)

/-- A walk takes no notice of the `.` that a path may begin with. -/
theorem walk_relative {p : Path} (h : p.isAbsolute = false) (s : Position) :
    walk s p.components = walk s ((Text.splitOn '/' p.text).filterMap ofPiece?) := by
  obtain ⟨first, hp, rfl | rfl⟩ := components_of_not_isAbsolute h
  · rw [hp, List.nil_append]
  · rw [hp]
    rfl

/-- What is hung below a directory leads on from where the directory is. -/
theorem walk_join {base p : Path} (hb : base.isAbsolute = true) (hp : p.isAbsolute = false)
    (s : Position) :
    walk s (base.join p).components = walk s (base.components ++ p.components) := by
  have happend : ∀ front tail : Text, (front ++ '/' :: tail).head? = some '/' →
      (Path.mk (front ++ '/' :: tail)).components =
        .root :: ((Text.splitOn '/' front).filterMap ofPiece? ++
          (Text.splitOn '/' tail).filterMap ofPiece?) := by
    intro front tail habsolute
    rw [components_of_isAbsolute (by simpa [isAbsolute] using habsolute),
      Text.splitOn_append_sep, List.filterMap_append]
  have hhead : base.text.head? = some '/' := by simpa [isAbsolute] using hb
  obtain ⟨c, rest, hbase⟩ : ∃ c rest, base.text = c :: rest := by
    cases hbase : base.text with
    | nil => simp [hbase] at hhead
    | cons c rest => exact ⟨c, rest, rfl⟩
  rw [walk_append, walk_relative hp, ← walk_append, components_of_isAbsolute hb, List.cons_append]
  simp only [join, hp, Bool.false_eq_true, if_false]
  split
  · rename_i hends
    -- The directory ends in a slash, behind which there is nothing.
    rw [Bool.or_eq_true, beq_iff_eq, beq_iff_eq, hbase] at hends
    obtain ⟨front, hfront⟩ := List.getLast?_eq_some_iff.mp (hends.resolve_left (by simp))
    have hsplit : (Text.splitOn '/' base.text).filterMap ofPiece? =
        (Text.splitOn '/' front).filterMap ofPiece? := by
      rw [hbase, hfront, Text.splitOn_append_sep, List.filterMap_append]
      simp [Text.splitOn, ofPiece?]
    have htext : base.text ++ p.text = front ++ '/' :: p.text := by
      rw [hbase, hfront, List.append_assoc, List.singleton_append]
    rw [htext, happend _ _ (by rw [← htext, hbase]; simpa [hbase] using hhead), hsplit]
  · rw [happend _ _ (by rw [hbase]; simpa [hbase] using hhead)]

/-! ## Normal forms -/

/-- The components that `normalize` leaves in front of the names. -/
def Position.ups (s : Position) : List Component := List.replicate (s.above % 2) .parent

theorem Position.reverse_stack (s : Position) (bottom : List Component) :
    (s.stack bottom).reverse = bottom.reverse ++ (s.ups ++ s.components) := by
  rw [stack, List.reverse_append, ups, components]
  rcases Nat.mod_two_eq_zero_or_one s.above with h | h <;> simp [h]

/-- The normal form of a relative path. -/
theorem normalComponents_relative {p : Path} (h : p.isAbsolute = false) :
    normalComponents p.components =
      (walk .start p.components).ups ++ (walk .start p.components).components := by
  have hbottom : [] ∈ ([[], [.root]] : List (List Component)) := by simp
  have hfold := foldl_pushComponent_stack hbottom
    (root_not_mem_components h) .start
  have hstart : Position.start.stack [] = [] := rfl
  rw [normalComponents, ← hstart, hfold, Position.reverse_stack]
  rfl

/-- The normal form of an absolute path. -/
theorem normalComponents_absolute {p : Path} (h : p.isAbsolute = true) :
    normalComponents p.components = .root ::
      ((walk .start p.components).ups ++ (walk .start p.components).components) := by
  have hp := components_of_isAbsolute h
  have hbottom : [.root] ∈ ([[], [.root]] : List (List Component)) := by simp
  have hfold := foldl_pushComponent_stack hbottom
    (root_not_mem_filterMap (Text.splitOn '/' p.text)) .start
  have hstart : pushComponent [] .root = Position.start.stack [.root] := rfl
  rw [hp, normalComponents, List.foldl_cons, hstart, hfold, Position.reverse_stack]
  rfl

/-- What a path resolves to. -/
theorem components_resolve {base : Path} (hb : base.isAbsolute = true) (p : Path) :
    (base.resolve p).components = .root ::
      ((base.positionIn p).ups ++ (base.positionIn p).components) := by
  rw [resolve]
  split
  · rename_i hp
    have hwalk : base.positionIn p = walk .start p.components := by
      rw [positionIn, walk_append, components_of_isAbsolute hp]
      rfl
    rw [components_normalize, normalComponents_absolute hp, hwalk]
  · rename_i hp
    rw [Bool.not_eq_true] at hp
    have hjoin : (base.join p).isAbsolute = true := by
      have hhead : base.text.head? = some '/' := by simpa [isAbsolute] using hb
      simp only [join, hp, Bool.false_eq_true, if_false]
      split <;> simp [isAbsolute, hhead]
    rw [components_normalize, normalComponents_absolute hjoin, walk_join hb hp]
    rfl

theorem ofComponents_components_resolve (base p : Path) :
    ofComponents (base.resolve p).components = base.resolve p := by
  rw [resolve]
  split <;> rw [components_normalize] <;> rfl

theorem Position.normal_of_mem {s : Position} {c : Component} (h : c ∈ s.components) :
    ∃ name, c = .normal name := by
  obtain ⟨name, -, rfl⟩ := List.mem_map.mp (List.mem_reverse.mp h)
  exact ⟨name, rfl⟩

theorem Position.mem_ups {s : Position} {c : Component} :
    c ∈ s.ups ↔ s.above % 2 = 1 ∧ c = .parent := by
  rw [ups, List.mem_replicate]
  exact and_congr_left fun _ => by omega

theorem Position.components_injective {s s' : Position} (h : s.components = s'.components) :
    s.names = s'.names := by
  have hmap := List.reverse_inj.mp h
  exact (List.map_inj_right fun a b hab => Component.normal.inj hab).mp hmap

/-- The `..` in front of the names can be told from the names. -/
theorem Position.parent_mem_iff (s : Position) :
    .parent ∈ s.ups ++ s.components ↔ s.above % 2 = 1 := by
  rw [List.mem_append, mem_ups]
  constructor
  · rintro (⟨hodd, -⟩ | hmem)
    · exact hodd
    · obtain ⟨name, hname⟩ := normal_of_mem hmem
      cases hname
  · exact fun hodd => .inl ⟨hodd, rfl⟩

theorem Position.eq_of_append_eq {s s' : Position}
    (h : s.ups ++ s.components = s'.ups ++ s'.components) :
    s.above % 2 = s'.above % 2 ∧ s.names = s'.names := by
  have hodd : s.above % 2 = 1 ↔ s'.above % 2 = 1 := by
    rw [← parent_mem_iff, ← parent_mem_iff, h]
  have habove : s.above % 2 = s'.above % 2 := by omega
  refine ⟨habove, components_injective ?_⟩
  rw [ups, ups, habove] at h
  exact List.append_cancel_left h

theorem resolve_eq_iff {base : Path} (hb : base.isAbsolute = true) (p q : Path) :
    base.resolve p = base.resolve q ↔
      (base.positionIn p).above % 2 = (base.positionIn q).above % 2 ∧
        (base.positionIn p).names = (base.positionIn q).names := by
  constructor
  · intro h
    have hcomponents := congrArg Path.components h
    rw [components_resolve hb, components_resolve hb, List.cons.injEq] at hcomponents
    exact Position.eq_of_append_eq hcomponents.2
  · rintro ⟨habove, hnames⟩
    rw [← ofComponents_components_resolve base p, ← ofComponents_components_resolve base q,
      components_resolve hb, components_resolve hb, Position.ups, Position.ups,
      Position.components, Position.components, habove, hnames]

/-- A walk up and down the names is seen in the components of the lexical resolution. -/
theorem components_lexical {base : Path} (hb : base.isAbsolute = true) (p : Path) :
    (base.lexical p).components = .root :: (base.positionIn p).components := by
  refine components_ofComponents_root fun c hc => ?_
  obtain ⟨first, steps, hp, hfirst, hsteps⟩ := components_cases (base.resolve p)
  have hmem : c ∈ first ++ steps := by
    rw [← hp, components_resolve hb]
    exact List.mem_cons_of_mem _ (List.mem_append_right _ hc)
  obtain ⟨name, rfl⟩ := Position.normal_of_mem hc
  rcases List.mem_append.mp hmem with h | h
  · rcases hfirst with rfl | rfl | rfl <;> simp at h
  · exact hsteps _ h

/-- A path resolves to what it means if it does not lead above the root, or does so an even
number of times. -/
theorem resolve_eq_lexical_iff {base : Path} (hb : base.isAbsolute = true) (p : Path) :
    base.resolve p = base.lexical p ↔ (base.positionIn p).above % 2 = 0 := by
  constructor
  · intro h
    have hcomponents := congrArg Path.components h
    rw [components_resolve hb, components_lexical hb, List.cons.injEq] at hcomponents
    have hups : (base.positionIn p).ups = [] := List.append_left_eq_self.mp hcomponents.2
    simpa [Position.ups] using hups
  · intro h
    rw [← ofComponents_components_resolve, components_resolve hb, Position.ups, h]
    rfl

/-! ## Normal forms as seen from a directory -/

/-- Where a relative path leads to from a directory follows from where it leads to by itself. -/
theorem positionIn_eq_within {p : Path} (hp : p.isAbsolute = false) (base : Path) :
    base.positionIn p = (walk .start p.components).within (walk .start base.components).names
      (walk .start base.components).above := by
  have hbase : walk .start base.components =
      Position.start.within (walk .start base.components).names
        (walk .start base.components).above := by
    simp [Position.within, Position.start]
  calc base.positionIn p = walk (walk .start base.components) p.components := walk_append _ _ _
    _ = walk (Position.start.within (walk .start base.components).names
          (walk .start base.components).above) p.components := congrArg (walk · p.components) hbase
    _ = _ := walk_within (root_not_mem_components hp) _ _ _

theorem walk_names (names : List Text) (s : Position) :
    walk s (names.map .normal).reverse = ⟨names ++ s.names, s.above⟩ := by
  induction names with
  | nil => rfl
  | cons name names ih =>
    rw [List.map_cons, List.reverse_cons, walk_append, ih]
    rfl

/-- Of the `..` that a relative path begins with, a normal form has one or none. -/
theorem walk_normalize {p : Path} (hp : p.isAbsolute = false) :
    walk .start p.normalize.components =
      ⟨(walk .start p.components).names, (walk .start p.components).above % 2⟩ := by
  have hups : ∀ n : Nat, walk .start (List.replicate n .parent) = ⟨[], n⟩ := by
    intro n
    induction n with
    | zero => rfl
    | succ n ih =>
      rw [List.replicate_succ', walk_append, ih]
      rfl
  rw [components_normalize, normalComponents_relative hp, walk_append, Position.ups, hups,
    Position.components, walk_names, List.append_nil]

theorem not_isAbsolute_normalize {p : Path} (hp : p.isAbsolute = false) :
    p.normalize.isAbsolute = false := by
  rw [Bool.eq_false_iff]
  intro h
  have hcomponents := components_of_isAbsolute h
  rw [components_normalize, normalComponents_relative hp] at hcomponents
  have hmem : Component.root ∈ (walk .start p.components).ups ++
      (walk .start p.components).components := hcomponents ▸ List.mem_cons_self
  rcases List.mem_append.mp hmem with h | h
  · cases (Position.mem_ups.mp h).2
  · obtain ⟨name, hname⟩ := Position.normal_of_mem h
    cases hname

/-- How many `..` a relative path begins with when those behind names are folded. -/
def leadingUps (p : Path) : Nat := (walk .start p.components).above

/-- How many names there are on the way from the root to a directory. -/
def depth (p : Path) : Nat := (walk .start p.components).names.length

/-- Normalizing a relative path first makes no difference if it begins with no more than one
`..`.  With more of them all but one are lost in pairs, which makes none only where there is
nothing to leave any more. -/
theorem resolve_normalize_iff {base p : Path} (hb : base.isAbsolute = true)
    (hp : p.isAbsolute = false) :
    base.resolve p.normalize = base.resolve p ↔
      p.leadingUps ≤ 1 ∨ base.depth = 0 ∨ (base.depth = 1 ∧ p.leadingUps % 2 = 1) := by
  rw [resolve_eq_iff hb, positionIn_eq_within hp,
    positionIn_eq_within (not_isAbsolute_normalize hp), walk_normalize hp, leadingUps, depth]
  generalize walk .start p.components = s
  generalize walk .start base.components = t
  obtain ⟨names, ups⟩ := s
  obtain ⟨dir, before⟩ := t
  simp only [Position.within, List.append_cancel_left_eq]
  have hdrop : dir.drop (ups % 2) = dir.drop ups ↔ dir.length - ups % 2 = dir.length - ups := by
    constructor
    · intro h
      rw [← List.length_drop, ← List.length_drop, h]
    · intro h
      rcases Nat.lt_or_ge ups dir.length with hlt | hge
      · rw [show ups % 2 = ups by omega]
      · rw [List.drop_eq_nil_of_le hge, List.drop_eq_nil_of_le (by omega)]
  rw [hdrop]
  omega

/-! ## Resolving -/

/-- Whatever is resolved against an absolute directory gives an absolute path without `.`,
which is the lexical resolution with one `..` behind the root if it leads above the root an
odd number of times, and without it otherwise.  A relative path can be normalized first if
it begins with no more than one `..`. -/
theorem resolve_lexically {base : Path} (hb : base.isAbsolute = true) (p : Path) :
    (base.resolve p).isAbsolute = true ∧
      .current ∉ (base.resolve p).components ∧
      (.parent ∈ (base.resolve p).components ↔ (base.positionIn p).above % 2 = 1) ∧
      (base.resolve p).components = .root ::
        (List.replicate ((base.positionIn p).above % 2) .parent ++
          (base.positionIn p).components) ∧
      (base.resolve p = base.lexical p ↔ (base.positionIn p).above % 2 = 0) ∧
      (p.isAbsolute = false → (base.resolve p.normalize = base.resolve p ↔
        p.leadingUps ≤ 1 ∨ base.depth = 0 ∨ (base.depth = 1 ∧ p.leadingUps % 2 = 1))) := by
  have hcomponents := components_resolve hb p
  refine ⟨isAbsolute_of_components hcomponents, ?_, ?_, hcomponents, resolve_eq_lexical_iff hb p,
    resolve_normalize_iff hb⟩
  · rw [hcomponents, List.mem_cons, List.mem_append, Position.mem_ups]
    rintro (h | ⟨-, h⟩ | h)
    · cases h
    · cases h
    · obtain ⟨name, hname⟩ := Position.normal_of_mem h
      cases hname
  · rw [hcomponents, List.mem_cons, Position.parent_mem_iff, or_iff_right (by simp)]

/-- A path that leads out of a directory and above the root, and into the root's `src`. -/
theorem resolve_lexically_climbing :
    ((ofString "/a").resolve (ofString "../../../src")).components =
        [.root, .normal "src"] ∧
      (ofString "/a").resolve (ofString "../../../src") =
        (ofString "/a").lexical (ofString "../../../src") := by
  have hbase : (ofString "/a").isAbsolute = true := by decide
  obtain ⟨-, -, -, hcomponents, hlexical, -⟩ :=
    resolve_lexically hbase (ofString "../../../src")
  exact ⟨hcomponents, hlexical.mpr (by decide)⟩

/-- A `..` stays behind the root, and two at the beginning of a relative path are lost when
it is normalized first. -/
theorem not_always_lexical :
    (¬ ∀ base p : Path, base.isAbsolute = true → .parent ∉ (base.resolve p).components) ∧
      (¬ ∀ base p : Path, base.isAbsolute = true → base.resolve p = base.lexical p) ∧
      (¬ ∀ base p : Path, base.isAbsolute = true → p.isAbsolute = false →
        base.resolve p.normalize = base.resolve p) := by
  refine ⟨fun h => ?_, fun h => ?_, fun h => ?_⟩
  · exact absurd (h (ofString "/") (ofString "..") (by decide)) (by decide)
  · exact absurd (h (ofString "/") (ofString "..") (by decide)) (by decide)
  · exact absurd (h (ofString "/a/b/c") (ofString "../..") (by decide) (by decide)) (by decide)

end Path
end TestTransform
