/-
The match that a search finds is one.

A walk takes one of the ways on which a pattern leads from place to place, and remembers the
groups that it passes.  `Passes` says which walks there are, by what a pattern is made of and
without goals.  The route to a goal is only ever walked from places that lead to the goal, and
each step of the walk keeps this: a choice is made by the places from which its first way leads
on, and a round of a loop ends where another round or the goal can be reached.  So the walk is
one of those, and it ends at the goal.
-/
import Mathlib.Data.Nat.Bitwise
import TestTransform.Proofs.Pattern.Places

namespace TestTransform
namespace Pattern

/-! ## Walks -/

/-- Whether a pattern may take a walker to another place, and to the groups passed by then. -/
inductive Passes (es : List Edge) : Pattern → Walker → Walker → Prop where
  | empty (w : Walker) : Passes es .empty w w
  | one {s : CharSet} {w : Walker} {e : Edge} : es[w.index]? = some e → e.isBefore s = true →
      Passes es (.one s) w { w with index := w.index + 1 }
  | assertion {a : Assertion} {w : Walker} {e : Edge} : es[w.index]? = some e →
      holds a e = true → Passes es (.assertion a) w w
  | group {n : Nat} {p : Pattern} {w w' : Walker} : Passes es p w w' →
      Passes es (.group n p) w { w' with groups := (n, ⟨w.index, w'.index⟩) :: w'.groups }
  | seq {p q : Pattern} {w w₁ w' : Walker} : Passes es p w w₁ → Passes es q w₁ w' →
      Passes es (.seq p q) w w'
  | left {p q : Pattern} {w w' : Walker} : Passes es p w w' → Passes es (.alt p q) w w'
  | right {p q : Pattern} {w w' : Walker} : Passes es q w w' → Passes es (.alt p q) w w'
  | done {p : Pattern} {most : Option Nat} {greedy : Bool} (w : Walker) :
      Passes es (.repeated p 0 most greedy) w w
  /-- A round that must be made. -/
  | must {p : Pattern} {least : Nat} {most : Option Nat} {greedy : Bool} {w w₁ w' : Walker} :
      Passes es p w w₁ → Passes es (.repeated p least (most.map (· - 1)) greedy) w₁ w' →
      Passes es (.repeated p (least + 1) most greedy) w w'
  /-- A round that may be made. -/
  | may {p : Pattern} {most : Option Nat} {greedy : Bool} {w w₁ w' : Walker} : most ≠ some 0 →
      Passes es p w w₁ → Passes es (.repeated p 0 (most.map (· - 1)) greedy) w₁ w' →
      Passes es (.repeated p 0 most greedy) w w'

variable {es : List Edge} {p q : Pattern} {w w' : Walker} {goal : Places}

/-- Walks go where patterns lead. -/
theorem Passes.leads (h : Passes es p w w') : p.Leads es w.index w'.index := by
  induction h with
  | empty w => rfl
  | one he hs => exact ⟨⟨_, he, hs⟩, rfl⟩
  | assertion he ha => exact ⟨⟨_, he, ha⟩, rfl⟩
  | group _ ih => exact ih
  | seq _ _ ihp ihq => exact ⟨_, ihp, ihq⟩
  | left _ ih => exact .inl ih
  | right _ ih => exact .inr ih
  | done w => exact ⟨0, by simp, rfl⟩
  | @must p least most _ _ _ _ _ _ ihp ihrest =>
    obtain ⟨more, hmore, hrounds⟩ := ihrest
    refine ⟨more, fun m hm => ?_, ?_⟩
    · have hle := hmore (m - 1) (by rw [Option.mem_def.mp hm]; rfl)
      omega
    · rw [Nat.add_right_comm]
      exact ⟨_, ihp, hrounds⟩
  | @may p most _ _ _ _ hne _ _ ihp ihrest =>
    obtain ⟨more, hmore, hrounds⟩ := ihrest
    refine ⟨more + 1, fun m hm => ?_, _, ihp, hrounds⟩
    rw [Option.mem_def.mp hm] at hmore hne
    have hle := hmore (m - 1) rfl
    have hm : m ≠ 0 := fun h => hne (congrArg some h)
    omega

theorem Passes.le (h : Passes es p w w') : w.index ≤ w'.index := h.leads.le

/-- A pattern that cannot stay where it is gets ahead. -/
theorem Passes.lt (h : Passes es p w w') (hmove : (overlay es p).mayStay = false) :
    w.index < w'.index := by
  induction h with
  | empty | assertion | done | may => simp [overlay, Overlay.mayStay] at hmove
  | one he hs => exact Nat.lt_succ_self _
  | group _ ih => exact ih hmove
  | seq hp hq ihp ihq =>
    rcases Bool.and_eq_false_iff.mp hmove with h | h
    · exact Nat.lt_of_lt_of_le (ihp h) hq.le
    · exact Nat.lt_of_le_of_lt hp.le (ihq h)
  | left _ ih => exact ih (Bool.or_eq_false_iff.mp hmove).1
  | right _ ih => exact ih (Bool.or_eq_false_iff.mp hmove).2
  | must hp hrest ihp _ => exact Nat.lt_of_lt_of_le (ihp (Bool.or_eq_false_iff.mp hmove).2) hrest.le

/-! ## Groups -/

/-- The numbers of a pattern's groups. -/
def groupNumbers : Pattern → List Nat
  | group n p => n :: p.groupNumbers
  | seq p q => p.groupNumbers ++ q.groupNumbers
  | alt p q => p.groupNumbers ++ q.groupNumbers
  | repeated p _ _ _ => p.groupNumbers
  | _ => []

/-- Whether a walker has passed some more groups with given numbers. -/
def HasPassed (numbers : List Nat) (w w' : Walker) : Prop :=
  ∃ passed, w'.groups = passed ++ w.groups ∧ ∀ g ∈ passed, g.1 ∈ numbers

theorem HasPassed.refl (numbers : List Nat) (w : Walker) : HasPassed numbers w w :=
  ⟨[], rfl, by simp⟩

theorem HasPassed.mono {numbers more : List Nat} (h : HasPassed numbers w w')
    (hmore : numbers ⊆ more) : HasPassed more w w' := by
  obtain ⟨passed, heq, hmem⟩ := h
  exact ⟨passed, heq, fun g hg => hmore (hmem g hg)⟩

theorem HasPassed.trans {numbers : List Nat} {w₁ : Walker} (h : HasPassed numbers w w₁)
    (h' : HasPassed numbers w₁ w') : HasPassed numbers w w' := by
  obtain ⟨passed, heq, hmem⟩ := h
  obtain ⟨passed', heq', hmem'⟩ := h'
  refine ⟨passed' ++ passed, by rw [heq', heq, List.append_assoc], fun g hg => ?_⟩
  exact (List.mem_append.mp hg).elim (hmem' g) (hmem g)

/-- A walk remembers groups of its pattern only. -/
theorem Passes.hasPassed (h : Passes es p w w') : HasPassed p.groupNumbers w w' := by
  induction h with
  | empty w | done w => exact .refl _ w
  | one | assertion => exact ⟨[], rfl, by simp⟩
  | @group n p w w' _ ih =>
    obtain ⟨passed, heq, hmem⟩ := ih
    refine ⟨(n, ⟨w.index, w'.index⟩) :: passed, congrArg _ heq, fun g hg => ?_⟩
    rcases List.mem_cons.mp hg with rfl | hg
    · exact List.mem_cons_self
    · exact List.mem_cons_of_mem _ (hmem g hg)
  | seq _ _ ihp ihq =>
    exact (ihp.mono (List.subset_append_left _ _)).trans (ihq.mono (List.subset_append_right _ _))
  | left _ ih => exact ih.mono (List.subset_append_left _ _)
  | right _ ih => exact ih.mono (List.subset_append_right _ _)
  | must _ _ ihp ihrest | may _ _ _ ihp ihrest => exact ihp.trans ihrest

/-! ## Rounds -/

/-- Whether a walk by a pattern ends at a goal. -/
def Reaches (es : List Edge) (p : Pattern) (goal : Places) (w w' : Walker) : Prop :=
  Passes es p w w' ∧ goal.testBit w'.index = true

/-- Whether a goal lies within a text with as many places. -/
def IsWithin (count : Nat) (goal : Places) : Prop := ∀ i, goal.testBit i = true → i < count

theorem testBit_sub_and (a b i : Nat) :
    (a - (a &&& b)).testBit i = (a.testBit i && !b.testBit i) := by
  -- What is taken away is set in `a` as well, so nothing is borrowed.
  induction i generalizing a b with
  | zero =>
    have hlow : (a &&& b) % 2 = 1 ↔ a % 2 = 1 ∧ b % 2 = 1 := Nat.and_mod_two_eq_one
    have hle : a &&& b ≤ a := Nat.and_le_left
    have hbit : (a - (a &&& b)) % 2 = 1 ↔ a % 2 = 1 ∧ ¬ b % 2 = 1 := by omega
    simp only [Nat.testBit_zero, hbit, Bool.decide_and, decide_not]
  | succ i ih =>
    have hlow : (a &&& b) % 2 = 1 ↔ a % 2 = 1 ∧ b % 2 = 1 := Nat.and_mod_two_eq_one
    have hhalf : (a &&& b) / 2 = a / 2 &&& b / 2 := Nat.and_div_two
    have hrest : (a - (a &&& b)) / 2 = a / 2 - (a / 2 &&& b / 2) := by omega
    rw [Nat.testBit_succ, hrest, Nat.testBit_succ, Nat.testBit_succ]
    exact ih (a / 2) (b / 2)

@[simp] theorem testBit_beyond (i : Nat) (s : Places) (j : Nat) :
    (beyond i s).testBit j = (decide (i < j) && s.testBit j) := by
  rw [beyond, Nat.testBit_shiftLeft, Nat.testBit_shiftRight]
  by_cases h : i < j
  · rw [Nat.add_sub_cancel' h]
    simp [Nat.succ_le_of_lt h, h]
  · rw [decide_eq_false h, decide_eq_false (show ¬ j ≥ i + 1 from h), Bool.false_and,
      Bool.false_and]

/-- Rounds lead nowhere else, or some of them, the first of which gets ahead. -/
theorem rounds_cases {round : Nat → Nat → Prop} (hround : ∀ i j, round i j → i ≤ j) {n i k : Nat}
    (h : Rounds round n i k) :
    i = k ∨ ∃ j m, i < j ∧ round i j ∧ m < n ∧ Rounds round m j k := by
  induction n with
  | zero => exact .inl h
  | succ n ih =>
    obtain ⟨j, hij, hjk⟩ := h
    rcases Nat.eq_or_lt_of_le (hround i j hij) with rfl | hlt
    · refine (ih hjk).imp_right ?_
      rintro ⟨j, m, hlt, hij, hm, hjk⟩
      exact ⟨j, m, hlt, hij, Nat.lt_succ_of_lt hm, hjk⟩
    · exact .inr ⟨j, n, hlt, hij, Nat.lt_succ_self n, hjk⟩

section Rounds

variable {back : Places → Places} {go : Places → Walker → Walker} {greedy : Bool}
  (hback : ∀ (s : Places) (i : Nat),
    (back s).testBit i = true ↔ ∃ j, p.Leads es i j ∧ s.testBit j = true)
  (hgo : ∀ (goal : Places) (w : Walker), IsWithin es.length goal →
    (back goal).testBit w.index = true → Reaches es p goal w (go goal w))

include hback

theorem IsWithin.times (h : IsWithin es.length goal) (n : Nat) :
    IsWithin es.length (times back n goal) := by
  intro i hi
  obtain ⟨j, hrounds, hj⟩ := (testBit_times hback n goal i).mp hi
  exact Nat.lt_of_le_of_lt (le_of_rounds (fun _ _ => Leads.le) hrounds) (h j hj)

theorem IsWithin.within (h : IsWithin es.length goal) (n : Nat) :
    IsWithin es.length (within back goal n) := by
  intro i hi
  obtain ⟨m, -, j, hrounds, hj⟩ := (testBit_within hback goal n i).mp hi
  exact Nat.lt_of_le_of_lt (le_of_rounds (fun _ _ => Leads.le) hrounds) (h j hj)

theorem testBit_times_succ (n : Nat) (s : Places) (i : Nat) :
    (times back (n + 1) s).testBit i = true ↔ (back (times back n s)).testBit i = true := by
  simp only [testBit_times hback, hback]
  constructor
  · rintro ⟨k, ⟨j, hij, hjk⟩, hk⟩
    exact ⟨j, hij, k, hjk, hk⟩
  · rintro ⟨j, hij, k, hjk, hk⟩
    exact ⟨k, ⟨j, hij, hjk⟩, hk⟩

theorem testBit_back_mono {s s' : Places} (hle : ∀ j, s.testBit j = true → s'.testBit j = true)
    {i : Nat} (h : (back s).testBit i = true) : (back s').testBit i = true := by
  obtain ⟨j, hij, hj⟩ := (hback s i).mp h
  exact (hback s' i).mpr ⟨j, hij, hle j hj⟩

theorem testBit_within_mono {m n : Nat} (hle : m ≤ n) {i : Nat}
    (h : (within back goal m).testBit i = true) : (within back goal n).testBit i = true := by
  obtain ⟨l, hl, hrest⟩ := (testBit_within hback goal m i).mp h
  exact (testBit_within hback goal n i).mpr ⟨l, Nat.le_trans hl hle, hrest⟩

/-- A place from which some rounds lead to a goal belongs to it, or a round that gets ahead leads
to where one less does. -/
theorem testBit_within_cases {n i : Nat} (h : (within back goal n).testBit i = true) :
    goal.testBit i = true ∨
      (back (beyond i (within back goal (n - 1)))).testBit i = true := by
  obtain ⟨m, hm, j, hrounds, hj⟩ := (testBit_within hback goal n i).mp h
  rcases rounds_cases (fun _ _ => Leads.le) hrounds with rfl | ⟨k, l, hlt, hik, hl, hkj⟩
  · exact .inl hj
  · refine .inr ((hback _ _).mpr ⟨k, hik, ?_⟩)
    rw [testBit_beyond, decide_eq_true hlt, Bool.true_and, testBit_within hback]
    exact ⟨l, by omega, j, hkj, hj⟩

omit hback

include hgo

/-- Rounds that may be made end at the goal.  `inv n` is what holds where up to `n` of them are
still to be made. -/
theorem walkMore_reaches (goals : Nat → Places) (most : Nat → Option Nat)
    (inv : Nat → Nat → Prop) (hin : ∀ n, IsWithin es.length (goals n))
    (hmost : ∀ n, most (n + 1) ≠ some 0 ∧ (most (n + 1)).map (· - 1) = most n)
    (hlast : ∀ i, inv 0 i → goal.testBit i = true)
    (hcases : ∀ n i, inv (n + 1) i →
      goal.testBit i = true ∨ (back (beyond i (goals n))).testBit i = true)
    (hnext : ∀ n i j, inv (n + 1) i → i < j → (goals n).testBit j = true → inv n j)
    {n : Nat} {w : Walker} (h : inv n w.index) :
    Reaches es (.repeated p 0 (most n) greedy) goal w
      (walkMore back go greedy goal goals n w) := by
  induction n generalizing w with
  | zero => exact ⟨.done w, hlast w.index h⟩
  | succ n ih =>
    rw [walkMore]
    split
    · rename_i hround
      have hahead : IsWithin es.length (beyond w.index (goals n)) := fun i hi =>
        hin n i (Bool.and_eq_true_iff.mp (testBit_beyond _ _ i ▸ hi)).2
      obtain ⟨hpass, hat⟩ := hgo _ w hahead (Bool.and_eq_true_iff.mp hround).1
      rw [testBit_beyond, Bool.and_eq_true, decide_eq_true_eq] at hat
      obtain ⟨hrest, hgoal⟩ := ih (hnext n _ _ h hat.1 hat.2)
      exact ⟨.may (hmost n).1 hpass ((hmost n).2 ▸ hrest), hgoal⟩
    · rename_i hno
      refine ⟨.done w, ?_⟩
      rcases hcases n w.index h with hgoal | hpossible
      · exact hgoal
      · rw [hpossible, Bool.true_and, Bool.or_eq_true, not_or] at hno
        simpa using hno.2

/-- Rounds that must be made lead to where the others begin. -/
theorem walkLeast_reaches (hback : ∀ (s : Places) (i : Nat),
      (back s).testBit i = true ↔ ∃ j, p.Leads es i j ∧ s.testBit j = true)
    {others : Places} (hin : IsWithin es.length others) {rest : Walker → Walker} {least : Nat}
    {most : Option Nat} {w : Walker} (h : (times back least others).testBit w.index = true)
    (hrest : ∀ w, others.testBit w.index = true →
      Reaches es (.repeated p 0 (most.map (· - least)) greedy) goal w (rest w)) :
    Reaches es (.repeated p least most greedy) goal w
      (rest (walkLeast back go others least w)) := by
  induction least generalizing w most with
  | zero =>
    have hmost : most.map (· - 0) = most := Option.map_id' ..
    exact hmost ▸ hrest w h
  | succ n ih =>
    obtain ⟨hpass, hat⟩ := hgo _ w (hin.times hback n) ((testBit_times_succ hback n _ _).mp h)
    have hmost : (most.map (· - 1)).map (· - n) = most.map (· - (n + 1)) := by
      rw [Option.map_map]
      exact congrArg (Option.map · most) (funext fun m => by
        show m - 1 - n = m - (n + 1)
        omega)
    obtain ⟨hothers, hgoal⟩ := ih hat (hmost ▸ hrest)
    exact ⟨.must hpass hothers, hgoal⟩

/-- Rounds that all get ahead end at the goal if each place from which they lead there belongs
to it or has another round to be made. -/
theorem walkLoop_reaches {others another : Places} (hin : IsWithin es.length others)
    (hmove : ∀ w w', Passes es p w w' → w.index < w'.index)
    (hanother : ∀ i, another.testBit i = true → (back others).testBit i = true)
    (hstop : ∀ i, others.testBit i = true → another.testBit i = false → goal.testBit i = true)
    {n : Nat} {w : Walker} (h : others.testBit w.index = true) (hn : es.length ≤ n + w.index) :
    Reaches es (.repeated p 0 none greedy) goal w (walkLoop another (go others) n w) := by
  induction n generalizing w with
  | zero => exact absurd (hin w.index h) (by omega)
  | succ n ih =>
    rw [walkLoop]
    split
    · rename_i hround
      obtain ⟨hpass, hat⟩ := hgo others w hin (hanother _ hround)
      have hlt := hmove _ _ hpass
      obtain ⟨hrest, hgoal⟩ := ih hat (by omega)
      exact ⟨.may (by simp) hpass hrest, hgoal⟩
    · rename_i hno
      exact ⟨.done w, hstop w.index h (Bool.eq_false_iff.mpr hno)⟩

end Rounds

/-! ## Routes -/

section Repeated

variable {least : Nat} {most : Option Nat} {greedy : Bool}
  (ih : ∀ (goal : Places) (w : Walker), IsWithin es.length goal →
    ((overlay es p).starts es.length goal).testBit w.index = true →
    Reaches es p goal w (((overlay es p).route es.length goal).walk es.length w))
  (hin : IsWithin es.length goal)

include ih hin

/-- A loop of rounds that get ahead, perhaps behind a first one that must be made. -/
theorem walk_loop (hleast : least ≤ 1) (hmove : (overlay es p).mayStay = false)
    (h : ((overlay es (.repeated p least none greedy)).starts es.length goal).testBit
      w.index = true) :
    Reaches es (.repeated p least none greedy) goal w
      (((overlay es (.repeated p least none greedy)).route es.length goal).walk es.length w) := by
  have hback := testBit_starts es p
  have hall := hin.within hback es.length
  simp only [overlay, Overlay.starts] at h
  simp only [overlay, Overlay.route, hmove, hleast, decide_true, BEq.rfl, Bool.not_false,
    Bool.and_self, if_true]
  generalize hothers : within ((overlay es p).starts es.length) goal es.length = others at h hall ⊢
  -- From these places another round is made.
  generalize hanother : (if greedy = true then (overlay es p).starts es.length others
    else (overlay es p).starts es.length others -
      ((overlay es p).starts es.length others &&& goal)) = another
  have hround : ∀ i, another.testBit i = true →
      ((overlay es p).starts es.length others).testBit i = true := by
    intro i hi
    rw [← hanother] at hi
    split at hi
    · exact hi
    · rw [testBit_sub_and, Bool.and_eq_true] at hi
      exact hi.1
  have hstop : ∀ i, others.testBit i = true → another.testBit i = false →
      goal.testBit i = true := by
    intro i hi hno
    rcases testBit_within_cases hback (hothers ▸ hi) with hgoal | hpossible
    · exact hgoal
    · have hmore : ((overlay es p).starts es.length others).testBit i = true := by
        refine testBit_back_mono hback (fun j hj => ?_) hpossible
        rw [testBit_beyond, Bool.and_eq_true] at hj
        exact hothers ▸ testBit_within_mono hback (Nat.sub_le _ 1) hj.2
      rw [← hanother] at hno
      split at hno
      · rw [hmore] at hno
        cases hno
      · rw [testBit_sub_and, hmore, Bool.true_and, Bool.not_eq_false'] at hno
        exact hno
  have hloop : ∀ w : Walker, others.testBit w.index = true →
      Reaches es (.repeated p 0 none greedy) goal w
        (walkLoop another (((overlay es p).route es.length others).walk es.length) es.length w) :=
    fun w hw => walkLoop_reaches ih hall (fun _ _ hpass => hpass.lt hmove) hround hstop hw (Nat.le_add_right _ _)
  cases least with
  | zero => exact hloop w h
  | succ n =>
    obtain rfl : n = 0 := by omega
    obtain ⟨hpass, hat⟩ := ih others w hall ((testBit_times_succ hback 0 others _).mp h)
    obtain ⟨hrest, hgoal⟩ := hloop _ hat
    exact ⟨.must hpass hrest, hgoal⟩

/-- A part that may be left out. -/
theorem walk_optional
    (h : ((overlay es (.repeated p 0 (some 1) greedy)).starts es.length goal).testBit
      w.index = true) :
    Reaches es (.repeated p 0 (some 1) greedy) goal w
      ((if greedy then
          Route.choice ((overlay es p).starts es.length goal)
            ((overlay es p).route es.length goal) .stay
        else .choice goal .stay ((overlay es p).route es.length goal)).walk es.length w) := by
  have hback := testBit_starts es p
  have honce : ((overlay es p).starts es.length goal).testBit w.index = true →
      Reaches es (.repeated p 0 (some 1) greedy) goal w
        (((overlay es p).route es.length goal).walk es.length w) := by
    intro hfirst
    obtain ⟨hpass, hgoal⟩ := ih goal w hin hfirst
    exact ⟨.may (by simp) hpass (.done _), hgoal⟩
  have hcases : goal.testBit w.index = true ∨
      ((overlay es p).starts es.length goal).testBit w.index = true := by
    refine (testBit_within_cases hback h).imp_right (testBit_back_mono hback fun j hj => ?_)
    rw [testBit_beyond, Bool.and_eq_true] at hj
    exact hj.2
  split <;> rw [Route.walk] <;> split
  · exact honce ‹_›
  · exact ⟨.done w, hcases.resolve_right ‹_›⟩
  · exact ⟨.done w, ‹_›⟩
  · exact honce (hcases.resolve_left ‹_›)

/-- Rounds that may stay where they are, or that are counted. -/
theorem walk_rounds
    (h : ((overlay es (.repeated p least most greedy)).starts es.length goal).testBit
      w.index = true) :
    Reaches es (.repeated p least most greedy) goal w
      ((Route.rounds goal ((overlay es p).starts es.length)
        ((overlay es p).route es.length) least most greedy).walk es.length w) := by
  have hback := testBit_starts es p
  simp only [overlay, Overlay.starts] at h
  cases most with
  | none =>
    have hall := hin.within hback es.length
    refine walkLeast_reaches ih hback hall h fun w hw => ?_
    refine walkMore_reaches ih
      (fun _ => within ((overlay es p).starts es.length) goal es.length) (fun _ => none)
      (fun n i => (within ((overlay es p).starts es.length) goal es.length).testBit i = true ∧
        es.length ≤ n + i)
      (fun _ => hall) (by simp) (fun i hi => ?_) (fun n i hi => ?_)
      (fun n i j hi hlt hj => ⟨hj, by omega⟩) ⟨hw, Nat.le_add_right _ _⟩
    · exact absurd (hall i hi.1) (by omega)
    · refine (testBit_within_cases hback hi.1).imp_right (testBit_back_mono hback fun j hj => ?_)
      rw [testBit_beyond, Bool.and_eq_true] at hj ⊢
      exact ⟨hj.1, testBit_within_mono hback (Nat.sub_le _ 1) hj.2⟩
  | some m =>
    refine walkLeast_reaches ih hback (hin.within hback (m - least)) h fun w hw => ?_
    refine walkMore_reaches ih (within ((overlay es p).starts es.length) goal) some
      (fun n i => (within ((overlay es p).starts es.length) goal n).testBit i = true)
      (fun n => hin.within hback n) (by simp) (fun i hi => hi) (fun n i hi => ?_)
      (fun n i j _ _ hj => hj) hw
    have hcases := testBit_within_cases hback hi
    rwa [Nat.add_sub_cancel] at hcases

end Repeated

/-- From a place that leads to a goal, a walk on the route takes the pattern's way there. -/
theorem walk_route (p : Pattern) {goal : Places} (hin : IsWithin es.length goal) {w : Walker}
    (h : ((overlay es p).starts es.length goal).testBit w.index = true) :
    Reaches es p goal w (((overlay es p).route es.length goal).walk es.length w) := by
  induction p generalizing goal w with
  | empty => exact ⟨.empty w, h⟩
  | one s =>
    simp only [overlay, Overlay.starts, Nat.testBit_and, Nat.testBit_shiftRight,
      testBit_placesWhere, Bool.and_eq_true, Option.any_eq_true] at h
    obtain ⟨⟨e, he, hs⟩, hgoal⟩ := h
    rw [Nat.add_comm] at hgoal
    exact ⟨.one he hs, hgoal⟩
  | assertion a =>
    simp only [overlay, Overlay.starts, Nat.testBit_and, testBit_placesWhere, Bool.and_eq_true,
      Option.any_eq_true] at h
    obtain ⟨⟨e, he, ha⟩, hgoal⟩ := h
    exact ⟨.assertion he ha, hgoal⟩
  | group n p ih =>
    obtain ⟨hpass, hgoal⟩ := ih hin h
    exact ⟨.group hpass, hgoal⟩
  | seq p q ihp ihq =>
    have hq : IsWithin es.length ((overlay es q).starts es.length goal) := by
      intro i hi
      obtain ⟨j, hleads, hj⟩ := (testBit_starts es q goal i).mp hi
      exact Nat.lt_of_le_of_lt hleads.le (hin j hj)
    obtain ⟨hpass, hat⟩ := ihp hq h
    obtain ⟨hpass', hgoal⟩ := ihq hin hat
    exact ⟨.seq hpass hpass', hgoal⟩
  | alt p q ihp ihq =>
    simp only [overlay, Overlay.route, Route.walk]
    split
    · rename_i hfirst
      obtain ⟨hpass, hgoal⟩ := ihp hin hfirst
      exact ⟨.left hpass, hgoal⟩
    · rename_i hfirst
      simp only [overlay, Overlay.starts, Nat.testBit_or, Bool.or_eq_true] at h
      obtain ⟨hpass, hgoal⟩ := ihq hin (h.resolve_left hfirst)
      exact ⟨.right hpass, hgoal⟩
  | repeated p least most greedy ih =>
    by_cases hloop : (most == none && decide (least ≤ 1) && !(overlay es p).mayStay) = true
    · simp only [Bool.and_eq_true, beq_iff_eq, decide_eq_true_eq, Bool.not_eq_true'] at hloop
      obtain ⟨⟨rfl, hleast⟩, hmove⟩ := hloop
      exact walk_loop (fun _ _ hin hw => ih hin hw) hin hleast hmove h
    · by_cases honce : (most == some 1 && least == 0 && !(overlay es p).mayStay) = true
      · have hroute : (overlay es (.repeated p least most greedy)).route es.length goal =
            if greedy then
              Route.choice ((overlay es p).starts es.length goal)
                ((overlay es p).route es.length goal) .stay
            else .choice goal .stay ((overlay es p).route es.length goal) := by
          simp only [overlay, Overlay.route, if_neg hloop, if_pos honce]
        simp only [Bool.and_eq_true, beq_iff_eq] at honce
        obtain ⟨⟨rfl, rfl⟩, -⟩ := honce
        rw [hroute]
        exact walk_optional (fun _ _ hin hw => ih hin hw) hin h
      · have hroute : (overlay es (.repeated p least most greedy)).route es.length goal =
            .rounds goal ((overlay es p).starts es.length) ((overlay es p).route es.length)
              least most greedy := by
          simp only [overlay, Overlay.route, if_neg hloop, if_neg honce]
        rw [hroute]
        exact walk_rounds (fun _ _ hin hw => ih hin hw) hin h

/-! ## Matches -/

/-- Whether a match is one: the pattern passes from where it begins to where it ends, and the
groups are those that it passes. -/
def IsMatchIn (p : Pattern) (t : Text) (m : Match) : Prop :=
  Passes (edges t) p ⟨m.start, []⟩ ⟨m.stop, m.groups⟩ ∧ m.stop ≤ t.length

variable {t : Text} {m : Match} {i : Nat}

theorem testBit_of_firstPlace? {s : Places} {n k : Nat} (h : firstPlace? s n i = some k) :
    s.testBit k = true := by
  induction n generalizing i with
  | zero => cases h
  | succ n ih =>
    rw [firstPlace?] at h
    split at h
    · cases h
      assumption
    · exact ih h

theorem isMatchIn_of_first? (h : (Search.ofText p t).first? i = some m) : IsMatchIn p t m := by
  obtain ⟨start, hfirst, rfl⟩ := Option.map_eq_some_iff.mp h
  have hstart : ((overlay (edges t) p).starts (edges t).length
      (Search.everywhere (edges t).length)).testBit start = true := testBit_of_firstPlace? hfirst
  have hroute : (Search.ofText p t).route = (overlay (edges t) p).route (edges t).length
      (Search.everywhere (edges t).length) := by
    refine if_neg fun hzero => ?_
    rw [beq_iff_eq.mp hzero, Nat.zero_testBit] at hstart
    cases hstart
  have hin : IsWithin (edges t).length (Search.everywhere (edges t).length) := fun j hj => by
    rwa [testBit_everywhere, decide_eq_true_eq] at hj
  obtain ⟨hpass, hgoal⟩ := walk_route p hin (w := ⟨start, []⟩) hstart
  have hlength : (edges t).length = t.length + 1 := length_edgesFrom none t
  rw [hroute]
  exact ⟨hpass, Nat.lt_succ_iff.mp (Nat.lt_of_lt_of_eq (hin _ hgoal) hlength)⟩

theorem isMatchIn_of_search (h : search p t = some m) : IsMatchIn p t m := isMatchIn_of_first? h

theorem isMatchIn_of_mem_searchAll (h : m ∈ searchAll p t) : IsMatchIn p t m := by
  rw [searchAll] at h
  generalize (Search.ofText p t).count = fuel at h
  generalize 0 = i at h
  induction fuel generalizing i with
  | zero => cases h
  | succ fuel ih =>
    rw [Search.allFrom] at h
    split at h
    · cases h
    · rename_i hfirst
      rcases List.mem_cons.mp h with rfl | h
      · exact isMatchIn_of_first? hfirst
      · exact ih _ h

/-! ## Matches of patterns one after another -/

theorem Passes.all_cons {ps : List Pattern} (h : Passes es (all (p :: ps)) w w') :
    ∃ w₁, Passes es p w w₁ ∧ Passes es (all ps) w₁ w' := by
  cases ps with
  | nil => exact ⟨w', h, .empty w'⟩
  | cons q qs =>
    cases h with
    | seq hp hps => exact ⟨_, hp, hps⟩

theorem Passes.all_append {ps qs : List Pattern} (h : Passes es (all (ps ++ qs)) w w') :
    ∃ w₁, Passes es (all ps) w w₁ ∧ Passes es (all qs) w₁ w' := by
  induction ps generalizing w with
  | nil => exact ⟨w, .empty w, h⟩
  | cons p ps ih =>
    obtain ⟨w₁, hp, hrest⟩ := Passes.all_cons h
    obtain ⟨w₂, hps, hqs⟩ := ih hrest
    refine ⟨w₂, ?_, hqs⟩
    cases ps with
    | nil =>
      cases hps
      exact hp
    | cons q qs => exact .seq hp hps

/-- The place of a group that is passed once, with what leads to it and on from it. -/
theorem IsMatchIn.group {n : Nat} {ps qs : List Pattern}
    (h : IsMatchIn (all (ps ++ group n p :: qs)) t m) (hn : n ∉ (all qs).groupNumbers) :
    ∃ e : Extent, m.group? n = some e ∧ (all ps).Leads (edges t) m.start e.start ∧
      p.Leads (edges t) e.start e.stop ∧ (all qs).Leads (edges t) e.stop m.stop := by
  obtain ⟨w₁, hps, hrest⟩ := h.1.all_append
  obtain ⟨w₂, hgroup, hqs⟩ := hrest.all_cons
  obtain ⟨passed, hgroups, hnumbers⟩ := hqs.hasPassed
  cases hgroup with
  | @group _ _ _ w₃ hp =>
    refine ⟨⟨w₁.index, w₃.index⟩, ?_, hps.leads, hp.leads, hqs.leads⟩
    have hnone : passed.find? (fun g => g.1 == n) = none := by
      refine List.find?_eq_none.mpr fun g hg heq => hn ?_
      rw [← beq_iff_eq.mp heq]
      exact hnumbers g hg
    rw [Match.group?, show m.groups = _ from hgroups, List.find?_append, hnone]
    simp

end Pattern
end TestTransform
