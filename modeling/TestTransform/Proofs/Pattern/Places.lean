/-
What a pattern means, and that matching by sets of places finds it.

A pattern leads from one place of a text to another.  That is said by recursion on the pattern
and without sets: a repetition leads along a chain of rounds, however long.  The sets are
numbers, so each lemma about them is one about a single bit.  Rounds that stay where they are
can be left out of a chain, and the others are no more than the text has places, so the bound on
the rounds loses nothing.
-/
import Mathlib.Algebra.Group.Nat.Defs
import Mathlib.Logic.Function.Iterate
import TestTransform.Pattern.Match

namespace TestTransform
namespace Pattern

/-! ## Sets of places -/

theorem placesInRow_lt (condition : Edge → Bool) (es : List Edge) :
    placesInRow condition es < 2 ^ es.length := by
  have hdouble : ∀ {n b k : Nat}, b < 2 → n < k → 2 * n + b < k * 2 := by omega
  induction es with
  | nil => exact Nat.one_pos
  | cons e es ih =>
    rw [List.length_cons, Nat.pow_succ]
    exact hdouble (Bool.toNat_lt _) ih

theorem testBit_placesInRow (condition : Edge → Bool) (es : List Edge) (i : Nat) :
    (placesInRow condition es).testBit i = es[i]?.any condition := by
  have hhalf : ∀ {n b : Nat}, b < 2 → (2 * n + b) / 2 = n := by omega
  induction es generalizing i with
  | nil => exact Nat.zero_testBit i
  | cons e es ih =>
    rw [placesInRow]
    cases i with
    | zero =>
      rw [Nat.testBit_zero, Nat.mul_add_mod, Nat.mod_eq_of_lt (Bool.toNat_lt _)]
      cases h : condition e <;> simp [h]
    | succ i => rw [Nat.testBit_succ, hhalf (Bool.toNat_lt _), ih, List.getElem?_cons_succ]

theorem testBit_add_shiftLeft {low width : Nat} (hlow : low < 2 ^ width) (high i : Nat) :
    (low + high <<< width).testBit i =
      if i < width then low.testBit i else high.testBit (i - width) := by
  rw [Nat.shiftLeft_eq, Nat.add_comm, Nat.mul_comm, Nat.testBit_two_pow_mul_add _ hlow]

theorem testBit_placesInRows (condition : Edge → Bool) (rows : Nat) (es : List Edge) (i : Nat) :
    (placesInRows condition rows es).testBit i = es[i]?.any condition := by
  induction rows generalizing es i with
  | zero => exact testBit_placesInRow condition es i
  | succ rows ih =>
    have hlow : placesInRow condition (es.take 32) < 2 ^ 32 :=
      Nat.lt_of_lt_of_le (placesInRow_lt condition _)
        (Nat.pow_le_pow_right Nat.two_pos (List.length_take_le 32 es))
    refine (testBit_add_shiftLeft hlow (placesInRows condition rows (es.drop 32)) i).trans ?_
    rw [testBit_placesInRow, ih, List.getElem?_drop, List.getElem?_take]
    by_cases hi : i < 32
    · rw [if_pos hi, if_pos hi]
    · rw [if_neg hi, Nat.add_sub_cancel' (Nat.le_of_not_lt hi)]

@[simp] theorem testBit_placesWhere (condition : Edge → Bool) (es : List Edge) (i : Nat) :
    (placesWhere condition es).testBit i = es[i]?.any condition :=
  testBit_placesInRows condition _ es i

theorem testBit_everywhere (count i : Nat) :
    (Search.everywhere count).testBit i = decide (i < count) := by
  rw [Search.everywhere, Nat.one_shiftLeft, Nat.testBit_two_pow_sub_one]

/-! ## Rounds -/

/-- Whether `n` rounds lead from one place to another. -/
def Rounds (round : Nat → Nat → Prop) : (n : Nat) → Nat → Nat → Prop
  | 0, i, k => i = k
  | n + 1, i, k => ∃ j, round i j ∧ Rounds round n j k

variable {round : Nat → Nat → Prop}

theorem rounds_add (m n i k : Nat) :
    Rounds round (m + n) i k ↔ ∃ j, Rounds round m i j ∧ Rounds round n j k := by
  induction m generalizing i with
  | zero =>
    rw [Nat.zero_add]
    exact ⟨fun h => ⟨i, rfl, h⟩, fun ⟨j, hij, h⟩ => hij ▸ h⟩
  | succ m ih =>
    rw [Nat.succ_add]
    constructor
    · rintro ⟨j, hij, h⟩
      obtain ⟨l, hjl, hlk⟩ := (ih j).mp h
      exact ⟨l, ⟨j, hij, hjl⟩, hlk⟩
    · rintro ⟨l, ⟨j, hij, hjl⟩, hlk⟩
      exact ⟨j, hij, (ih j).mpr ⟨l, hjl, hlk⟩⟩

/-- Rounds that lead forward do so together. -/
theorem le_of_rounds (hround : ∀ i j, round i j → i ≤ j) {n i k : Nat}
    (h : Rounds round n i k) : i ≤ k := by
  induction n generalizing i with
  | zero => exact Nat.le_of_eq h
  | succ n ih =>
    obtain ⟨j, hij, hjk⟩ := h
    exact Nat.le_trans (hround i j hij) (ih hjk)

/-- Of rounds that lead forward, those that stay where they are can be left out. -/
theorem exists_rounds_le (hround : ∀ i j, round i j → i ≤ j) {n i k : Nat}
    (h : Rounds round n i k) : ∃ m, m ≤ k - i ∧ Rounds round m i k := by
  induction n generalizing i with
  | zero => exact ⟨0, Nat.zero_le _, h⟩
  | succ n ih =>
    obtain ⟨j, hij, hjk⟩ := h
    obtain ⟨m, hm, hrounds⟩ := ih hjk
    have hforward := hround i j hij
    by_cases hstay : i = j
    · exact ⟨m, hstay ▸ hm, hstay ▸ hrounds⟩
    · have hle := le_of_rounds hround hrounds
      exact ⟨m + 1, by omega, j, hij, hrounds⟩

section Backward

variable {back : Places → Places}

theorem times_eq_iterate (n : Nat) (s : Places) : times back n s = back^[n] s := by
  induction n generalizing s with
  | zero => rfl
  | succ n ih =>
    simp only [times, beq_iff_eq]
    split
    · rename_i hfixed
      exact (Function.iterate_fixed hfixed (n + 1)).symm
    · rw [ih, Function.iterate_succ_apply]

theorem closure_eq_iterate (goal : Places) (n : Nat) (s : Places) :
    closure back goal n s = (fun s => goal ||| back s)^[n] s := by
  induction n generalizing s with
  | zero => rfl
  | succ n ih =>
    simp only [closure, beq_iff_eq]
    split
    · rename_i hfixed
      exact (Function.iterate_fixed (f := fun s => goal ||| back s) hfixed (n + 1)).symm
    · rw [ih, Function.iterate_succ_apply]

variable (hback : ∀ (s : Places) (i : Nat),
  (back s).testBit i = true ↔ ∃ j, round i j ∧ s.testBit j = true)

include hback

theorem testBit_times (n : Nat) (s : Places) (i : Nat) :
    (times back n s).testBit i = true ↔ ∃ j, Rounds round n i j ∧ s.testBit j = true := by
  rw [times_eq_iterate]
  induction n generalizing i with
  | zero => exact ⟨fun h => ⟨i, rfl, h⟩, fun ⟨j, hij, h⟩ => hij ▸ h⟩
  | succ n ih =>
    simp only [Function.iterate_succ_apply', hback, ih]
    constructor
    · rintro ⟨j, hij, k, hjk, hk⟩
      exact ⟨k, ⟨j, hij, hjk⟩, hk⟩
    · rintro ⟨k, ⟨j, hij, hjk⟩, hk⟩
      exact ⟨j, hij, k, hjk, hk⟩

theorem testBit_within (goal : Places) (n i : Nat) :
    (within back goal n).testBit i = true ↔
      ∃ m, m ≤ n ∧ ∃ j, Rounds round m i j ∧ goal.testBit j = true := by
  rw [within, closure_eq_iterate]
  induction n generalizing i with
  | zero =>
    constructor
    · exact fun h => ⟨0, Nat.le_refl 0, i, rfl, h⟩
    · rintro ⟨m, hm, j, hij, hj⟩
      obtain rfl := Nat.le_zero.mp hm
      exact (show i = j from hij) ▸ hj
  | succ n ih =>
    rw [Function.iterate_succ_apply', Nat.testBit_or, Bool.or_eq_true, hback]
    simp only [ih]
    constructor
    · rintro (hi | ⟨j, hij, m, hm, k, hjk, hk⟩)
      · exact ⟨0, Nat.zero_le _, i, rfl, hi⟩
      · exact ⟨m + 1, Nat.succ_le_succ hm, k, ⟨j, hij, hjk⟩, hk⟩
    · rintro ⟨m, hm, k, hrounds, hk⟩
      cases m with
      | zero => exact .inl ((show i = k from hrounds) ▸ hk)
      | succ m =>
        obtain ⟨j, hij, hjk⟩ := hrounds
        exact .inr ⟨j, hij, m, Nat.le_of_succ_le_succ hm, k, hjk, hk⟩

end Backward

/-! ## What a pattern means -/

/-- Whether a pattern leads from one place of a text to another. -/
def Leads (es : List Edge) : Pattern → Nat → Nat → Prop
  | empty, i, j => i = j
  | one s, i, j => (∃ e, es[i]? = some e ∧ e.isBefore s = true) ∧ j = i + 1
  | assertion a, i, j => (∃ e, es[i]? = some e ∧ holds a e = true) ∧ i = j
  | group _ p, i, j => p.Leads es i j
  | seq p q, i, k => ∃ j, p.Leads es i j ∧ q.Leads es j k
  | alt p q, i, j => p.Leads es i j ∨ q.Leads es i j
  | repeated p least most _, i, j =>
    ∃ more, (∀ m ∈ most, more ≤ m - least) ∧ Rounds (p.Leads es) (least + more) i j

variable {es : List Edge} {p : Pattern} {i j : Nat}

theorem Leads.le (h : p.Leads es i j) : i ≤ j := by
  induction p generalizing i j with
  | empty => exact Nat.le_of_eq h
  | one s => exact h.2 ▸ Nat.le_succ i
  | assertion a => exact Nat.le_of_eq h.2
  | group n p ih => exact ih h
  | seq p q ihp ihq =>
    obtain ⟨k, hp, hq⟩ := h
    exact Nat.le_trans (ihp hp) (ihq hq)
  | alt p q ihp ihq => exact h.elim ihp ihq
  | repeated p least most greedy ih =>
    obtain ⟨more, -, hrounds⟩ := h
    exact le_of_rounds (fun _ _ => ih) hrounds

/-- Only places of the text are come to. -/
theorem Leads.le_length (h : p.Leads es i j) (hlt : i < j) : j ≤ es.length := by
  induction p generalizing i j with
  | empty => exact absurd h (Nat.ne_of_lt hlt)
  | one s =>
    obtain ⟨⟨e, he, -⟩, rfl⟩ := h
    exact (List.getElem?_eq_some_iff.mp he).1
  | assertion a => exact absurd h.2 (Nat.ne_of_lt hlt)
  | group n p ih => exact ih h hlt
  | seq p q ihp ihq =>
    obtain ⟨k, hp, hq⟩ := h
    by_cases hk : k < j
    · exact ihq hq hk
    · have hkj : k = j := Nat.le_antisymm hq.le (Nat.le_of_not_lt hk)
      exact ihp (hkj ▸ hp) hlt
  | alt p q ihp ihq => exact h.elim (ihp · hlt) (ihq · hlt)
  | repeated p least most greedy ih =>
    obtain ⟨more, -, hrounds⟩ := h
    generalize least + more = n at hrounds
    induction n generalizing i with
    | zero => exact absurd hrounds (Nat.ne_of_lt hlt)
    | succ n ihn =>
      obtain ⟨k, hp, hrest⟩ := hrounds
      by_cases hk : k < j
      · exact ihn hk hrest
      · have hkj : k = j :=
          Nat.le_antisymm (le_of_rounds (fun _ _ h => Leads.le h) hrest) (Nat.le_of_not_lt hk)
        exact ih (hkj ▸ hp) hlt

/-! ## Matching -/

/-- The places that are found are those from which the pattern leads to the goal. -/
theorem testBit_starts (es : List Edge) (p : Pattern) (goal : Places) (i : Nat) :
    ((overlay es p).starts es.length goal).testBit i = true ↔
      ∃ j, p.Leads es i j ∧ goal.testBit j = true := by
  induction p generalizing goal i with
  | empty => exact ⟨fun h => ⟨i, rfl, h⟩, fun ⟨j, hij, h⟩ => (show i = j from hij) ▸ h⟩
  | one s =>
    simp only [overlay, Overlay.starts, Nat.testBit_and, Nat.testBit_shiftRight,
      testBit_placesWhere, Bool.and_eq_true, Option.any_eq_true]
    constructor
    · rintro ⟨he, hgoal⟩
      exact ⟨i + 1, ⟨he, rfl⟩, Nat.add_comm 1 i ▸ hgoal⟩
    · rintro ⟨j, ⟨he, rfl⟩, hgoal⟩
      exact ⟨he, Nat.add_comm 1 i ▸ hgoal⟩
  | assertion a =>
    simp only [overlay, Overlay.starts, Nat.testBit_and, testBit_placesWhere, Bool.and_eq_true,
      Option.any_eq_true]
    constructor
    · rintro ⟨he, hgoal⟩
      exact ⟨i, ⟨he, rfl⟩, hgoal⟩
    · rintro ⟨j, ⟨he, rfl⟩, hgoal⟩
      exact ⟨he, hgoal⟩
  | group n p ih => exact ih goal i
  | seq p q ihp ihq =>
    simp only [overlay, Overlay.starts, ihp, ihq]
    constructor
    · rintro ⟨j, hp, k, hq, hk⟩
      exact ⟨k, ⟨j, hp, hq⟩, hk⟩
    · rintro ⟨k, ⟨j, hp, hq⟩, hk⟩
      exact ⟨j, hp, k, hq, hk⟩
  | alt p q ihp ihq =>
    simp only [overlay, Overlay.starts, Nat.testBit_or, Bool.or_eq_true, ihp, ihq]
    constructor
    · rintro (⟨j, hp, hj⟩ | ⟨j, hq, hj⟩)
      · exact ⟨j, .inl hp, hj⟩
      · exact ⟨j, .inr hq, hj⟩
    · rintro ⟨j, hp | hq, hj⟩
      · exact .inl ⟨j, hp, hj⟩
      · exact .inr ⟨j, hq, hj⟩
  | repeated p least most greedy ih =>
    simp only [overlay, Overlay.starts, testBit_times ih, testBit_within ih]
    constructor
    · rintro ⟨j, hleast, more, hmore, k, hrest, hk⟩
      refine ⟨k, ⟨more, fun m hm => ?_, (rounds_add least more i k).mpr ⟨j, hleast, hrest⟩⟩, hk⟩
      rw [Option.mem_def.mp hm] at hmore
      exact hmore
    · rintro ⟨k, ⟨more, hmore, hrounds⟩, hk⟩
      obtain ⟨j, hleast, hrest⟩ := (rounds_add least more i k).mp hrounds
      refine ⟨j, hleast, ?_⟩
      cases most with
      | some m => exact ⟨more, hmore m rfl, k, hrest, hk⟩
      | none =>
        -- without a bound of its own, the chain is cut down to rounds that get ahead
        obtain ⟨n, hn, hshort⟩ := exists_rounds_le (fun _ _ => Leads.le) hrest
        by_cases hjk : j < k
        · have hlength : k ≤ es.length :=
            Leads.le_length (p := .repeated p 0 none true) ⟨n, by simp, by rwa [Nat.zero_add]⟩ hjk
          have hcount : n ≤ es.length := by omega
          exact ⟨n, hcount, k, hshort, hk⟩
        · have hcount : n ≤ es.length := by omega
          exact ⟨n, hcount, k, hshort, hk⟩

theorem length_edgesFrom (before : Option Char) (t : Text) :
    (edgesFrom before t).length = t.length + 1 := by
  induction t generalizing before with
  | nil => rfl
  | cons c t ih => rw [edgesFrom, List.length_cons, ih, List.length_cons]

/-- A pattern occurs in a text if and only if it leads from some place of it to another. -/
theorem isMatch_iff_leads (p : Pattern) (t : Text) :
    p.isMatch t = true ↔ ∃ i j, p.Leads (edges t) i j ∧ j ≤ t.length := by
  have hgoal : ∀ j, (Search.everywhere (edges t).length).testBit j = true ↔ j ≤ t.length := by
    intro j
    rw [testBit_everywhere, decide_eq_true_iff, edges, length_edgesFrom, Nat.lt_succ_iff]
  simp only [isMatch, bne_iff_ne]
  constructor
  · intro hne
    obtain ⟨i, hi⟩ := Nat.exists_testBit_of_ne_zero hne
    obtain ⟨j, hleads, hj⟩ := (testBit_starts _ p _ i).mp hi
    exact ⟨i, j, hleads, (hgoal j).mp hj⟩
  · rintro ⟨i, j, hleads, hj⟩ hzero
    have hi := (testBit_starts _ p _ i).mpr ⟨j, hleads, (hgoal j).mpr hj⟩
    rw [hzero, Nat.zero_testBit] at hi
    cases hi

end Pattern
end TestTransform
