/-
The texts that a pattern spells.

A pattern that puts no condition on places leads from one place to another exactly when it
spells the text between them.  So it is enough to know what texts it spells, and a pattern that
is tied to both ends of a text matches if and only if it spells the whole text.
-/
import Mathlib.Data.List.Basic
import TestTransform.Proofs.Pattern.Places

namespace TestTransform
namespace Pattern

/-- Whether a pattern puts no condition on places. -/
def IsFree : Pattern → Prop
  | empty => True
  | one _ => True
  | assertion _ => False
  | group _ p => p.IsFree
  | seq p q => p.IsFree ∧ q.IsFree
  | alt p q => p.IsFree ∧ q.IsFree
  | repeated p _ _ _ => p.IsFree

instance decidableIsFree : (p : Pattern) → Decidable p.IsFree
  | empty => .isTrue trivial
  | one _ => .isTrue trivial
  | assertion _ => .isFalse id
  | group _ p => decidableIsFree p
  | seq p q => @instDecidableAnd _ _ (decidableIsFree p) (decidableIsFree q)
  | alt p q => @instDecidableAnd _ _ (decidableIsFree p) (decidableIsFree q)
  | repeated p _ _ _ => decidableIsFree p

/-- Whether a pattern spells a text. -/
def Spells : Pattern → Text → Prop
  | empty, u => u = []
  | one s, u => ∃ c, u = [c] ∧ s.mem c = true
  | assertion _, _ => False
  | group _ p, u => p.Spells u
  | seq p q, u => ∃ a b, u = a ++ b ∧ p.Spells a ∧ q.Spells b
  | alt p q, u => p.Spells u ∨ q.Spells u
  | repeated p least most _, u =>
    ∃ parts : List Text, u = parts.flatten ∧ (∀ a ∈ parts, p.Spells a) ∧
      ∃ more, (∀ m ∈ most, more ≤ m - least) ∧ parts.length = least + more

/-! ## Edges -/

theorem getElem?_edgesFrom (before : Option Char) (t : Text) (i : Nat) :
    (edgesFrom before t)[i]? =
      if i ≤ t.length then some ⟨if i = 0 then before else t[i - 1]?, t[i]?⟩ else none := by
  induction t generalizing before i with
  | nil => cases i <;> simp [edgesFrom]
  | cons c t ih =>
    cases i with
    | zero => simp [edgesFrom]
    | succ i =>
      rw [edgesFrom, List.getElem?_cons_succ, ih]
      cases i <;> simp

theorem getElem?_edges {t : Text} {i : Nat} (h : i ≤ t.length) :
    (edges t)[i]? = some ⟨if i = 0 then none else t[i - 1]?, t[i]?⟩ := by
  rw [edges, getElem?_edgesFrom, if_pos h]

theorem leads_textStart {t : Text} {i j : Nat} (h : i ≤ t.length) :
    (assertion .textStart).Leads (edges t) i j ↔ i = 0 ∧ j = 0 := by
  simp only [Leads, getElem?_edges h, Option.some.injEq, exists_eq_left', holds,
    Option.isNone_iff_eq_none]
  cases i with
  | zero => simp [eq_comm]
  | succ i =>
    have hlt : i < t.length := h
    simp [hlt]

theorem leads_textEnd {t : Text} {i j : Nat} (h : i ≤ t.length) :
    (assertion .textEnd).Leads (edges t) i j ↔ i = t.length ∧ j = t.length := by
  simp only [Leads, getElem?_edges h, Option.some.injEq, exists_eq_left', holds,
    Option.isNone_iff_eq_none, List.getElem?_eq_none_iff]
  omega

theorem leads_one {t : Text} {i j : Nat} (h : i ≤ t.length) (s : CharSet) :
    (one s).Leads (edges t) i j ↔ ∃ c, [c] <+: t.drop i ∧ s.mem c = true ∧ j = i + 1 := by
  have hprefix : ∀ c, [c] <+: t.drop i ↔ t[i]? = some c := by
    intro c
    rw [List.prefix_iff_eq_take, List.length_singleton, ← List.head?_drop]
    cases t.drop i with
    | nil => simp
    | cons d rest => simp [eq_comm]
  simp only [Leads, getElem?_edges h, Option.some.injEq, exists_eq_left', Edge.isBefore,
    Option.any_eq_true, hprefix]
  exact ⟨fun ⟨⟨c, hc, hs⟩, hj⟩ => ⟨c, hc, hs, hj⟩, fun ⟨c, hc, hs, hj⟩ => ⟨⟨c, hc, hs⟩, hj⟩⟩

/-! ## Places and texts -/

/-- The text between two places is spelled in two parts exactly when it can be cut. -/
theorem exists_prefix_append {t : Text} {i : Nat} {P Q : Text → Prop} {k : Nat} :
    (∃ u, u <+: t.drop i ∧ k = i + u.length ∧ ∃ a b, u = a ++ b ∧ P a ∧ Q b) ↔
      ∃ a, a <+: t.drop i ∧ P a ∧
        ∃ b, b <+: t.drop (i + a.length) ∧ k = i + a.length + b.length ∧ Q b := by
  constructor
  · rintro ⟨u, ⟨rest, hrest⟩, rfl, a, b, rfl, ha, hb⟩
    rw [List.append_assoc] at hrest
    refine ⟨a, ⟨b ++ rest, hrest⟩, ha, b, ⟨rest, ?_⟩, ?_, hb⟩
    · rw [← List.drop_drop, ← hrest, List.drop_left]
    · rw [List.length_append, Nat.add_assoc]
  · rintro ⟨a, ⟨behind, hbehind⟩, ha, b, ⟨rest, hrest⟩, rfl, hb⟩
    rw [← List.drop_drop, ← hbehind, List.drop_left] at hrest
    refine ⟨a ++ b, ⟨rest, ?_⟩, ?_, a, b, rfl, ha, hb⟩
    · rw [List.append_assoc, hrest, hbehind]
    · rw [List.length_append, Nat.add_assoc]

theorem add_length_le {t u : Text} {i : Nat} (hi : i ≤ t.length) (h : u <+: t.drop i) :
    i + u.length ≤ t.length := by
  have hle := h.length_le
  rw [List.length_drop] at hle
  omega

/-- Rounds that spell texts spell them one behind the other. -/
theorem rounds_iff_flatten {t : Text} {round : Nat → Nat → Prop} {P : Text → Prop}
    (h : ∀ i j, i ≤ t.length →
      (round i j ↔ ∃ u, u <+: t.drop i ∧ j = i + u.length ∧ P u)) (n : Nat) {i k : Nat}
    (hi : i ≤ t.length) :
    Rounds round n i k ↔ ∃ u, u <+: t.drop i ∧ k = i + u.length ∧
      ∃ parts : List Text, u = parts.flatten ∧ (∀ a ∈ parts, P a) ∧ parts.length = n := by
  induction n generalizing i with
  | zero =>
    constructor
    · intro hik
      exact ⟨[], List.nil_prefix, hik.symm, [], rfl, by simp, rfl⟩
    · rintro ⟨u, -, rfl, parts, rfl, -, hparts⟩
      obtain rfl := List.length_eq_zero_iff.mp hparts
      rfl
  | succ n ih =>
    have hsplit : ∀ u : Text,
        (∃ parts : List Text, u = parts.flatten ∧ (∀ a ∈ parts, P a) ∧ parts.length = n + 1) ↔
        ∃ a b, u = a ++ b ∧ P a ∧
          ∃ parts : List Text, b = parts.flatten ∧ (∀ a ∈ parts, P a) ∧ parts.length = n := by
      intro u
      constructor
      · rintro ⟨parts, rfl, hall, hlength⟩
        obtain ⟨a, parts, rfl⟩ := List.exists_cons_of_length_eq_add_one hlength
        obtain ⟨ha, hrest⟩ := List.forall_mem_cons.mp hall
        exact ⟨a, parts.flatten, rfl, ha, parts, rfl, hrest, Nat.succ.inj hlength⟩
      · rintro ⟨a, b, rfl, ha, parts, rfl, hall, hlength⟩
        exact ⟨a :: parts, rfl, List.forall_mem_cons.mpr ⟨ha, hall⟩, congrArg Nat.succ hlength⟩
    simp only [hsplit]
    rw [exists_prefix_append]
    constructor
    · rintro ⟨j, hij, hjk⟩
      obtain ⟨a, ha, rfl, hP⟩ := (h i j hi).mp hij
      exact ⟨a, ha, hP, (ih (add_length_le hi ha)).mp hjk⟩
    · rintro ⟨a, ha, hP, hrest⟩
      exact ⟨_, (h i _ hi).mpr ⟨a, ha, rfl, hP⟩, (ih (add_length_le hi ha)).mpr hrest⟩

/-- A pattern without conditions leads along the texts that it spells. -/
theorem leads_iff_spells {p : Pattern} (hp : p.IsFree) {t : Text} {i j : Nat}
    (hi : i ≤ t.length) :
    p.Leads (edges t) i j ↔ ∃ u, u <+: t.drop i ∧ j = i + u.length ∧ p.Spells u := by
  induction p generalizing i j with
  | empty =>
    constructor
    · intro hij
      exact ⟨[], List.nil_prefix, hij.symm, rfl⟩
    · rintro ⟨u, -, rfl, rfl⟩
      rfl
  | one s =>
    rw [leads_one hi]
    constructor
    · rintro ⟨c, hc, hs, rfl⟩
      exact ⟨[c], hc, rfl, c, rfl, hs⟩
    · rintro ⟨u, hu, rfl, c, rfl, hs⟩
      exact ⟨c, hu, hs, rfl⟩
  | assertion a => exact hp.elim
  | group n p ih => exact ih hp hi
  | seq p q ihp ihq =>
    simp only [Spells]
    rw [exists_prefix_append]
    constructor
    · rintro ⟨k, hik, hkj⟩
      obtain ⟨a, ha, rfl, hP⟩ := (ihp hp.1 hi).mp hik
      exact ⟨a, ha, hP, (ihq hp.2 (add_length_le hi ha)).mp hkj⟩
    · rintro ⟨a, ha, hP, hrest⟩
      exact ⟨_, (ihp hp.1 hi).mpr ⟨a, ha, rfl, hP⟩, (ihq hp.2 (add_length_le hi ha)).mpr hrest⟩
  | alt p q ihp ihq =>
    simp only [Leads, ihp hp.1 hi, ihq hp.2 hi, Spells]
    constructor
    · rintro (⟨u, hu, hj, h⟩ | ⟨u, hu, hj, h⟩)
      · exact ⟨u, hu, hj, .inl h⟩
      · exact ⟨u, hu, hj, .inr h⟩
    · rintro ⟨u, hu, hj, h | h⟩
      · exact .inl ⟨u, hu, hj, h⟩
      · exact .inr ⟨u, hu, hj, h⟩
  | repeated p least most greedy ih =>
    simp only [Leads, Spells, rounds_iff_flatten (fun _ _ hi => ih hp hi) _ hi]
    constructor
    · rintro ⟨more, hmore, u, hu, hj, parts, hflat, hall, hlength⟩
      exact ⟨u, hu, hj, parts, hflat, hall, more, hmore, hlength⟩
    · rintro ⟨u, hu, hj, parts, hflat, hall, more, hmore, hlength⟩
      exact ⟨more, hmore, u, hu, hj, parts, hflat, hall, hlength⟩

/-! ## Patterns one after another -/

theorem isFree_all {ps : List Pattern} : (all ps).IsFree ↔ ∀ p ∈ ps, p.IsFree := by
  induction ps with
  | nil => simp [all, IsFree]
  | cons p ps ih =>
    cases ps with
    | nil => simp [all]
    | cons q qs => exact (and_congr_right fun _ => ih).trans List.forall_mem_cons.symm

theorem leads_all_cons {es : List Edge} (p : Pattern) (ps : List Pattern) (i k : Nat) :
    (all (p :: ps)).Leads es i k ↔ ∃ j, p.Leads es i j ∧ (all ps).Leads es j k := by
  cases ps with
  | nil =>
    constructor
    · exact fun h => ⟨k, h, rfl⟩
    · rintro ⟨j, h, hjk⟩
      exact (show j = k from hjk) ▸ h
  | cons q qs => rfl

theorem leads_all_append {es : List Edge} (ps qs : List Pattern) (i k : Nat) :
    (all (ps ++ qs)).Leads es i k ↔ ∃ j, (all ps).Leads es i j ∧ (all qs).Leads es j k := by
  induction ps generalizing i with
  | nil =>
    constructor
    · exact fun h => ⟨i, rfl, h⟩
    · rintro ⟨j, hij, h⟩
      exact (show i = j from hij) ▸ h
  | cons p ps ih =>
    simp only [List.cons_append, leads_all_cons, ih]
    constructor
    · rintro ⟨j, hp, l, hps, hqs⟩
      exact ⟨l, ⟨j, hp, hps⟩, hqs⟩
    · rintro ⟨l, ⟨j, hp, hps⟩, hqs⟩
      exact ⟨j, hp, l, hps, hqs⟩

theorem spells_all_cons (p : Pattern) (ps : List Pattern) (u : Text) :
    (all (p :: ps)).Spells u ↔ ∃ a b, u = a ++ b ∧ p.Spells a ∧ (all ps).Spells b := by
  cases ps with
  | nil =>
    constructor
    · exact fun h => ⟨u, [], (List.append_nil u).symm, h, rfl⟩
    · rintro ⟨a, b, rfl, h, hb⟩
      rw [show b = [] from hb, List.append_nil]
      exact h
  | cons q qs => rfl

theorem spells_all_append (ps qs : List Pattern) (u : Text) :
    (all (ps ++ qs)).Spells u ↔ ∃ a b, u = a ++ b ∧ (all ps).Spells a ∧ (all qs).Spells b := by
  induction ps generalizing u with
  | nil =>
    constructor
    · exact fun h => ⟨[], u, rfl, rfl, h⟩
    · rintro ⟨a, b, rfl, ha, h⟩
      rw [show a = [] from ha]
      exact h
  | cons p ps ih =>
    simp only [List.cons_append, spells_all_cons, ih]
    constructor
    · rintro ⟨a, _, rfl, hp, b, c, rfl, hps, hqs⟩
      exact ⟨a ++ b, c, (List.append_assoc a b c).symm, ⟨a, b, rfl, hp, hps⟩, hqs⟩
    · rintro ⟨_, c, rfl, ⟨a, b, rfl, hp, hps⟩, hqs⟩
      exact ⟨a, b ++ c, List.append_assoc a b c, hp, b, c, rfl, hps, hqs⟩

theorem spells_any (ps : List Pattern) (u : Text) :
    (any ps).Spells u ↔ ∃ p ∈ ps, p.Spells u := by
  induction ps with
  | nil => simp [any, Spells, CharSet.mem]
  | cons p ps ih =>
    cases ps with
    | nil => simp [any]
    | cons q qs =>
      exact (or_congr_right ih).trans (List.exists_mem_cons_iff (·.Spells u) p (q :: qs)).symm

theorem mem_single {a c : Char} : (CharSet.single a).mem c = true ↔ c = a := by
  rw [CharSet.single, CharSet.mem, Bool.and_eq_true, decide_eq_true_eq, decide_eq_true_eq,
    ← Char.toNat_inj]
  omega

theorem spells_literal (t u : Text) : (literal t).Spells u ↔ u = t := by
  induction t generalizing u with
  | nil => rfl
  | cons c t ih =>
    have hone : ∀ v, (one (.single c)).Spells v ↔ v = [c] := by
      intro v
      constructor
      · rintro ⟨d, rfl, hd⟩
        rw [mem_single.mp hd]
      · exact fun h => ⟨c, h, mem_single.mpr rfl⟩
    cases t with
    | nil => exact hone u
    | cons d t =>
      constructor
      · rintro ⟨a, b, rfl, ha, hb⟩
        rw [(hone a).mp ha, (ih b).mp hb]
        rfl
      · rintro rfl
        exact ⟨[c], d :: t, rfl, (hone _).mpr rfl, (ih _).mpr rfl⟩

/-- Characters of one set, as many as one likes. -/
theorem spells_star_one (s : CharSet) (u : Text) :
    (star (one s)).Spells u ↔ ∀ c ∈ u, s.mem c = true := by
  constructor
  · rintro ⟨parts, rfl, hparts, -⟩ c hc
    obtain ⟨part, hpart, hc⟩ := List.mem_flatten.mp hc
    obtain ⟨d, rfl, hd⟩ := hparts part hpart
    rwa [List.mem_singleton.mp hc]
  · intro hu
    refine ⟨u.map fun c => [c], ?_, fun part hpart => ?_, u.length, by simp, by simp⟩
    · rw [← List.flatMap_def, List.flatMap_singleton']
    · obtain ⟨c, hc, rfl⟩ := List.mem_map.mp hpart
      exact ⟨c, rfl, hu c hc⟩

theorem isFree_any {ps : List Pattern} (h : ∀ p ∈ ps, p.IsFree) : (any ps).IsFree := by
  induction ps with
  | nil => trivial
  | cons p ps ih =>
    obtain ⟨hp, hps⟩ := List.forall_mem_cons.mp h
    cases ps with
    | nil => exact hp
    | cons q qs => exact ⟨hp, ih hps⟩

/-- Between the ends of a text, free patterns match exactly if they spell the whole text. -/
theorem isMatch_anchored {ps : List Pattern} (h : ∀ p ∈ ps, p.IsFree) (t : Text) :
    (all ([empty, start] ++ ps ++ [stop])).isMatch t = true ↔ (all ps).Spells t := by
  simp only [isMatch_iff_leads, leads_all_append, List.append_assoc]
  have hfree := isFree_all.mpr h
  have hbegin : ∀ i j, (all [empty, start]).Leads (edges t) i j ∧ i ≤ t.length ↔ i = 0 ∧ j = 0 := by
    intro i j
    constructor
    · rintro ⟨⟨k, hik, hkj⟩, hi⟩
      obtain rfl : i = k := hik
      exact (leads_textStart hi).mp hkj
    · rintro ⟨rfl, rfl⟩
      exact ⟨⟨0, rfl, (leads_textStart (Nat.zero_le _)).mpr ⟨rfl, rfl⟩⟩, Nat.zero_le _⟩
  constructor
  · rintro ⟨i, k, ⟨j, hij, l, hjl, hlk⟩, hk⟩
    have hle : i ≤ t.length := Nat.le_trans hij.le (Nat.le_trans hjl.le (Nat.le_trans hlk.le hk))
    obtain ⟨rfl, rfl⟩ := (hbegin i j).mp ⟨hij, hle⟩
    obtain ⟨u, hu, rfl, hspells⟩ := (leads_iff_spells hfree (Nat.zero_le _)).mp hjl
    obtain ⟨hlength, -⟩ := (leads_textEnd (Nat.le_trans hlk.le hk)).mp hlk
    rw [Nat.zero_add] at hlength
    rw [List.drop_zero] at hu
    exact hu.eq_of_length hlength ▸ hspells
  · intro hspells
    refine ⟨0, t.length, ⟨0, ((hbegin 0 0).mpr ⟨rfl, rfl⟩).1, t.length, ?_, ?_⟩, Nat.le_refl _⟩
    · exact (leads_iff_spells hfree (Nat.zero_le _)).mpr
        ⟨t, List.prefix_refl t, (Nat.zero_add _).symm, hspells⟩
    · exact (leads_textEnd (Nat.le_refl _)).mpr ⟨rfl, rfl⟩

end Pattern
end TestTransform
