/-
What a glob matches, said token by token.

A glob is a pattern over the bytes of a path.  Which texts of bytes a token spells is said here
by recursion on the tokens, without terms and patterns; the main statement is that a glob
matches a path if and only if its tokens, one after another, spell the whole text of it.
-/
import Mathlib.Data.List.Forall2
import TestTransform.Glob.Basic
import TestTransform.Proofs.Pattern.Language
import TestTransform.Proofs.Text.Utf8

namespace TestTransform
namespace Glob

/-! ## Bytes as characters -/

theorem byteText_cons (c : Char) (t : Text) : byteText (c :: t) = bytesOf c ++ byteText t := by
  rw [byteText, Text.utf8, List.flatMap_cons, List.map_append]
  rfl

theorem byteText_append (s t : Text) : byteText (s ++ t) = byteText s ++ byteText t := by
  rw [byteText, Text.utf8, List.flatMap_append, List.map_append]
  rfl

theorem byteChar_toNat (b : UInt8) : (byteChar b).toNat = b.toNat := by
  have hlt := b.toNat_lt
  rw [byteChar, Char.ofNat, dif_pos (Or.inl (by omega))]
  rfl

theorem byteChar_injective {a b : UInt8} (h : byteChar a = byteChar b) : a = b := by
  rw [← UInt8.toNat_inj, ← byteChar_toNat, ← byteChar_toNat, h]

theorem byteText_injective {s t : Text} (h : byteText s = byteText t) : s = t :=
  Text.utf8_injective ((List.map_inj_right fun _ _ => byteChar_injective).mp h)

theorem bytesOf_ascii {c : Char} (h : c.toNat < 128) : bytesOf c = [c] := by
  have hbyte : c.toNat < 256 := by omega
  rw [bytesOf, Text.utf8EncodeChar_ascii h, List.map_singleton, byteChar, UInt8.toNat_ofNat',
    Nat.mod_eq_of_lt hbyte, Char.ofNat_toNat]

theorem bytesOf_ne_nil (c : Char) : bytesOf c ≠ [] := by
  rw [bytesOf, Ne, List.map_eq_nil_iff]
  exact String.utf8EncodeChar_ne_nil

/-- A byte of ASCII is a character of its own. -/
theorem eq_of_mem_bytesOf {c d : Char} (hc : c.toNat < 128) (h : c ∈ bytesOf d) : d = c := by
  by_cases hd : d.toNat < 128
  · rw [bytesOf_ascii hd, List.mem_singleton] at h
    exact h.symm
  · obtain ⟨b, hb, rfl⟩ := List.mem_map.mp h
    have hle := Text.le_of_mem_utf8EncodeChar (Nat.le_of_not_lt hd) hb
    rw [byteChar_toNat] at hc
    exact absurd hc (Nat.not_lt.mpr hle)

theorem slash_not_mem_bytesOf {c : Char} (h : c ≠ '/') : '/' ∉ bytesOf c :=
  fun hmem => h (eq_of_mem_bytesOf (by decide) hmem)

@[simp] theorem bytesOf_slash : bytesOf '/' = ['/'] := bytesOf_ascii (by decide)

theorem slash_mem_byteText {t : Text} : '/' ∈ byteText t ↔ '/' ∈ t := by
  induction t with
  | nil => rfl
  | cons c t ih =>
    rw [byteText_cons, List.mem_append, List.mem_cons, ih]
    by_cases hc : c = '/'
    · subst hc
      simp
    · exact or_congr_left (iff_of_false (slash_not_mem_bytesOf hc) (Ne.symm hc))

/-- A slash among the bytes of a text stands between the bytes of two texts. -/
theorem byteText_eq_append_slash {t u v : Text} (h : byteText t = u ++ '/' :: v) :
    ∃ a b, t = a ++ '/' :: b ∧ byteText a = u ∧ byteText b = v := by
  induction t generalizing u with
  | nil => cases u <;> cases h
  | cons c t ih =>
    rw [byteText_cons] at h
    by_cases hc : c = '/'
    · subst hc
      cases u with
      | nil =>
        rw [bytesOf_slash] at h
        exact ⟨[], t, rfl, rfl, (List.cons.inj h).2⟩
      | cons d u =>
        rw [bytesOf_slash] at h
        obtain ⟨rfl, htail⟩ := List.cons.inj h
        obtain ⟨a, b, rfl, rfl, rfl⟩ := ih htail
        exact ⟨'/' :: a, b, rfl, by rw [byteText_cons, bytesOf_slash]; rfl, rfl⟩
    · -- the bytes of the first character lie before the slash
      obtain ⟨rest, hu⟩ : ∃ rest, u = bytesOf c ++ rest := by
        obtain ⟨rest, hu, -⟩ | ⟨rest, hrest, htail⟩ := List.append_eq_append_iff.mp h
        · exact ⟨rest, hu⟩
        · cases rest with
          | nil => exact ⟨[], by rw [hrest, List.append_nil, List.append_nil]⟩
          | cons d rest =>
            obtain ⟨rfl, -⟩ := List.cons.inj htail
            exact absurd (hrest ▸ by simp) (slash_not_mem_bytesOf hc)
      subst hu
      rw [List.append_assoc] at h
      obtain ⟨a, b, rfl, rfl, rfl⟩ := ih (List.append_cancel_left h)
      exact ⟨c :: a, b, rfl, byteText_cons c a, rfl⟩

/-! ## Texts that tokens spell -/

/-- Whether a byte belongs to what a range of characters stands for. -/
def InRange (first last b : Char) : Prop :=
  if first = last then b ∈ bytesOf first
  else
    b ∈ (bytesOf first).dropLast ∨
      (((bytesOf first).getLastD ' ').toNat ≤ b.toNat ∧
        b.toNat ≤ ((bytesOf last).headD ' ').toNat) ∨
      b ∈ (bytesOf last).tail

mutual

/-- Whether a token stands for nothing at all: a group whose branches are all blank. -/
def Token.isBlank : Token → Bool
  | .alternates branches => allBlank branches
  | _ => false

def areBlank : List Token → Bool
  | [] => true
  | t :: ts => t.isBlank && areBlank ts

def allBlank : List (List Token) → Bool
  | [] => true
  | b :: bs => areBlank b && allBlank bs

end

mutual

/-- Whether a token spells a text of bytes. -/
def Token.Spells (separated : Bool) : Token → Text → Prop
  | .literal c, u => u = bytesOf c
  | .any, u => ∃ b, u = [b] ∧ (separated = true → b ≠ '/')
  | .zeroOrMore, u => separated = true → '/' ∉ u
  | .recursivePrefix, u => u = [] ∨ ∃ v, u = v ++ ['/']
  | .recursiveSuffix, u => ∃ v, u = '/' :: v
  | .recursiveZeroOrMore, u => u = ['/'] ∨ ∃ v, u = '/' :: (v ++ ['/'])
  | .oneOf negated ranges, u =>
    ∃ b, u = [b] ∧ ((∃ r ∈ ranges, InRange r.1 r.2 b) ↔ negated = false)
  | .alternates branches, u =>
    SpellsSome separated branches u ∨ (allBlank branches = true ∧ u = [])

/-- Whether tokens spell a text one after another. -/
def SpellsAll (separated : Bool) : List Token → Text → Prop
  | [], u => u = []
  | t :: ts, u => ∃ a b, u = a ++ b ∧ t.Spells separated a ∧ SpellsAll separated ts b

/-- Whether some branch spells a text.  Blank branches are as good as not there. -/
def SpellsSome (separated : Bool) : List (List Token) → Text → Prop
  | [], _ => False
  | b :: bs, u =>
    (areBlank b = false ∧ SpellsAll separated b u) ∨ SpellsSome separated bs u

end

/-- Whether the tokens of a glob spell a whole text.  `**` alone spells every text. -/
def SpellsWhole (separated : Bool) (tokens : List Token) (u : Text) : Prop :=
  match tokens with
  | [.recursivePrefix] => True
  | tokens => SpellsAll separated tokens u

/-! ## Terms -/

open Pattern (Term SetTerm Flags)

/-- The flags under which a glob is read: a dot stands for every byte. -/
def dotted : Flags := { dotAll := true }

/-- The patterns of some terms. -/
def Patterns : List Term → List Pattern → Prop :=
  List.Forall₂ fun t p => t.pattern? dotted = some (p, dotted) ∧ p.IsFree

/-- Whether terms stand for some texts, one term after another. -/
def SpellInOrder (ts : List Term) (L : Text → Prop) : Prop :=
  ∃ ps, Patterns ts ps ∧ ∀ u, (Pattern.all ps).Spells u ↔ L u

/-- Whether terms stand for some texts, each term for a part of them. -/
def SpellOneOf (ts : List Term) (L : Text → Prop) : Prop :=
  ∃ ps, Patterns ts ps ∧ ∀ u, (Pattern.any ps).Spells u ↔ L u

variable {ts us : List Term} {ps : List Pattern} {L M : Text → Prop}

theorem Patterns.isFree (h : Patterns ts ps) : ∀ p ∈ ps, p.IsFree := by
  induction h with
  | nil => simp
  | cons hp _ ih => exact List.forall_mem_cons.mpr ⟨hp.2, ih⟩

theorem Patterns.meant (h : Patterns ts ps) :
    List.Forall₂ (fun t p => Term.pattern? dotted t = some (p, dotted)) ts ps :=
  h.imp fun _ _ h => h.1

theorem concatenationOf?_eq
    (h : List.Forall₂ (fun t p => Term.pattern? dotted t = some (p, dotted)) ts ps) :
    Pattern.concatenationOf? dotted ts = some (Pattern.all ps, dotted) := by
  induction h with
  | nil => rfl
  | @cons t p ts ps hp hps ih =>
    cases hps with
    | nil => exact hp
    | cons _ _ => simp [Pattern.concatenationOf?, hp, ih, Pattern.all]

theorem alternation?_eq (h : Patterns ts ps) :
    Pattern.alternation? dotted ts = some (Pattern.any ps, dotted) := by
  induction h with
  | nil => rfl
  | @cons t p ts ps hp hps ih =>
    cases hps with
    | nil => exact hp.1
    | cons _ _ => simp [Pattern.alternation?, hp.1, ih, Pattern.any]

theorem SpellInOrder.congr (h : SpellInOrder ts L) (hLM : ∀ u, L u ↔ M u) : SpellInOrder ts M := by
  obtain ⟨ps, hps, hL⟩ := h
  exact ⟨ps, hps, fun u => (hL u).trans (hLM u)⟩

theorem SpellOneOf.congr (h : SpellOneOf ts L) (hLM : ∀ u, L u ↔ M u) : SpellOneOf ts M := by
  obtain ⟨ps, hps, hL⟩ := h
  exact ⟨ps, hps, fun u => (hL u).trans (hLM u)⟩

theorem spellInOrder_nil : SpellInOrder [] (· = []) := ⟨[], .nil, fun _ => Iff.rfl⟩

theorem SpellInOrder.append (h : SpellInOrder ts L) (h' : SpellInOrder us M) :
    SpellInOrder (ts ++ us) fun u => ∃ a b, u = a ++ b ∧ L a ∧ M b := by
  obtain ⟨ps, hps, hL⟩ := h
  obtain ⟨qs, hqs, hM⟩ := h'
  refine ⟨ps ++ qs, List.rel_append hps hqs, fun u => ?_⟩
  simp only [Pattern.spells_all_append, hL, hM]

theorem SpellInOrder.single {t : Term} {p : Pattern}
    (ht : t.pattern? dotted = some (p, dotted)) (hp : p.IsFree)
    (hL : ∀ u, p.Spells u ↔ L u) : SpellInOrder [t] L :=
  ⟨[p], .cons ⟨ht, hp⟩ .nil, hL⟩

theorem SpellInOrder.concatenation (h : SpellInOrder ts L) :
    SpellInOrder [.concatenation ts] L := by
  obtain ⟨ps, hps, hL⟩ := h
  exact .single (concatenationOf?_eq hps.meant) (Pattern.isFree_all.mpr hps.isFree) hL

theorem SpellInOrder.inOrder (h : SpellInOrder ts L) : SpellInOrder [Term.inOrder ts] L := by
  match ts with
  | [] =>
    obtain ⟨ps, hps, hL⟩ := h
    cases hps
    exact .single rfl trivial hL
  | [t] => exact h
  | t :: t' :: ts => exact h.concatenation

theorem SpellOneOf.choice (h : SpellOneOf ts L) : SpellInOrder [choice ts] L := by
  obtain ⟨ps, hps, hL⟩ := h
  have hterm : (Term.oneOf ts).pattern? dotted = some (Pattern.any ps, dotted) := by
    rw [← alternation?_eq hps]
    match ts with
    | [] => rfl
    | [t] => rfl
    | t :: t' :: ts => rfl
  refine .single (p := Pattern.any ps) ?_ (Pattern.isFree_any hps.isFree) hL
  show ((Term.oneOf ts).pattern? dotted).map _ = _
  rw [hterm]
  rfl

theorem spellOneOf_nil : SpellOneOf [] fun _ => False := by
  refine ⟨[], .nil, fun u => ?_⟩
  rw [Pattern.spells_any]
  simp

theorem SpellInOrder.oneOf_cons {t : Term} (h : SpellInOrder [t] L) (h' : SpellOneOf us M) :
    SpellOneOf (t :: us) fun u => L u ∨ M u := by
  obtain ⟨ps, hps, hL⟩ := h
  obtain ⟨qs, hqs, hM⟩ := h'
  obtain ⟨p, ps, hp, hnil, rfl⟩ := List.forall₂_cons_left_iff.mp hps
  cases hnil
  refine ⟨p :: qs, .cons hp hqs, fun u => ?_⟩
  rw [Pattern.spells_any, List.exists_mem_cons_iff, ← Pattern.spells_any, hM]
  exact or_congr_left (hL u)

/-! ## Terms of one byte -/

theorem spellInOrder_byte {t : Term} {s : CharSet} {P : Char → Prop}
    (ht : t.pattern? dotted = some (.one s, dotted)) (hs : ∀ c, s.mem c = true ↔ P c) :
    SpellInOrder [t] fun u => ∃ c, u = [c] ∧ P c := by
  refine .single ht trivial fun u => ?_
  simp only [Pattern.Spells, hs]

theorem spellInOrder_star {t : Term} {s : CharSet} {P : Char → Prop}
    (ht : t.pattern? dotted = some (.one s, dotted)) (hs : ∀ c, s.mem c = true ↔ P c) :
    SpellInOrder [star t] fun u => ∀ c ∈ u, P c := by
  refine .single (p := .repeated (.one s) 0 none true) ?_ trivial fun u => ?_
  · show (t.pattern? dotted).map _ = _
    rw [ht]
    rfl
  · simp only [Pattern.Spells, hs]
    constructor
    · rintro ⟨parts, rfl, hparts, -⟩ c hc
      obtain ⟨part, hpart, hc⟩ := List.mem_flatten.mp hc
      obtain ⟨d, rfl, hd⟩ := hparts part hpart
      exact List.mem_singleton.mp hc ▸ hd
    · intro hu
      refine ⟨u.map fun c => [c], (List.flatMap_singleton' u).symm, ?_, u.length, by simp, by simp⟩
      intro part hpart
      obtain ⟨c, hc, rfl⟩ := List.mem_map.mp hpart
      exact ⟨c, rfl, hu c hc⟩

theorem spellInOrder_letter (c : Char) : SpellInOrder [letter c] (· = [c]) :=
  (spellInOrder_byte (s := .single c) rfl fun _ => Pattern.mem_single).congr fun _ =>
    ⟨fun ⟨_, hu, hc⟩ => hc ▸ hu, fun hu => ⟨c, hu, rfl⟩⟩

theorem spellInOrder_optionalSlash :
    SpellInOrder [.repeated slash 0 (some 1) true] fun u => u = [] ∨ u = ['/'] := by
  refine .single (p := .repeated (.one (.single '/')) 0 (some 1) true) rfl trivial fun u => ?_
  simp only [Pattern.Spells, Pattern.mem_single]
  constructor
  · rintro ⟨parts, rfl, hparts, more, hmore, hlength⟩
    have hle : parts.length ≤ 1 := by
      have hone := hmore 1 rfl
      omega
    cases parts with
    | nil => exact .inl rfl
    | cons part parts =>
      obtain rfl := List.length_eq_zero_iff.mp (Nat.le_zero.mp (Nat.le_of_succ_le_succ hle))
      obtain ⟨c, rfl, rfl⟩ := hparts part List.mem_cons_self
      exact .inr rfl
  · rintro (rfl | rfl)
    · exact ⟨[], rfl, by simp, 0, by simp, rfl⟩
    · exact ⟨[['/']], rfl, by simp, 1, by simp, rfl⟩

/-- Any byte, or any but a slash. -/
theorem byteTerm_eq (separated : Bool) :
    ∃ s, (byteTerm separated).pattern? dotted = some (.one s, dotted) ∧
      ∀ c, s.mem c = true ↔ (separated = true → c ≠ '/') := by
  cases separated with
  | false => exact ⟨.compl .none, rfl, fun c => by simp [CharSet.mem]⟩
  | true =>
    refine ⟨.compl (.single '/'), rfl, fun c => ?_⟩
    rw [CharSet.mem, Bool.not_eq_true', ← Bool.not_eq_true, Pattern.mem_single]
    simp

theorem spellInOrder_anything : SpellInOrder [anything] fun _ => True :=
  (spellInOrder_star (s := .compl .none) (P := fun _ => True) rfl fun c => by
    simp [CharSet.mem]).congr fun u => by simp

/-! ## Classes -/

/-- Whether the items of a class stand for some bytes, each item for a part of them. -/
def HoldTogether (items : List SetTerm) (P : Char → Prop) : Prop :=
  ∃ sets : List CharSet, List.Forall₂ (fun s set => s.set? dotted = some set) items sets ∧
    ∀ c, (∃ set ∈ sets, set.mem c = true) ↔ P c

variable {items items' : List SetTerm} {P Q : Char → Prop}

theorem HoldTogether.congr (h : HoldTogether items P) (hPQ : ∀ c, P c ↔ Q c) :
    HoldTogether items Q := by
  obtain ⟨sets, hsets, hP⟩ := h
  exact ⟨sets, hsets, fun c => (hP c).trans (hPQ c)⟩

theorem holdTogether_nil : HoldTogether [] fun _ => False := ⟨[], .nil, by simp⟩

theorem HoldTogether.append (h : HoldTogether items P) (h' : HoldTogether items' Q) :
    HoldTogether (items ++ items') fun c => P c ∨ Q c := by
  obtain ⟨sets, hsets, hP⟩ := h
  obtain ⟨sets', hsets', hQ⟩ := h'
  refine ⟨sets ++ sets', List.rel_append hsets hsets', fun c => ?_⟩
  show _ ↔ P c ∨ Q c
  rw [← hP, ← hQ]
  simp only [List.mem_append, or_and_right, exists_or]

theorem holdTogether_letters (t : Text) :
    HoldTogether (t.map fun c => .letter ⟨c, false⟩) (· ∈ t) := by
  induction t with
  | nil => exact holdTogether_nil.congr fun c => by simp
  | cons d t ih =>
    have hone : HoldTogether [.letter ⟨d, false⟩] (· = d) :=
      ⟨[.single d], .cons rfl .nil, fun c => by simp [Pattern.mem_single]⟩
    exact (hone.append ih).congr fun c => List.mem_cons.symm

theorem holdTogether_range (first last : Char) :
    HoldTogether [.range ⟨first, false⟩ ⟨last, false⟩]
      fun c => first.toNat ≤ c.toNat ∧ c.toNat ≤ last.toNat :=
  ⟨[.between first last], .cons rfl .nil, fun c => by simp [CharSet.between, CharSet.mem]⟩

theorem holdTogether_rangeItems (first last : Char) :
    HoldTogether (rangeItems first last) (InRange first last) := by
  simp only [rangeItems, beq_iff_eq]
  split
  · rename_i heq
    exact (holdTogether_letters _).congr fun c => by rw [InRange, if_pos heq]
  · rename_i hne
    refine ((holdTogether_letters _).append
      ((holdTogether_range _ _).append (holdTogether_letters _))).congr fun c => ?_
    rw [InRange, if_neg hne]

theorem holdTogether_ranges (ranges : List (Char × Char)) :
    HoldTogether (ranges.flatMap fun r => rangeItems r.1 r.2)
      fun c => ∃ r ∈ ranges, InRange r.1 r.2 c := by
  induction ranges with
  | nil => exact holdTogether_nil.congr fun c => by simp
  | cons r ranges ih =>
    exact ((holdTogether_rangeItems r.1 r.2).append ih).congr fun c =>
      (List.exists_mem_cons_iff (fun r => InRange r.1 r.2 c) r ranges).symm

theorem exists_unionOf? {sets : List CharSet}
    (h : List.Forall₂ (fun s set => SetTerm.set? dotted s = some set) items sets) :
    ∃ set, Pattern.unionOf? dotted items = some set ∧
      ∀ c, set.mem c = true ↔ ∃ s ∈ sets, s.mem c = true := by
  induction h with
  | nil => exact ⟨.none, rfl, by simp [CharSet.mem]⟩
  | @cons item s items sets hs _ ih =>
    obtain ⟨set, hset, hmem⟩ := ih
    refine ⟨.union s set, by simp [Pattern.unionOf?, hs, hset], fun c => ?_⟩
    rw [CharSet.mem, Bool.or_eq_true, hmem, List.exists_mem_cons_iff]

theorem HoldTogether.exists_ofItems (h : HoldTogether items P) :
    ∃ set, (SetTerm.ofItems items).set? dotted = some set ∧ ∀ c, set.mem c = true ↔ P c := by
  obtain ⟨sets, hsets, hP⟩ := h
  match items, sets, hsets with
  | [], [], .nil => exact ⟨.none, rfl, fun c => by rw [← hP]; simp [CharSet.mem]⟩
  | [item], [set], .cons hset .nil => exact ⟨set, hset, fun c => by rw [← hP]; simp⟩
  | _ :: _ :: _, _ :: _ :: _, hsets =>
    obtain ⟨set, hset, hmem⟩ := exists_unionOf? hsets
    exact ⟨set, hset, fun c => (hmem c).trans (hP c)⟩

/-! ## Tokens -/

mutual

theorem Token.terms_eq_nil_iff (separated : Bool) :
    (t : Token) → (t.terms separated = [] ↔ t.isBlank = true)
  | .literal c => by simp [Token.terms, Token.isBlank, bytesOf_ne_nil]
  | .any => by simp [Token.terms, Token.isBlank]
  | .zeroOrMore => by simp [Token.terms, Token.isBlank]
  | .recursivePrefix => by simp [Token.terms, Token.isBlank]
  | .recursiveSuffix => by simp [Token.terms, Token.isBlank]
  | .recursiveZeroOrMore => by simp [Token.terms, Token.isBlank]
  | .oneOf _ _ => by simp [Token.terms, Token.isBlank]
  | .alternates branches => by
    rw [Token.terms, Token.isBlank, ← branchTerms_eq_nil_iff separated branches]
    split
    · rename_i h
      simp [h]
    · rename_i ts h
      simpa using h

theorem tokenTerms_eq_nil_iff (separated : Bool) :
    (ts : List Token) → (tokenTerms separated ts = [] ↔ areBlank ts = true)
  | [] => by simp [tokenTerms, areBlank]
  | t :: ts => by
    rw [tokenTerms, areBlank, List.append_eq_nil_iff, Bool.and_eq_true,
      t.terms_eq_nil_iff separated, tokenTerms_eq_nil_iff separated ts]

theorem branchTerms_eq_nil_iff (separated : Bool) :
    (bs : List (List Token)) → (branchTerms separated bs = [] ↔ allBlank bs = true)
  | [] => by simp [branchTerms, allBlank]
  | b :: bs => by
    rw [branchTerms, allBlank, Bool.and_eq_true, ← tokenTerms_eq_nil_iff separated b,
      ← branchTerms_eq_nil_iff separated bs]
    split
    · rename_i h
      simp [h]
    · rename_i ts h
      exact iff_of_false (List.cons_ne_nil _ _) fun hblank => h hblank.1

end

theorem not_spellsSome_of_allBlank (separated : Bool) (bs : List (List Token))
    (h : allBlank bs = true) (u : Text) : ¬SpellsSome separated bs u := by
  induction bs with
  | nil => simp [SpellsSome]
  | cons b bs ih =>
    rw [allBlank, Bool.and_eq_true] at h
    rw [SpellsSome, h.1]
    simp [ih h.2]

theorem spellInOrder_letters (t : Text) : SpellInOrder (t.map letter) (· = t) := by
  induction t with
  | nil => exact spellInOrder_nil
  | cons c t ih =>
    refine ((spellInOrder_letter c).append ih).congr fun u => ?_
    constructor
    · rintro ⟨_, _, rfl, rfl, rfl⟩
      rfl
    · rintro rfl
      exact ⟨[c], t, rfl, rfl, rfl⟩

theorem spellInOrder_slash : SpellInOrder [slash] (· = ['/']) := spellInOrder_letter '/'

theorem spellInOrder_recursivePrefix (separated : Bool) :
    SpellInOrder (Token.terms separated .recursivePrefix)
      (Token.Spells separated .recursivePrefix) := by
  have hbehind := (spellInOrder_anything.append spellInOrder_slash).concatenation
  refine (spellInOrder_optionalSlash.oneOf_cons (hbehind.oneOf_cons spellOneOf_nil)).choice.congr ?_
  intro u
  rw [Token.Spells]
  constructor
  · rintro ((rfl | rfl) | ⟨a, _, rfl, -, rfl⟩ | h)
    · exact .inl rfl
    · exact .inr ⟨[], rfl⟩
    · exact .inr ⟨a, rfl⟩
    · exact h.elim
  · rintro (rfl | ⟨a, rfl⟩)
    · exact .inl (.inl rfl)
    · exact .inr (.inl ⟨a, ['/'], rfl, trivial, rfl⟩)

theorem spellInOrder_recursiveSuffix (separated : Bool) :
    SpellInOrder (Token.terms separated .recursiveSuffix)
      (Token.Spells separated .recursiveSuffix) := by
  refine (spellInOrder_slash.append spellInOrder_anything).congr fun u => ?_
  rw [Token.Spells]
  constructor
  · rintro ⟨_, v, rfl, rfl, -⟩
    exact ⟨v, rfl⟩
  · rintro ⟨v, rfl⟩
    exact ⟨['/'], v, rfl, rfl, trivial⟩

theorem spellInOrder_recursiveZeroOrMore (separated : Bool) :
    SpellInOrder (Token.terms separated .recursiveZeroOrMore)
      (Token.Spells separated .recursiveZeroOrMore) := by
  have hbetween := (spellInOrder_slash.append
    (spellInOrder_anything.append spellInOrder_slash)).concatenation
  refine (spellInOrder_slash.oneOf_cons (hbetween.oneOf_cons spellOneOf_nil)).choice.congr ?_
  intro u
  rw [Token.Spells]
  constructor
  · rintro (rfl | ⟨_, _, rfl, rfl, v, _, rfl, -, rfl⟩ | h)
    · exact .inl rfl
    · exact .inr ⟨v, rfl⟩
    · exact h.elim
  · rintro (rfl | ⟨v, rfl⟩)
    · exact .inl rfl
    · exact .inr (.inl ⟨['/'], v ++ ['/'], rfl, rfl, v, ['/'], rfl, trivial, rfl⟩)

theorem spellInOrder_oneOf (separated negated : Bool) (ranges : List (Char × Char)) :
    SpellInOrder (Token.terms separated (.oneOf negated ranges))
      (Token.Spells separated (.oneOf negated ranges)) := by
  obtain ⟨set, hset, hmem⟩ := (holdTogether_ranges ranges).exists_ofItems
  cases negated with
  | false =>
    refine (spellInOrder_byte (s := set) ?_ hmem).congr fun u => ?_
    · simp only [Term.pattern?, SetTerm.set?, hset]
      rfl
    · simp only [Token.Spells, iff_true]
  | true =>
    have hcompl : ∀ c, (CharSet.compl set).mem c = true ↔ ¬∃ r ∈ ranges, InRange r.1 r.2 c := by
      intro c
      rw [CharSet.mem, Bool.not_eq_true', ← Bool.not_eq_true, hmem]
    refine (spellInOrder_byte ?_ hcompl).congr fun u => ?_
    · simp only [Term.pattern?, SetTerm.set?, hset]
      rfl
    · simp only [Token.Spells, Bool.true_eq_false, iff_false]

mutual

/-- The terms of a token stand for the texts that it spells. -/
theorem Token.spellInOrder (separated : Bool) :
    (t : Token) → SpellInOrder (t.terms separated) (t.Spells separated)
  | .literal c =>
    (spellInOrder_letters (bytesOf c)).congr fun u => by rw [Token.Spells]
  | .any => by
    obtain ⟨s, hs, hmem⟩ := byteTerm_eq separated
    exact (spellInOrder_byte hs hmem).congr fun u => by rw [Token.Spells]
  | .zeroOrMore => by
    obtain ⟨s, hs, hmem⟩ := byteTerm_eq separated
    refine (spellInOrder_star hs hmem).congr fun u => ?_
    rw [Token.Spells]
    exact ⟨fun h hsep hslash => h '/' hslash hsep rfl, fun h c hc hsep hslash =>
      h hsep (hslash ▸ hc)⟩
  | .recursivePrefix => spellInOrder_recursivePrefix separated
  | .recursiveSuffix => spellInOrder_recursiveSuffix separated
  | .recursiveZeroOrMore => spellInOrder_recursiveZeroOrMore separated
  | .oneOf negated ranges => spellInOrder_oneOf separated negated ranges
  | .alternates branches => by
    have hbranches := branches_spellOneOf separated branches
    have hblank := branchTerms_eq_nil_iff separated branches
    rw [Token.terms]
    split
    · rename_i hnil
      rw [hnil] at hbranches
      refine spellInOrder_nil.congr fun u => ?_
      have hnone := not_spellsSome_of_allBlank separated branches (hblank.mp hnil) u
      rw [Token.Spells, hblank.mp hnil]
      simp [hnone]
    · rename_i ts hne
      refine hbranches.choice.congr fun u => ?_
      have hsome : allBlank branches ≠ true := fun h => hne (hblank.mpr h)
      rw [Token.Spells]
      simp [hsome]

/-- The terms of tokens stand for the texts that they spell one after another. -/
theorem tokens_spellInOrder (separated : Bool) :
    (ts : List Token) → SpellInOrder (tokenTerms separated ts) (SpellsAll separated ts)
  | [] => spellInOrder_nil.congr fun u => by rw [SpellsAll]
  | t :: ts =>
    ((t.spellInOrder separated).append (tokens_spellInOrder separated ts)).congr fun u => by
      rw [SpellsAll]

/-- The terms of branches stand for the texts that some branch spells. -/
theorem branches_spellOneOf (separated : Bool) :
    (bs : List (List Token)) → SpellOneOf (branchTerms separated bs) (SpellsSome separated bs)
  | [] => spellOneOf_nil.congr fun u => by rw [SpellsSome]
  | b :: bs => by
    have hbranch := (tokens_spellInOrder separated b).inOrder
    have hrest := branches_spellOneOf separated bs
    have hblank := tokenTerms_eq_nil_iff separated b
    rw [branchTerms]
    split
    · rename_i hnil
      refine hrest.congr fun u => ?_
      rw [SpellsSome, hblank.mp hnil]
      simp
    · rename_i ts hne
      have hfull : areBlank b = false := Bool.eq_false_iff.mpr fun h => hne (hblank.mpr h)
      refine (hbranch.oneOf_cons hrest).congr fun u => ?_
      rw [SpellsSome, hfull]
      simp

end

/-! ## Whole globs -/

theorem spellsWhole_iff {separated : Bool} {tokens : List Token} (h : tokens ≠ [.recursivePrefix])
    (u : Text) : SpellsWhole separated tokens u ↔ SpellsAll separated tokens u := by
  unfold SpellsWhole
  split
  · exact absurd rfl h
  · exact Iff.rfl

theorem wholeTerm_eq_of_ne (separated : Bool) {tokens : List Token}
    (h : tokens ≠ [.recursivePrefix]) :
    wholeTerm separated tokens = .concatenation
      (.flags [(.dotAll, true)] ::
        ([.boundary .textStart] ++ tokenTerms separated tokens ++ [.boundary .textEnd])) := by
  unfold wholeTerm
  split
  · exact absurd rfl h
  · rfl

/-- The term of a whole glob lies between the ends of the text. -/
theorem exists_body (separated : Bool) (tokens : List Token) :
    ∃ body, SpellInOrder body (SpellsWhole separated tokens) ∧
      wholeTerm separated tokens = .concatenation (.flags [(.dotAll, true)] ::
        ([.boundary .textStart] ++ body ++ [.boundary .textEnd])) := by
  by_cases h : tokens = [.recursivePrefix]
  · subst h
    exact ⟨[anything], spellInOrder_anything, rfl⟩
  · exact ⟨tokenTerms separated tokens,
      (tokens_spellInOrder separated tokens).congr fun u => (spellsWhole_iff h u).symm,
      wholeTerm_eq_of_ne separated h⟩

theorem pattern?_wholeTerm (separated : Bool) (tokens : List Token) :
    ∃ ps : List Pattern, (∀ p ∈ ps, p.IsFree) ∧
      (wholeTerm separated tokens).pattern? {} =
        some (Pattern.all ([.empty, Pattern.start] ++ ps ++ [Pattern.stop]), dotted) ∧
      ∀ u, (Pattern.all ps).Spells u ↔ SpellsWhole separated tokens u := by
  obtain ⟨body, ⟨ps, hps, hspells⟩, hwhole⟩ := exists_body separated tokens
  refine ⟨ps, hps.isFree, ?_, hspells⟩
  have hends : List.Forall₂ (fun t p => Term.pattern? dotted t = some (p, dotted))
      ([.boundary .textStart] ++ body ++ [.boundary .textEnd])
      ([Pattern.start] ++ ps ++ [Pattern.stop]) :=
    List.rel_append (R := fun t p => Term.pattern? dotted t = some (p, dotted))
      (List.rel_append (R := fun t p => Term.pattern? dotted t = some (p, dotted))
        (.cons rfl .nil) hps.meant) (.cons rfl .nil)
  have hrest := concatenationOf?_eq hends
  rw [hwhole, Term.pattern?]
  simp only [List.cons_append, List.nil_append] at hrest ⊢
  -- the flags come first, so all that follows is read under them
  rw [Pattern.concatenationOf?, Term.pattern?]
  · show ((Pattern.concatenationOf? dotted _).bind _) = _
    rw [hrest]
    rfl
  · exact List.cons_ne_nil _ _

/-- Only tokens that are nested too deeply make no glob. -/
theorem ofTokens?_eq (separated : Bool) (tokens : List Token) :
    ∃ ps : List Pattern, (∀ p ∈ ps, p.IsFree) ∧
      (∀ u, (Pattern.all ps).Spells u ↔ SpellsWhole separated tokens u) ∧
      ofTokens? separated tokens =
        if (wholeTerm separated tokens).depth ≤ Pattern.maxDepth then
          some ⟨Pattern.all ([.empty, Pattern.start] ++ ps ++ [Pattern.stop]),
            admitsNameless separated tokens⟩
        else none := by
  obtain ⟨ps, hfree, hpattern, hspells⟩ := pattern?_wholeTerm separated tokens
  refine ⟨ps, hfree, hspells, ?_⟩
  simp only [ofTokens?, hpattern, guard]
  split <;> rfl

theorem exists_ofTokens? {separated : Bool} {tokens : List Token}
    (h : (wholeTerm separated tokens).depth ≤ Pattern.maxDepth) :
    ∃ g, ofTokens? separated tokens = some g := by
  obtain ⟨ps, -, -, heq⟩ := ofTokens?_eq separated tokens
  rw [if_pos h] at heq
  exact ⟨_, heq⟩

/-- A glob matches a path if and only if its tokens spell the bytes of the path's text.  Some
globs that end in a dot do not match paths without a name. -/
theorem isMatch_iff {separated : Bool} {tokens : List Token} {g : Glob}
    (h : ofTokens? separated tokens = some g) (t : Text) :
    g.isMatch t = true ↔ (admitsNameless separated tokens = true ∨ isNameless t = false) ∧
      SpellsWhole separated tokens (byteText t) := by
  obtain ⟨ps, hfree, hspells, heq⟩ := ofTokens?_eq separated tokens
  rw [h] at heq
  split at heq
  · obtain rfl := Option.some.inj heq
    rw [isMatch, Bool.and_eq_true, Pattern.isMatch_anchored hfree, hspells, Bool.or_eq_true,
      Bool.not_eq_true']
  · cases heq

end Glob
end TestTransform
