/-
Globs of single stars and question marks, segment by segment.

Without double stars, groups and classes, what a glob matches can be read off its text.  If its
wildcards keep to segments, the glob and the path have the same number of segments and each
segment spells its counterpart.  If they do not, the path is cut at some of its slashes into as
many stretches as the glob has segments, so a path with as many segments as the glob is matched
in the same way, and all others that are matched have more.
-/
import Mathlib.Algebra.GroupWithZero.Nat
import TestTransform.Proofs.Glob.Reading
import TestTransform.Proofs.Path.Dotted

namespace TestTransform

namespace Text

/-- What holds no separator only lengthens the first piece. -/
theorem splitOn_plain_append {c : Char} {s t p : Text} {ps : List Text} (hs : c ∉ s)
    (ht : splitOn c t = p :: ps) : splitOn c (s ++ t) = (s ++ p) :: ps := by
  induction s with
  | nil => exact ht
  | cons a s ih =>
    obtain ⟨hne, hs⟩ := not_or.mp (List.mem_cons.not.mp hs)
    have hne : ¬(a == c) = true := fun h => hne (beq_iff_eq.mp h).symm
    rw [List.cons_append, splitOn, if_neg hne, ih hs]
    rfl

theorem splitOn_byteText (t : Text) :
    splitOn '/' (Glob.byteText t) = (splitOn '/' t).map Glob.byteText := by
  induction t with
  | nil => rfl
  | cons c t ih =>
    obtain ⟨p, ps, ht⟩ := List.exists_cons_of_ne_nil (splitOn_ne_nil '/' t)
    rw [ht, List.map_cons] at ih
    rw [Glob.byteText_cons]
    by_cases hc : c = '/'
    · subst hc
      rw [Glob.bytesOf_slash, List.singleton_append, splitOn, ih, splitOn, ht]
      rfl
    · have hplain := splitOn_plain_append (s := [c]) (by simpa [eq_comm] using hc) ht
      rw [splitOn_plain_append (Glob.slash_not_mem_bytesOf hc) ih]
      rw [List.singleton_append] at hplain
      rw [hplain, List.map_cons, List.singleton_append, Glob.byteText_cons]

theorem length_splitOn (c : Char) (t : Text) : (splitOn c t).length = t.count c + 1 := by
  induction t with
  | nil => rfl
  | cons a t ih =>
    obtain ⟨p, ps, ht⟩ := List.exists_cons_of_ne_nil (splitOn_ne_nil c t)
    rw [ht, List.length_cons] at ih
    rw [splitOn, ht, List.count_cons]
    split
    · rw [List.length_cons, List.length_cons, ih]
    · rw [List.length_cons, ih, Nat.add_zero]

theorem join_append_first (sep a t : Text) (ts : List Text) :
    join sep ((a ++ t) :: ts) = a ++ join sep (t :: ts) := by
  cases ts with
  | nil => rfl
  | cons s ts =>
    rw [join_cons_of_ne (List.cons_ne_nil s ts), join_cons_of_ne (List.cons_ne_nil s ts),
      List.append_assoc, List.append_assoc, List.append_assoc]

theorem join_slash_cons {t : Text} {ts : List Text} (hne : ts ≠ []) :
    join "/" (t :: ts) = t ++ '/' :: join "/" ts := by
  rw [join_cons_of_ne hne, slash_toList, List.append_assoc]
  rfl

/-- What was joined has a piece for each of the texts and one for each slash in them. -/
theorem length_splitOn_join {ts : List Text} (hne : ts ≠ []) :
    (splitOn '/' (join "/" ts)).length = ts.length + (ts.map (List.count '/')).sum := by
  induction ts with
  | nil => exact absurd rfl hne
  | cons t ts ih =>
    cases ts with
    | nil =>
      rw [join, length_splitOn, List.map_singleton, List.sum_singleton, List.length_singleton,
        Nat.add_comm]
    | cons s ts =>
      rw [join_slash_cons (List.cons_ne_nil s ts), splitOn_append_sep, List.length_append,
        ih (List.cons_ne_nil s ts), length_splitOn]
      simp only [List.map_cons, List.sum_cons, List.length_cons]
      omega

/-- Stretches that are as many as the pieces are the pieces. -/
theorem eq_splitOn_of_length {ts : List Text} (hne : ts ≠ [])
    (hlength : (splitOn '/' (join "/" ts)).length = ts.length) :
    splitOn '/' (join "/" ts) = ts := by
  have hsum : (ts.map (List.count '/')).sum = 0 := by
    rw [length_splitOn_join hne] at hlength
    omega
  refine splitOn_join hne fun t ht => List.count_eq_zero.mp ?_
  exact List.sum_eq_zero_iff_forall_eq_nat.mp hsum _ (List.mem_map_of_mem ht)

end Text

namespace Glob

/-! ## Texts that wildcards spell -/

/-- Whether one character of a glob spells a text of bytes. -/
def CharSpells (separated : Bool) (c : Char) (u : Text) : Prop :=
  match c with
  | '*' => separated = true → '/' ∉ u
  | '?' => ∃ b, u = [b] ∧ (separated = true → b ≠ '/')
  | c => u = bytesOf c

/-- Whether a text of wildcards spells a text of bytes.  A backslash makes the next character
literal; at the end of a segment that is the slash, which is literal anyway. -/
def WildcardSpells (separated : Bool) : (source : Text) → Text → Prop
  | [], u => u = []
  | ['\\'], u => u = []
  | '\\' :: d :: rest, u => ∃ v, u = bytesOf d ++ v ∧ WildcardSpells separated rest v
  | c :: rest, u =>
    ∃ a v, u = a ++ v ∧ CharSpells separated c a ∧ WildcardSpells separated rest v

variable {separated : Bool}

theorem wildcardSpells_cons {c : Char} (hc : c ≠ '\\') (rest u : Text) :
    WildcardSpells separated (c :: rest) u ↔
      ∃ a v, u = a ++ v ∧ CharSpells separated c a ∧ WildcardSpells separated rest v := by
  rw [WildcardSpells]
  · exact fun h => absurd h hc
  · exact fun _ _ h => absurd h hc

/-- Whether a glob is written without double stars, groups and classes. -/
structure IsSimple (source : Text) : Prop where
  stars : ¬['*', '*'] <:+: source
  groups : '{' ∉ source
  classes : '[' ∉ source

theorem IsSimple.tail {c : Char} {source : Text} (h : IsSimple (c :: source)) :
    IsSimple source where
  stars hstars := h.stars (hstars.trans (List.suffix_cons c source).isInfix)
  groups := (not_or.mp (List.mem_cons.not.mp h.groups)).2
  classes := (not_or.mp (List.mem_cons.not.mp h.classes)).2

/-! ## Reading wildcards -/

/-- Whether tokens behind those of a reader stand for a text of wildcards. -/
def StandsFor (r r' : Reader) (source : Text) : Prop :=
  r'.groups = [] ∧ ∃ ts, r'.tokens = ts.reverse ++ r.tokens ∧ Token.recursivePrefix ∉ ts ∧
    ∀ separated u, SpellsAll separated ts u ↔ WildcardSpells separated source u

/-- One more token in front stands for what is written in front. -/
theorem StandsFor.push {r r' : Reader} {rest source : Text} {t : Token} {L : Bool → Text → Prop}
    (h : StandsFor (r.push t) r' rest) (hne : Token.recursivePrefix ≠ t)
    (ht : ∀ separated a, t.Spells separated a ↔ L separated a)
    (hsource : ∀ separated u, WildcardSpells separated source u ↔
      ∃ a v, u = a ++ v ∧ L separated a ∧ WildcardSpells separated rest v) :
    StandsFor r r' source := by
  obtain ⟨hgroups, ts, htokens, hnot, hspells⟩ := h
  refine ⟨hgroups, t :: ts, ?_, ?_, fun separated u => ?_⟩
  · rw [htokens, List.reverse_cons, List.append_assoc]
    rfl
  · exact List.mem_cons.not.mpr (not_or.mpr ⟨hne, hnot⟩)
  · rw [SpellsAll, hsource]
    simp only [ht, hspells]

/-- A character that becomes one token. -/
theorem StandsFor.char {r r' : Reader} {rest : Text} {c : Char} {t : Token}
    (h : StandsFor (r.push t) r' rest) (hne : Token.recursivePrefix ≠ t) (hc : c ≠ '\\')
    (ht : ∀ separated a, t.Spells separated a ↔ CharSpells separated c a) :
    StandsFor r r' (c :: rest) :=
  h.push hne ht fun _ => wildcardSpells_cons hc rest

theorem spells_literal_iff {c : Char} (hstar : c ≠ '*') (hany : c ≠ '?') (separated : Bool)
    (a : Text) : (Token.literal c).Spells separated a ↔ CharSpells separated c a := by
  rw [Token.Spells, CharSpells]
  · exact fun h => absurd h hstar
  · exact fun h => absurd h hany

/-- Outside of groups, each character of a simple glob becomes one token. -/
theorem read?_standsFor {fuel : Nat} {r r' : Reader} {source : Text} (hsimple : IsSimple source)
    (hgroups : r.groups = []) (hread : read? fuel r source = some r') :
    StandsFor r r' source := by
  fun_induction read? fuel r source with
  | case1 fuel r =>
    obtain rfl := Option.some.inj hread
    exact ⟨hgroups, [], rfl, List.not_mem_nil, fun _ _ => Iff.rfl⟩
  | case2 => cases hread
  | case3 fuel r rest next ih =>
    refine (ih hsimple.tail hgroups hread).char Token.noConfusion (by decide) ?_
    intro separated a
    rw [Token.Spells]
    rfl
  | case4 fuel r rest => exact absurd ⟨[], rest, rfl⟩ hsimple.stars
  | case5 fuel r rest _ next ih =>
    refine (ih hsimple.tail hgroups hread).char Token.noConfusion (by decide) ?_
    intro separated a
    rw [Token.Spells]
    rfl
  | case6 => exact absurd List.mem_cons_self hsimple.classes
  | case7 => cases hread
  | case8 => exact absurd List.mem_cons_self hsimple.groups
  | case9 fuel r rest r₁ hclose =>
    rw [Reader.close?, hgroups] at hclose
    cases hclose
  | case10 => cases hread
  | case11 fuel r rest next ih =>
    have hcomma : r.comma = r.push (.literal ',') := by rw [Reader.comma, hgroups]
    rw [hcomma] at ih hread
    exact (ih hsimple.tail hgroups hread).char Token.noConfusion (by decide)
      (spells_literal_iff (by decide) (by decide))
  | case12 => cases hread
  | case13 fuel r d rest ih =>
    refine (ih hsimple.tail.tail hgroups hread).push (t := .literal d)
      (L := fun _ a => a = bytesOf d) Token.noConfusion (fun _ _ => by rw [Token.Spells]) ?_
    intro separated u
    rw [WildcardSpells]
    simp
  | case14 fuel r rest c hany hstar _ _ _ _ hescape next ih =>
    exact (ih hsimple.tail hgroups hread).char Token.noConfusion hescape
      (spells_literal_iff hstar hany)

/-- Whether a glob matches paths that end in `..` and so have no name. -/
def AdmitsNameless (separated : Bool) (source : Text) : Prop :=
  ∃ tokens, tokens? source = some tokens ∧ admitsNameless separated tokens = true

/-- A simple glob matches what its wildcards spell. -/
theorem Reads.wildcards {source : Text} {g : Glob} (hread : Reads separated source g)
    (hsimple : IsSimple source) (t : Text) :
    g.isMatch t = true ↔ (AdmitsNameless separated source ∨ isNameless t = false) ∧
      WildcardSpells separated source (byteText t) := by
  obtain ⟨tokens, htokens, hg⟩ := hread
  obtain ⟨r, hr, -, rfl⟩ := tokens?_eq_some_iff.mp htokens
  obtain ⟨-, ts, hts, hnot, hspells⟩ := read?_standsFor hsimple rfl hr
  rw [List.append_nil] at hts
  have hne : r.tokens.reverse ≠ [.recursivePrefix] := by
    rw [hts, List.reverse_reverse]
    exact fun h => hnot (h ▸ List.mem_singleton_self _)
  have hnameless : AdmitsNameless separated source ↔
      admitsNameless separated r.tokens.reverse = true := by
    constructor
    · rintro ⟨tokens, h, hadmits⟩
      rw [htokens] at h
      exact Option.some.inj h ▸ hadmits
    · exact fun h => ⟨_, htokens, h⟩
  rw [isMatch_iff hg, hnameless, spellsWhole_iff hne, hts, List.reverse_reverse, hspells]

/-! ## Segments -/

theorem ne_nil_of_forall₂_splitOn {R : Text → Text → Prop} {source : Text} {ts : List Text}
    (h : List.Forall₂ R (Text.splitOn '/' source) ts) : ts ≠ [] := by
  rintro rfl
  exact Text.splitOn_ne_nil '/' source (List.forall₂_nil_right_iff.mp h)

/-- Whether a text is cut at some of its slashes so that each segment of a glob spells a
stretch of it. -/
def SpellsStretches (separated : Bool) (source u : Text) : Prop :=
  ∃ stretches, u = Text.join "/" stretches ∧
    List.Forall₂ (WildcardSpells separated) (Text.splitOn '/' source) stretches

/-- What stands at the front of the first segment spells the front of the first stretch. -/
theorem spellsStretches_append {front rest : Text} {P : Text → Prop} (hfront : '/' ∉ front)
    (hspells : ∀ s u, WildcardSpells separated (front ++ s) u ↔
      ∃ a v, u = a ++ v ∧ P a ∧ WildcardSpells separated s v) (u : Text) :
    SpellsStretches separated (front ++ rest) u ↔
      ∃ a v, u = a ++ v ∧ P a ∧ SpellsStretches separated rest v := by
  obtain ⟨p, ps, hrest⟩ := List.exists_cons_of_ne_nil (Text.splitOn_ne_nil '/' rest)
  rw [SpellsStretches, Text.splitOn_plain_append hfront hrest]
  constructor
  · rintro ⟨stretches, rfl, hall⟩
    obtain ⟨k, ks, hk, hks, rfl⟩ := List.forall₂_cons_left_iff.mp hall
    obtain ⟨a, v, rfl, ha, hv⟩ := (hspells p k).mp hk
    exact ⟨a, _, Text.join_append_first _ a v ks, ha, v :: ks, rfl, hrest ▸ .cons hv hks⟩
  · rintro ⟨a, _, rfl, ha, stretches, rfl, hall⟩
    rw [hrest] at hall
    obtain ⟨k, ks, hk, hks, rfl⟩ := List.forall₂_cons_left_iff.mp hall
    exact ⟨(a ++ k) :: ks, (Text.join_append_first _ a k ks).symm,
      .cons ((hspells p _).mpr ⟨a, k, rfl, ha, hk⟩) hks⟩

/-- A segment that spells nothing stands in front of a slash. -/
theorem spellsStretches_slash {source front rest : Text}
    (hsplit : Text.splitOn '/' source = front :: Text.splitOn '/' rest)
    (hfront : ∀ k, WildcardSpells separated front k ↔ k = []) (u : Text) :
    SpellsStretches separated source u ↔
      ∃ v, u = '/' :: v ∧ SpellsStretches separated rest v := by
  have hjoin : ∀ ks, List.Forall₂ (WildcardSpells separated) (Text.splitOn '/' rest) ks →
      Text.join "/" ([] :: ks) = '/' :: Text.join "/" ks := by
    intro ks hks
    refine Text.join_slash_cons fun hnil => Text.splitOn_ne_nil '/' rest ?_
    rw [hnil] at hks
    exact List.forall₂_nil_right_iff.mp hks
  rw [SpellsStretches, hsplit]
  constructor
  · rintro ⟨stretches, rfl, hall⟩
    obtain ⟨k, ks, hk, hks, rfl⟩ := List.forall₂_cons_left_iff.mp hall
    obtain rfl := (hfront k).mp hk
    exact ⟨_, hjoin ks hks, ks, rfl, hks⟩
  · rintro ⟨_, rfl, ks, rfl, hks⟩
    exact ⟨[] :: ks, (hjoin ks hks).symm, .cons ((hfront []).mpr rfl) hks⟩

theorem spellsStretches_of_plain {segment : Text} (h : '/' ∉ segment) (u : Text) :
    SpellsStretches separated segment u ↔ WildcardSpells separated segment u := by
  rw [SpellsStretches, Text.splitOn_of_not_mem h]
  constructor
  · rintro ⟨stretches, rfl, hall⟩
    obtain ⟨k, ks, hk, hks, rfl⟩ := List.forall₂_cons_left_iff.mp hall
    rw [List.forall₂_nil_left_iff.mp hks]
    exact hk
  · exact fun h => ⟨[u], rfl, .cons h .nil⟩

theorem wildcardSpells_escape (d : Char) (rest u : Text) :
    WildcardSpells separated ('\\' :: d :: rest) u ↔
      ∃ a v, u = a ++ v ∧ a = bytesOf d ∧ WildcardSpells separated rest v := by
  rw [WildcardSpells]
  simp

/-- Wildcards spell a text in stretches, one for each segment. -/
theorem wildcardSpells_iff_stretches (source u : Text) :
    WildcardSpells separated source u ↔ SpellsStretches separated source u := by
  induction source, u using WildcardSpells.induct with
  | case1 u => exact (spellsStretches_of_plain List.not_mem_nil u).symm
  | case2 u => exact (spellsStretches_of_plain (by decide) u).symm
  | case3 d rest u ih =>
    by_cases hd : d = '/'
    · subst hd
      have hfront : ∀ k, WildcardSpells separated ['\\'] k ↔ k = [] := fun k => by
        rw [WildcardSpells]
      have hsplit : Text.splitOn '/' ('\\' :: '/' :: rest) = ['\\'] :: Text.splitOn '/' rest := rfl
      rw [wildcardSpells_escape, spellsStretches_slash hsplit hfront]
      simp [ih]
    · have hfront : '/' ∉ ['\\', d] := by simpa [eq_comm] using hd
      have hstretches : SpellsStretches separated (['\\', d] ++ rest) u ↔ _ :=
        spellsStretches_append hfront (wildcardSpells_escape d) u
      rw [wildcardSpells_escape]
      simp only [ih]
      exact hstretches.symm
  | case4 c rest u hend hescape ih =>
    have hc : c ≠ '\\' := by
      intro hc
      cases rest with
      | nil => exact hend hc rfl
      | cons d rest => exact hescape d rest hc rfl
    by_cases hslash : c = '/'
    · subst hslash
      have hfront : ∀ k, WildcardSpells separated [] k ↔ k = [] := fun k => by rw [WildcardSpells]
      have hsplit : Text.splitOn '/' ('/' :: rest) = [] :: Text.splitOn '/' rest := rfl
      rw [wildcardSpells_cons hc, spellsStretches_slash hsplit hfront]
      simp [CharSpells, ih]
    · have hfront : '/' ∉ [c] := by simpa [eq_comm] using hslash
      have hstretches : SpellsStretches separated ([c] ++ rest) u ↔ _ :=
        spellsStretches_append hfront (fun s => wildcardSpells_cons hc s) u
      rw [wildcardSpells_cons hc]
      simp only [ih]
      exact hstretches.symm

/-! ## Wildcards that keep to segments -/

theorem charSpells_separated {c : Char} (hc : c ≠ '/') (a : Text) :
    CharSpells true c a ↔ '/' ∉ a ∧ CharSpells false c a := by
  unfold CharSpells
  split
  · simp
  · simp only [true_implies, Bool.false_eq_true, false_implies, and_true]
    constructor
    · rintro ⟨b, rfl, hb⟩
      exact ⟨fun hslash => hb (List.mem_singleton.mp hslash).symm, b, rfl⟩
    · rintro ⟨hslash, b, rfl⟩
      exact ⟨b, rfl, fun hb => hslash (hb ▸ List.mem_singleton_self b)⟩
  · exact ⟨fun h => ⟨h ▸ slash_not_mem_bytesOf hc, h⟩, And.right⟩

/-- In a segment, to keep wildcards to segments is to spell no slash. -/
theorem wildcardSpells_separated (segment u : Text) (hsegment : '/' ∉ segment) :
    WildcardSpells true segment u ↔ '/' ∉ u ∧ WildcardSpells false segment u := by
  have hsplit : ∀ {P Q R S : Text → Prop}, (∀ a, P a ↔ '/' ∉ a ∧ Q a) →
      (∀ v, R v ↔ '/' ∉ v ∧ S v) → ∀ u : Text,
      (∃ a v, u = a ++ v ∧ P a ∧ R v) ↔ '/' ∉ u ∧ ∃ a v, u = a ++ v ∧ Q a ∧ S v := by
    intro P Q R S hP hR u
    simp only [hP, hR]
    constructor
    · rintro ⟨a, v, rfl, ⟨ha, hQ⟩, hv, hS⟩
      exact ⟨fun h => (List.mem_append.mp h).elim ha hv, a, v, rfl, hQ, hS⟩
    · rintro ⟨hu, a, v, rfl, hQ, hS⟩
      obtain ⟨ha, hv⟩ := not_or.mp (List.mem_append.not.mp hu)
      exact ⟨a, v, rfl, ⟨ha, hQ⟩, hv, hS⟩
  induction segment, u using WildcardSpells.induct with
  | case1 u =>
    rw [WildcardSpells, WildcardSpells]
    exact ⟨fun h => ⟨h ▸ List.not_mem_nil, h⟩, And.right⟩
  | case2 u =>
    rw [WildcardSpells, WildcardSpells]
    exact ⟨fun h => ⟨h ▸ List.not_mem_nil, h⟩, And.right⟩
  | case3 d rest u ih =>
    simp only [List.mem_cons, not_or] at hsegment
    rw [wildcardSpells_escape, wildcardSpells_escape]
    refine hsplit (fun a => ?_) (fun v => ih v hsegment.2.2) u
    exact ⟨fun h => ⟨h ▸ slash_not_mem_bytesOf (Ne.symm hsegment.2.1), h⟩, And.right⟩
  | case4 c rest u hend hescape ih =>
    obtain ⟨hc, hrest⟩ := not_or.mp (List.mem_cons.not.mp hsegment)
    rw [WildcardSpells, WildcardSpells]
    · exact hsplit (charSpells_separated (Ne.symm hc)) (fun v => ih v hrest) u
    all_goals assumption

/-! ## Paths -/

/-- Whether a path's text is spelled segment by segment. -/
def FitsBySegment (source t : Text) : Prop :=
  List.Forall₂ (fun segment piece => WildcardSpells true segment (byteText piece))
    (Text.splitOn '/' source) (Text.splitOn '/' t)

/-- Whether a path's text, cut at some of its slashes, is spelled stretch by stretch. -/
def FitsInStretches (source t : Text) : Prop :=
  ∃ stretches, t = Text.join "/" stretches ∧
    List.Forall₂ (fun segment stretch => WildcardSpells false segment (byteText stretch))
      (Text.splitOn '/' source) stretches

theorem byteText_join (ts : List Text) :
    byteText (Text.join "/" ts) = Text.join "/" (ts.map byteText) := by
  induction ts with
  | nil => rfl
  | cons t ts ih =>
    cases ts with
    | nil => rfl
    | cons s ts =>
      rw [Text.join_slash_cons (List.cons_ne_nil s ts), byteText_append, byteText_cons, ih,
        bytesOf_slash]
      exact (Text.join_slash_cons (List.cons_ne_nil _ _)).symm

/-- Bytes that are cut at slashes are cut into the bytes of texts. -/
theorem exists_join_of_byteText {us : List Text} (hne : us ≠ []) {t : Text}
    (h : byteText t = Text.join "/" us) : ∃ ts, t = Text.join "/" ts ∧ us = ts.map byteText := by
  induction us generalizing t with
  | nil => exact absurd rfl hne
  | cons u us ih =>
    cases us with
    | nil => exact ⟨[t], rfl, by rw [List.map_singleton, h]; rfl⟩
    | cons v us =>
      rw [Text.join_slash_cons (List.cons_ne_nil v us)] at h
      obtain ⟨front, back, rfl, rfl, hback⟩ := byteText_eq_append_slash h
      obtain ⟨ts, rfl, hts⟩ := ih (List.cons_ne_nil v us) hback
      refine ⟨front :: ts, (Text.join_slash_cons ?_).symm, by rw [hts, List.map_cons]⟩
      rintro rfl
      cases hts

theorem wildcardSpells_iff_fitsInStretches (source t : Text) :
    WildcardSpells false source (byteText t) ↔ FitsInStretches source t := by
  rw [wildcardSpells_iff_stretches]
  constructor
  · rintro ⟨us, hus, hall⟩
    have hne := ne_nil_of_forall₂_splitOn hall
    obtain ⟨ts, rfl, rfl⟩ := exists_join_of_byteText hne hus
    exact ⟨ts, rfl, List.forall₂_map_right_iff.mp hall⟩
  · rintro ⟨ts, rfl, hall⟩
    exact ⟨ts.map byteText, byteText_join ts, List.forall₂_map_right_iff.mpr hall⟩

theorem forall₂_separated {segments pieces : List Text} (hsegments : ∀ s ∈ segments, '/' ∉ s)
    (hpieces : ∀ t ∈ pieces, '/' ∉ t) :
    List.Forall₂ (fun s t => WildcardSpells true s (byteText t)) segments pieces ↔
      List.Forall₂ (fun s t => WildcardSpells false s (byteText t)) segments pieces := by
  induction segments generalizing pieces with
  | nil => rw [List.forall₂_nil_left_iff, List.forall₂_nil_left_iff]
  | cons s segments ih =>
    cases pieces with
    | nil => simp only [List.forall₂_nil_right_iff]
    | cons t pieces =>
      obtain ⟨hs, hsegments⟩ := List.forall_mem_cons.mp hsegments
      obtain ⟨ht, hpieces⟩ := List.forall_mem_cons.mp hpieces
      have hplain := slash_mem_byteText.not.mpr ht
      rw [List.forall₂_cons, List.forall₂_cons, ih hsegments hpieces,
        wildcardSpells_separated s _ hs]
      simp [hplain]

/-- A path fits segment by segment if it fits in as many stretches as it has segments. -/
theorem fitsBySegment_iff (source t : Text) :
    FitsBySegment source t ↔ FitsInStretches source t ∧
      (Text.splitOn '/' t).length = (Text.splitOn '/' source).length := by
  rw [FitsBySegment, forall₂_separated (fun _ => Text.not_mem_of_mem_splitOn)
    fun _ => Text.not_mem_of_mem_splitOn]
  constructor
  · exact fun h => ⟨⟨_, (Text.join_splitOn t).symm, h⟩, h.length_eq.symm⟩
  · rintro ⟨⟨ts, rfl, hall⟩, hlength⟩
    have hne := ne_nil_of_forall₂_splitOn hall
    rw [Text.eq_splitOn_of_length hne (hlength.trans hall.length_eq)]
    exact hall

/-- No path with fewer segments than the glob fits. -/
theorem FitsInStretches.length_le {source t : Text} (h : FitsInStretches source t) :
    (Text.splitOn '/' source).length ≤ (Text.splitOn '/' t).length := by
  obtain ⟨ts, rfl, hall⟩ := h
  have hne := ne_nil_of_forall₂_splitOn hall
  rw [hall.length_eq, Text.length_splitOn_join hne]
  exact Nat.le_add_right _ _

theorem slash_not_mem_of_forall₂ {segments us : List Text}
    (h : List.Forall₂ (WildcardSpells true) segments us) (hsegments : ∀ s ∈ segments, '/' ∉ s) :
    ∀ u ∈ us, '/' ∉ u := by
  induction h with
  | nil => simp
  | @cons s u segments us hspells _ ih =>
    obtain ⟨hs, hsegments⟩ := List.forall_mem_cons.mp hsegments
    exact List.forall_mem_cons.mpr
      ⟨((wildcardSpells_separated s u hs).mp hspells).1, ih hsegments⟩

/-- Wildcards that keep to segments spell a path segment by segment. -/
theorem wildcardSpells_iff_fitsBySegment (source t : Text) :
    WildcardSpells true source (byteText t) ↔ FitsBySegment source t := by
  rw [wildcardSpells_iff_stretches, FitsBySegment, ← List.forall₂_map_right_iff,
    ← Text.splitOn_byteText]
  constructor
  · rintro ⟨us, hus, hall⟩
    have hne := ne_nil_of_forall₂_splitOn hall
    have hplain := slash_not_mem_of_forall₂ hall fun _ => Text.not_mem_of_mem_splitOn
    rw [hus, Text.splitOn_join hne hplain]
    exact hall
  · exact fun hall => ⟨_, (Text.join_splitOn _).symm, hall⟩

/-- Wildcards that do not keep to segments spell a path segment by segment, or the path has
more segments than they. -/
theorem wildcardSpells_iff_fits (source t : Text) :
    WildcardSpells false source (byteText t) ↔ FitsBySegment source t ∨
      ((Text.splitOn '/' source).length < (Text.splitOn '/' t).length ∧
        FitsInStretches source t) := by
  rw [wildcardSpells_iff_fitsInStretches, fitsBySegment_iff]
  constructor
  · intro h
    by_cases hlength : (Text.splitOn '/' t).length = (Text.splitOn '/' source).length
    · exact .inl ⟨h, hlength⟩
    · exact .inr ⟨Nat.lt_of_le_of_ne h.length_le (Ne.symm hlength), h⟩
  · rintro (⟨h, -⟩ | ⟨-, h⟩)
    · exact h
    · exact h

end Glob
end TestTransform
