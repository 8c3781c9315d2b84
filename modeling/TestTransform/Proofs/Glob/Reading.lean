/-
What reading a glob makes of its text.

A character without a meaning of its own becomes itself.  What stands in front of a slash is
never changed by what follows the slash: a double star swallows the slash in front of it, but
stands for one too.  So a glob that begins with a plain directory matches only what lies
below that directory, whatever the rest of it says.
-/
import TestTransform.Config.Globs
import TestTransform.Proofs.Except
import TestTransform.Proofs.Glob.Meaning

namespace TestTransform
namespace Glob

/-- Whether a text spells a glob. -/
def Reads (separated : Bool) (source : Text) (g : Glob) : Prop :=
  ∃ tokens, tokens? source = some tokens ∧ ofTokens? separated tokens = some g

/-- All globs are read, or none is. -/
theorem readAll_eq_ok {separated : Bool} {sources : List Text} {globs : List Glob} :
    readAll separated sources = .ok globs ↔ List.Forall₂ (Reads separated) sources globs := by
  have hreads : List.Forall₂ (Reads separated) sources globs ↔
      ∃ spelled, List.Forall₂ (fun source tokens => tokens? source = some tokens) sources spelled ∧
        List.Forall₂ (fun tokens g => ofTokens? separated tokens = some g) spelled globs := by
    constructor
    · intro h
      induction h with
      | nil => exact ⟨[], .nil, .nil⟩
      | cons hread _ ih =>
        obtain ⟨tokens, htokens, hg⟩ := hread
        obtain ⟨spelled, hspelled, hglobs⟩ := ih
        exact ⟨tokens :: spelled, .cons htokens hspelled, .cons hg hglobs⟩
    · rintro ⟨spelled, hspelled, hglobs⟩
      induction hspelled generalizing globs with
      | nil =>
        cases hglobs
        exact .nil
      | cons htokens _ ih =>
        cases hglobs with
        | cons hg hglobs => exact .cons ⟨_, htokens, hg⟩ (ih hglobs)
  rw [hreads, readAll, Except.bind_eq_ok]
  refine exists_congr fun spelled => and_congr ?_ ?_
  · rw [Except.mapM_eq_ok]
    constructor
    · refine fun h => h.imp fun source tokens hok => ?_
      split at hok
      · rename_i hsome
        rw [hsome, Except.ok.inj hok]
      · cases hok
    · exact fun h => h.imp fun source tokens hsome => by rw [hsome]
  · rw [← Option.mapM_eq_some]
    cases spelled.mapM (ofTokens? separated) <;> simp

/-! ## Literal characters -/

/-- Whether a character means itself wherever no group is open. -/
def IsLiteral (c : Char) : Prop := c ∉ ['*', '?', '[', '{', '}', '\\']

instance (c : Char) : Decidable (IsLiteral c) := inferInstanceAs (Decidable (c ∉ _))

/-- Whether a character means itself wherever it is not refused. -/
def IsPlain (c : Char) : Prop := c ∉ ['*', '?', '[', '{', '\\']

theorem IsPlain.isLiteral {c : Char} (h : IsPlain c) (hclose : c ≠ '}') : IsLiteral c := by
  simp only [IsPlain, IsLiteral, List.mem_cons, List.not_mem_nil, or_false, not_or] at h ⊢
  exact ⟨h.1, h.2.1, h.2.2.1, h.2.2.2.1, hclose, h.2.2.2.2⟩

def literals (t : Text) : List Token := t.map .literal

namespace Reader

/-- Takes characters as they are. -/
def pushText (r : Reader) (t : Text) : Reader :=
  t.foldl (fun r c => { r.push (.literal c) with previous := some c }) r

theorem tokens_pushText (r : Reader) (t : Text) :
    (r.pushText t).tokens = (literals t).reverse ++ r.tokens := by
  induction t generalizing r with
  | nil => rfl
  | cons c t ih =>
    rw [pushText, List.foldl_cons, ← pushText, ih]
    simp [literals, push]

theorem groups_pushText (r : Reader) (t : Text) : (r.pushText t).groups = r.groups := by
  induction t generalizing r with
  | nil => rfl
  | cons c t ih => exact ih _

end Reader

attribute [local simp] read? in
theorem read?_literal {c : Char} (h : IsLiteral c) {r : Reader} (hgroups : r.groups = [])
    (fuel : Nat) (rest : Text) :
    read? (fuel + 1) r (c :: rest) =
      read? fuel { r.push (.literal c) with previous := some c } rest := by
  simp only [IsLiteral, List.mem_cons, List.not_mem_nil, or_false, not_or] at h
  obtain ⟨hstar, hany, hclass, hopen, hclose, hescape⟩ := h
  by_cases hcomma : c = ','
  · subst hcomma
    simp [Reader.comma, hgroups]
  · rw [read?] <;> assumption

theorem read?_literals {t : Text} (h : ∀ c ∈ t, IsLiteral c) {r : Reader}
    (hgroups : r.groups = []) (fuel : Nat) (rest : Text) :
    read? (t.length + fuel) r (t ++ rest) = read? fuel (r.pushText t) rest := by
  induction t generalizing r with
  | nil => rw [List.length_nil, Nat.zero_add]; rfl
  | cons c t ih =>
    obtain ⟨hc, ht⟩ := List.forall_mem_cons.mp h
    rw [List.length_cons, Nat.add_right_comm, List.cons_append, read?_literal hc hgroups]
    exact ih ht hgroups

/-- A closing brace without an open group is refused. -/
theorem isLiteral_of_read? {t : Text} (h : ∀ c ∈ t, IsPlain c) {r r' : Reader}
    (hgroups : r.groups = []) {fuel : Nat} {rest : Text}
    (hread : read? fuel r (t ++ rest) = some r') : ∀ c ∈ t, IsLiteral c := by
  induction t generalizing r fuel with
  | nil => simp
  | cons c t ih =>
    obtain ⟨hc, ht⟩ := List.forall_mem_cons.mp h
    cases fuel with
    | zero => simp [read?] at hread
    | succ fuel =>
      by_cases hclose : c = '}'
      · subst hclose
        rw [List.cons_append, read?, Reader.close?, hgroups] at hread
        cases hread
      · have hliteral := hc.isLiteral hclose
        rw [List.cons_append, read?_literal hliteral hgroups] at hread
        exact List.forall_mem_cons.mpr
          ⟨hliteral, ih ht (r := { r.push (.literal c) with previous := some c }) hgroups hread⟩

theorem tokens?_literals {t : Text} (h : ∀ c ∈ t, IsLiteral c) :
    tokens? t = some (literals t) := by
  have hread := read?_literals h (r := {}) rfl 0 []
  rw [Nat.add_zero, List.append_nil] at hread
  rw [tokens?, hread, read?]
  simp [Reader.groups_pushText, Reader.tokens_pushText]

/-! ## What stands in front of a slash -/

/-- Whether a token stands for texts that begin with a slash. -/
def Token.IsSlash : Token → Prop
  | .literal c => c = '/'
  | .recursiveSuffix => True
  | .recursiveZeroOrMore => True
  | _ => False

theorem Token.IsSlash.spells {t : Token} (h : t.IsSlash) {separated : Bool} {u : Text}
    (hu : t.Spells separated u) : ∃ v, u = '/' :: v := by
  cases t with
  | literal c =>
    obtain rfl : c = '/' := h
    rw [Token.Spells, bytesOf_slash] at hu
    exact ⟨[], hu⟩
  | recursiveSuffix =>
    rw [Token.Spells] at hu
    exact hu
  | recursiveZeroOrMore =>
    rw [Token.Spells] at hu
    obtain rfl | ⟨v, rfl⟩ := hu
    · exact ⟨[], rfl⟩
    · exact ⟨v ++ ['/'], rfl⟩
  | _ => exact h.elim

/-- Whether tokens, the last one first, are a plain text, a slash and anything more. -/
def IsBehind (lead : Text) (tokens : List Token) : Prop :=
  ∃ more slash, Token.IsSlash slash ∧ tokens = more ++ slash :: (literals lead).reverse

variable {lead : Text} {tokens : List Token}

theorem IsBehind.cons (h : IsBehind lead tokens) (t : Token) : IsBehind lead (t :: tokens) := by
  obtain ⟨more, slash, hslash, rfl⟩ := h
  exact ⟨t :: more, slash, hslash, rfl⟩

/-- The slash itself may be exchanged for another. -/
theorem IsBehind.exchange {last t : Token} (h : IsBehind lead (last :: tokens))
    (ht : t.IsSlash) : IsBehind lead (t :: tokens) := by
  obtain ⟨more, slash, hslash, heq⟩ := h
  cases more with
  | nil =>
    obtain ⟨-, rfl⟩ := List.cons.inj heq
    exact ⟨[], t, ht, rfl⟩
  | cons d more =>
    obtain ⟨-, rfl⟩ := List.cons.inj heq
    exact ⟨t :: more, slash, hslash, rfl⟩

namespace Reader

/-- The tokens outside of all groups, the last one first. -/
def outer (r : Reader) : List Token :=
  match r.groups.getLast? with
  | none => r.tokens
  | some g => g.before

/-- Whether a plain text and a slash have been read outside of all groups. -/
def IsBehind (lead : Text) (r : Reader) : Prop := Glob.IsBehind lead r.outer

variable {r r' : Reader}

theorem outer_of_nil (h : r.groups = []) : r.outer = r.tokens := by rw [outer, h]; rfl

/-- In a group, nothing outside is changed. -/
theorem outer_eq_of_groups (hgroups : r'.groups = r.groups) (hne : r.groups ≠ []) :
    r'.outer = r.outer := by
  obtain ⟨g, hg⟩ := Option.isSome_iff_exists.mp (List.getLast?_isSome.mpr hne)
  rw [outer, outer, hgroups, hg]

/-- It is enough to look at the tokens where no group is open. -/
theorem IsBehind.of_tokens (h : r.IsBehind lead) (hgroups : r'.groups = r.groups)
    (htokens : Glob.IsBehind lead r.tokens → Glob.IsBehind lead r'.tokens) :
    r'.IsBehind lead := by
  by_cases hnil : r.groups = []
  · rw [IsBehind, outer_of_nil (hgroups.trans hnil)]
    rw [IsBehind, outer_of_nil hnil] at h
    exact htokens h
  · rw [IsBehind, outer_eq_of_groups hgroups hnil]
    exact h

theorem IsBehind.push (h : r.IsBehind lead) (t : Token) : (r.push t).IsBehind lead :=
  h.of_tokens rfl fun h => h.cons t

theorem IsBehind.openGroup (h : r.IsBehind lead) : r.openGroup.IsBehind lead := by
  rw [IsBehind, outer] at h ⊢
  rw [Reader.openGroup]
  cases hgroups : r.groups with
  | nil =>
    rw [hgroups] at h
    exact h
  | cons g groups =>
    rw [hgroups] at h
    rw [List.getLast?_cons_cons]
    exact h

theorem IsBehind.close? (h : r.IsBehind lead) (hclose : r.close? = some r') :
    r'.IsBehind lead := by
  rw [IsBehind, outer] at h ⊢
  cases hgroups : r.groups with
  | nil =>
    rw [Reader.close?, hgroups] at hclose
    cases hclose
  | cons g groups =>
    rw [Reader.close?, hgroups] at hclose
    obtain rfl := Option.some.inj hclose
    rw [hgroups] at h
    cases groups with
    | nil => exact Glob.IsBehind.cons h _
    | cons g' groups =>
      rw [List.getLast?_cons_cons] at h
      exact h

theorem IsBehind.comma (h : r.IsBehind lead) : r.comma.IsBehind lead := by
  cases hgroups : r.groups with
  | nil =>
    rw [Reader.comma, hgroups]
    exact h.push _
  | cons g groups =>
    rw [IsBehind, outer, hgroups] at h
    rw [Reader.comma, hgroups, IsBehind, outer]
    cases groups with
    | nil => exact h
    | cons g' groups =>
      rw [List.getLast?_cons_cons] at h ⊢
      exact h

/-- What a double star can do: it is two stars, or it begins the tokens, or it takes the place
of the token in front of it or is swallowed by that. -/
theorem doubleStar_cases (r : Reader) (rest : Text) :
    (doubleStar r rest).1 = (r.push .zeroOrMore).push .zeroOrMore ∨
      (r.tokens = [] ∧ (doubleStar r rest).1 = r.push .recursivePrefix) ∨
      (doubleStar r rest).1 = r ∨
      ∃ last before t, r.tokens = last :: before ∧ Token.IsSlash t ∧
        (doubleStar r rest).1 = { r with tokens := t :: before } := by
  unfold doubleStar
  dsimp only
  split
  · rename_i hnil
    split
    · exact .inr (.inl ⟨hnil, rfl⟩)
    · exact .inr (.inl ⟨hnil, rfl⟩)
    · exact .inl rfl
  · rename_i last before htokens
    split
    · exact .inl rfl
    · have hexchange : ∀ t, Token.IsSlash t → ∀ r' : Reader,
          r' = r ∨ r' = { r with tokens := t :: before } →
          r' = r ∨ ∃ last before t, r.tokens = last :: before ∧ Token.IsSlash t ∧
            r' = { r with tokens := t :: before } :=
        fun t ht r' h => h.imp_right fun heq => ⟨last, before, t, htokens, ht, heq⟩
      -- a double star that is in its place changes the last token or nothing
      split
      · refine .inr (.inr (hexchange .recursiveSuffix trivial _ ?_))
        cases last <;> first | exact .inl rfl | exact .inr rfl
      · refine .inr (.inr (hexchange .recursiveZeroOrMore trivial _ ?_))
        cases last <;> first | exact .inl rfl | exact .inr rfl
      · split
        · refine .inr (.inr (hexchange .recursiveSuffix trivial _ ?_))
          cases last <;> first | exact .inl rfl | exact .inr rfl
        · exact .inl rfl

theorem IsBehind.doubleStar (h : r.IsBehind lead) (rest : Text) :
    (doubleStar r rest).1.IsBehind lead := by
  obtain heq | ⟨-, heq⟩ | heq | ⟨last, before, t, htokens, ht, heq⟩ := doubleStar_cases r rest
  · rw [heq]
    exact (h.push _).push _
  · rw [heq]
    exact h.push _
  · rw [heq]
    exact h
  · rw [heq]
    refine h.of_tokens rfl fun h => ?_
    rw [htokens] at h
    exact h.exchange ht

/-- Which character was read last does not matter. -/
theorem IsBehind.remember (h : r.IsBehind lead) (previous : Option Char) :
    ({ r with previous } : Reader).IsBehind lead := h

/-- Nothing that is read changes what stands in front of the slash. -/
theorem IsBehind.read? {fuel : Nat} {t : Text} (h : r.IsBehind lead)
    (hread : Glob.read? fuel r t = some r') : r'.IsBehind lead := by
  fun_induction Glob.read? fuel r t with
  | case1 => exact Option.some.inj hread ▸ h
  | case2 => cases hread
  | case3 _ _ _ _ ih => exact ih (h.push _) hread
  | case4 _ r rest r₁ used hstar _ ih =>
    have hbehind := h.doubleStar rest
    rw [hstar] at hbehind
    exact ih hbehind hread
  | case5 _ _ _ _ _ ih => exact ih (h.push _) hread
  | case6 _ _ _ _ _ _ ih => exact ih (h.push _) hread
  | case7 => cases hread
  | case8 _ _ _ _ ih => exact ih h.openGroup hread
  | case9 _ _ _ _ hclose _ ih =>
    have hbehind := h.close? hclose
    exact ih hbehind hread
  | case10 => cases hread
  | case11 _ _ _ _ ih => exact ih h.comma hread
  | case12 => cases hread
  | case13 _ _ _ _ ih => exact ih (h.push _) hread
  | case14 _ _ _ _ _ _ _ _ _ _ _ _ ih => exact ih (h.push _) hread

end Reader

theorem tokens?_eq_some_iff {t : Text} {tokens : List Token} :
    tokens? t = some tokens ↔
      ∃ r, read? t.length {} t = some r ∧ r.groups = [] ∧ r.tokens.reverse = tokens := by
  rw [tokens?]
  cases read? t.length {} t with
  | none => simp
  | some r => simp [List.isEmpty_iff]

/-- What is read of a plain text and a slash stays in front of everything else. -/
theorem tokens?_behind {lead rest : Text} (hlead : ∀ c ∈ lead, IsPlain c)
    (h : tokens? (lead ++ '/' :: rest) = some tokens) :
    ∃ slash more, Token.IsSlash slash ∧ tokens = literals lead ++ slash :: more := by
  obtain ⟨r, hread, hgroups, rfl⟩ := tokens?_eq_some_iff.mp h
  have hliteral := isLiteral_of_read? hlead rfl hread
  rw [List.length_append, read?_literals hliteral rfl, List.length_cons,
    read?_literal (by decide) (Reader.groups_pushText {} lead)] at hread
  have hbehind : (({} : Reader).pushText lead).push (.literal '/') |>.IsBehind lead := by
    have hnil : ((({} : Reader).pushText lead).push (.literal '/')).groups = [] :=
      Reader.groups_pushText {} lead
    rw [Reader.IsBehind, Reader.outer_of_nil hnil, Reader.push, Reader.tokens_pushText,
      List.append_nil]
    exact ⟨[], .literal '/', rfl, rfl⟩
  have hend := (hbehind.remember (some '/')).read? hread
  rw [Reader.IsBehind, Reader.outer_of_nil hgroups] at hend
  obtain ⟨more, slash, hslash, heq⟩ := hend
  refine ⟨slash, more.reverse, hslash, ?_⟩
  rw [heq, List.reverse_append, List.reverse_cons, List.reverse_reverse, List.append_assoc]
  rfl

/-! ## What is matched -/

theorem spellsAll_literals {separated : Bool} (t : Text) (ts : List Token) (u : Text) :
    SpellsAll separated (literals t ++ ts) u ↔
      ∃ v, u = byteText t ++ v ∧ SpellsAll separated ts v := by
  induction t generalizing u with
  | nil => exact ⟨fun h => ⟨u, rfl, h⟩, fun ⟨v, hu, h⟩ => (show u = v from hu) ▸ h⟩
  | cons c t ih =>
    rw [literals, List.map_cons, List.cons_append, ← literals]
    simp only [SpellsAll, Token.Spells, ih, byteText_cons]
    constructor
    · rintro ⟨_, _, rfl, rfl, v, rfl, h⟩
      exact ⟨v, (List.append_assoc _ _ _).symm, h⟩
    · rintro ⟨v, rfl, h⟩
      exact ⟨bytesOf c, byteText t ++ v, List.append_assoc _ _ _, rfl, v, rfl, h⟩

theorem spellsAll_of_isMatch {separated : Bool} {tokens : List Token} {g : Glob}
    (hg : ofTokens? separated tokens = some g) (hne : tokens ≠ [.recursivePrefix]) {t : Text}
    (hmatch : g.isMatch t = true) : SpellsAll separated tokens (byteText t) :=
  (spellsWhole_iff hne _).mp ((isMatch_iff hg t).mp hmatch).2

theorem literals_append_ne (t : Text) {slash : Token} (hslash : slash.IsSlash)
    (more : List Token) : literals t ++ slash :: more ≠ [.recursivePrefix] := by
  cases t with
  | nil =>
    intro h
    obtain ⟨rfl, -⟩ := List.cons.inj h
    exact hslash
  | cons c t => exact fun h => Token.noConfusion (List.cons.inj h).1

/-- A glob that begins with a plain text and a slash matches only what begins with them. -/
theorem Reads.below {separated : Bool} {lead rest : Text} {g : Glob}
    (hread : Reads separated (lead ++ '/' :: rest) g)
    (hlead : ∀ c ∈ lead, IsPlain c) {t : Text}
    (hmatch : g.isMatch t = true) : ∃ v, t = lead ++ '/' :: v := by
  obtain ⟨tokens, htokens, hg⟩ := hread
  obtain ⟨slash, more, hslash, rfl⟩ := tokens?_behind hlead htokens
  have hspells := spellsAll_of_isMatch hg (literals_append_ne lead hslash more) hmatch
  obtain ⟨_, hu, a, v, rfl, hslashSpells, -⟩ := (spellsAll_literals lead _ _).mp hspells
  obtain ⟨w, rfl⟩ := hslash.spells hslashSpells
  obtain ⟨front, back, rfl, hfront, -⟩ := byteText_eq_append_slash hu
  exact ⟨back, by rw [byteText_injective hfront]⟩

/-- A glob without any notation matches its own text alone. -/
theorem Reads.plain {separated : Bool} {source : Text} {g : Glob}
    (hread : Reads separated source g)
    (hplain : ∀ c ∈ source, IsPlain c) {t : Text}
    (hmatch : g.isMatch t = true) : t = source := by
  obtain ⟨tokens, htokens, hg⟩ := hread
  obtain ⟨r, hr, -, -⟩ := tokens?_eq_some_iff.mp htokens
  have hliteral : ∀ c ∈ source, IsLiteral c := by
    have hread : read? source.length {} (source ++ []) = some r := by rwa [List.append_nil]
    exact isLiteral_of_read? hplain rfl hread
  rw [tokens?_literals hliteral] at htokens
  obtain rfl := Option.some.inj htokens
  have hne : literals source ≠ [.recursivePrefix] := by
    cases source with
    | nil => exact fun h => List.cons_ne_nil _ _ h.symm
    | cons c source => exact fun h => Token.noConfusion (List.cons.inj h).1
  have hspells := spellsAll_of_isMatch hg hne hmatch
  rw [← List.append_nil (literals source), spellsAll_literals] at hspells
  obtain ⟨v, hu, hv⟩ := hspells
  rw [show v = [] from hv, List.append_nil] at hu
  exact byteText_injective hu

/-! ## Everything below a directory -/

theorem tokens?_everything {dir : Text} (h : ∀ c ∈ dir, IsLiteral c) :
    tokens? (dir ++ "/**/*".toList) =
      some (literals dir ++ [.recursiveZeroOrMore, .zeroOrMore]) := by
  have hread : read? (dir ++ "/**/*".toList).length {} (dir ++ "/**/*".toList) =
      read? 5 (({} : Reader).pushText dir) "/**/*".toList := by
    rw [List.length_append]
    exact read?_literals h rfl 5 _
  have hgroups := Reader.groups_pushText {} dir
  have htokens := Reader.tokens_pushText {} dir
  generalize ({} : Reader).pushText dir = r at hread hgroups htokens
  have hend : read? 5 r "/**/*".toList =
      some ⟨.zeroOrMore :: .recursiveZeroOrMore :: r.tokens, [], some '*'⟩ := by
    obtain ⟨tokens, groups, previous⟩ := r
    obtain rfl : groups = [] := hgroups
    rfl
  refine tokens?_eq_some_iff.mpr ⟨_, hread.trans hend, rfl, ?_⟩
  rw [htokens]
  simp

theorem depthOfTerms_append (ts us : List Pattern.Term) :
    Pattern.depthOfTerms (ts ++ us) = max (Pattern.depthOfTerms ts) (Pattern.depthOfTerms us) := by
  induction ts with
  | nil => simp [Pattern.depthOfTerms]
  | cons t ts ih =>
    rw [List.cons_append, Pattern.depthOfTerms, Pattern.depthOfTerms, ih, Nat.max_assoc]

theorem depthOfTerms_literals (separated : Bool) (t : Text) (ts : List Token) :
    Pattern.depthOfTerms (tokenTerms separated (literals t ++ ts)) =
      Pattern.depthOfTerms (tokenTerms separated ts) := by
  have hletters : ∀ u : Text, Pattern.depthOfTerms (u.map letter) = 0 := by
    intro u
    induction u with
    | nil => rfl
    | cons c u ih => rw [List.map_cons, Pattern.depthOfTerms, ih]; rfl
  induction t with
  | nil => rfl
  | cons c t ih =>
    rw [literals, List.map_cons, List.cons_append, ← literals, tokenTerms, Token.terms,
      depthOfTerms_append, hletters, ih, Nat.zero_max]

/-- The glob for everything below a directory can be read, and it matches just that. -/
theorem exists_everything {dir : Text} (h : ∀ c ∈ dir, IsLiteral c) :
    ∃ g, Reads false (dir ++ "/**/*".toList) g ∧
      ∀ t, g.isMatch t = true ↔ ∃ v, t = dir ++ '/' :: v := by
  have htokens := tokens?_everything h
  have hslash : Token.IsSlash .recursiveZeroOrMore := trivial
  have hne := literals_append_ne dir hslash [.zeroOrMore]
  obtain ⟨g, hg⟩ : ∃ g, ofTokens? false (literals dir ++ [.recursiveZeroOrMore, .zeroOrMore]) =
      some g := by
    refine exists_ofTokens? ?_
    rw [wholeTerm_eq_of_ne false hne]
    simp only [Pattern.Term.depth, Pattern.depthOfTerms, depthOfTerms_append, depthOfTerms_literals]
    decide
  have hnameless : admitsNameless false
      (literals dir ++ [.recursiveZeroOrMore, .zeroOrMore]) = true := by
    simp [admitsNameless]
  refine ⟨g, ⟨_, htokens, hg⟩, fun t => ?_⟩
  rw [isMatch_iff hg, hnameless, spellsWhole_iff hne, spellsAll_literals]
  simp only [SpellsAll, Token.Spells, Bool.false_eq_true, false_implies, true_or, true_and]
  constructor
  · rintro ⟨v, hv, slash, rest, rfl, hslash, -⟩
    obtain ⟨w, rfl⟩ : ∃ w, slash = '/' :: w := by
      obtain rfl | ⟨w, rfl⟩ := hslash
      · exact ⟨[], rfl⟩
      · exact ⟨w ++ ['/'], rfl⟩
    obtain ⟨front, back, rfl, hfront, -⟩ := byteText_eq_append_slash hv
    exact ⟨back, by rw [byteText_injective hfront]⟩
  · rintro ⟨v, rfl⟩
    refine ⟨'/' :: byteText v, ?_, ['/'], byteText v, rfl, .inl rfl, byteText v, [], ?_⟩
    · rw [byteText_append, byteText_cons, bytesOf_slash]
      rfl
    · simp

end Glob
end TestTransform
