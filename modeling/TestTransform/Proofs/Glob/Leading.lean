/-
A plain directory in front of a glob.

A glob is read alone and behind a directory and a slash.  The same tokens come out, with those of
the directory in front, unless the glob begins with a double star: that begins a text in the
one case and stands behind a slash in the other.  Either way the glob matches a text if and
only if, behind the directory, it matches the text behind the directory.
-/
import TestTransform.Proofs.Glob.Reading

namespace TestTransform
namespace Glob

variable {lead : Text}

/-! ## Tokens without and with the directory -/

/-- Tokens of a glob, the last one first, and the same with a directory and a slash in front.  A
double star at the beginning takes the slash in. -/
def Led (lead : Text) (ts ts' : List Token) : Prop :=
  (.recursivePrefix ∉ ts ∧ ts' = ts ++ .literal '/' :: (literals lead).reverse) ∨
    ∃ more, ts = more ++ [.recursivePrefix] ∧
      ts' = more ++ .recursiveZeroOrMore :: (literals lead).reverse

variable {ts ts' : List Token}

theorem Led.push (h : Led lead ts ts') {t : Token} (ht : t ≠ .recursivePrefix) :
    Led lead (t :: ts) (t :: ts') := by
  obtain ⟨hnot, rfl⟩ | ⟨more, rfl, rfl⟩ := h
  · exact .inl ⟨List.mem_cons.not.mpr (not_or.mpr ⟨ht.symm, hnot⟩), rfl⟩
  · exact .inr ⟨t :: more, rfl, rfl⟩

theorem led_nil_iff : Led lead [] ts' ↔ ts' = .literal '/' :: (literals lead).reverse := by
  constructor
  · rintro (⟨-, rfl⟩ | ⟨more, hnil, -⟩)
    · rfl
    · exact absurd hnil.symm (List.concat_ne_nil _ _)
  · rintro rfl
    exact .inl ⟨List.not_mem_nil, rfl⟩

theorem class?_ne_recursivePrefix {t rest : Text} {token : Token}
    (h : class? t = some (token, rest)) : token ≠ .recursivePrefix := by
  simp only [class?, Option.map_eq_some_iff, Prod.mk.injEq] at h
  obtain ⟨_, -, rfl, -⟩ := h
  exact Token.noConfusion

theorem isEmpty_concat {α : Type} (xs : List α) (x : α) : (xs ++ [x]).isEmpty = false :=
  List.isEmpty_eq_false_iff.mpr (List.concat_ne_nil x xs)

namespace Reader

/-- A reader of a glob, and one that has read a directory and a slash before. -/
inductive Led (lead : Text) : Reader → Reader → Prop
  /-- Outside of groups the slash is what was read last, at the beginning of the glob. -/
  | outside {ts ts' : List Token} {previous previous' : Option Char} (tokens : Glob.Led lead ts ts')
      (begins : ts = [] → previous' = some '/') (goes : ts ≠ [] → previous' = previous)
      (spans : ts = [.recursivePrefix] → previous = some '/') :
      Led lead ⟨ts, [], previous⟩ ⟨ts', [], previous'⟩
  /-- Only what stands in front of the outermost group is not the same. -/
  | inside {ts before before' : List Token} {branches : List (List Token)}
      {groups : List OpenGroup} {previous : Option Char} (outer : Glob.Led lead before before') :
      Led lead ⟨ts, groups ++ [⟨branches, before⟩], previous⟩
        ⟨ts, groups ++ [⟨branches, before'⟩], previous⟩

variable {r r' : Reader}

theorem Led.push (h : r.Led lead r') {t : Token} (ht : t ≠ .recursivePrefix)
    (previous : Option Char) :
    Led lead { r.push t with previous } { r'.push t with previous } := by
  cases h with
  | outside tokens =>
    refine .outside (tokens.push ht) (fun hnil => by cases hnil) (fun _ => rfl) fun heq => ?_
    exact absurd (List.cons.inj heq).1 ht
  | inside outer => exact .inside outer

theorem Led.openGroup (h : r.Led lead r') (previous : Option Char) :
    Led lead { r.openGroup with previous } { r'.openGroup with previous } := by
  cases h with
  | outside tokens => exact @Led.inside _ _ _ _ _ [] _ tokens
  | inside outer => exact @Led.inside _ _ _ _ _ (_ :: _) _ outer

theorem Led.comma (h : r.Led lead r') (previous : Option Char) :
    Led lead { r.comma with previous } { r'.comma with previous } := by
  cases h with
  | outside tokens begins goes spans =>
    exact (Led.outside tokens begins goes spans).push Token.noConfusion previous
  | @inside ts before before' branches groups previous outer =>
    cases groups with
    | nil => exact @Led.inside _ _ _ _ _ [] _ outer
    | cons g groups => exact @Led.inside _ _ _ _ _ (_ :: groups) _ outer

/-- A group is closed in both, or there is none to close. -/
theorem Led.close? (h : r.Led lead r') :
    (r.close? = none ∧ r'.close? = none) ∨
      ∃ s s', r.close? = some s ∧ r'.close? = some s' ∧
        ∀ previous, Led lead { s with previous } { s' with previous } := by
  cases h with
  | outside => exact .inl ⟨rfl, rfl⟩
  | @inside ts before before' branches groups previous outer =>
    refine .inr ?_
    cases groups with
    | nil =>
      refine ⟨_, _, rfl, rfl, fun previous => ?_⟩
      refine .outside (outer.push Token.noConfusion) (fun hnil => by cases hnil) (fun _ => rfl) ?_
      exact fun heq => Token.noConfusion (List.cons.inj heq).1
    | cons g groups => exact ⟨_, _, rfl, rfl, fun previous => .inside outer⟩

/-! ## Double stars -/

theorem groups_doubleStar (r : Reader) (rest : Text) :
    (doubleStar r rest).1.groups = r.groups := by
  obtain heq | ⟨-, heq⟩ | heq | ⟨_, _, _, -, -, heq⟩ := doubleStar_cases r rest <;> rw [heq] <;> rfl

/-- In a group it does not matter what stands around it. -/
theorem doubleStar_groups (r : Reader) {groups : List OpenGroup}
    (h : groups.isEmpty = r.groups.isEmpty) (rest : Text) :
    doubleStar { r with groups } rest =
      ({ (doubleStar r rest).1 with groups }, (doubleStar r rest).2) := by
  obtain ⟨ts, _, previous⟩ := r
  cases ts with
  | nil =>
    match rest with
    | [] => rfl
    | c :: rest =>
      unfold doubleStar
      dsimp only
      split <;> rfl
  | cons last before =>
    unfold doubleStar
    dsimp only at h ⊢
    rw [h]
    split
    · rfl
    · split
      · cases last <;> rfl
      · cases last <;> rfl
      · split
        · cases last <;> rfl
        · rfl

/-- The character that counts as read last behind a double star. -/
def behindStars (used : Nat) : Option Char := some (if used == 0 then '*' else '/')

theorem doubleStar_inside {before before' : List Token} (outer : Glob.Led lead before before')
    (ts : List Token) (branches : List (List Token)) (groups : List OpenGroup)
    (previous : Option Char) (rest : Text) :
    ∃ used s s', doubleStar ⟨ts, groups ++ [⟨branches, before⟩], previous⟩ rest = (s, used) ∧
      doubleStar ⟨ts, groups ++ [⟨branches, before'⟩], previous⟩ rest = (s', used) ∧
      Led lead { s with previous := behindStars used } { s' with previous := behindStars used } := by
  have hsame := doubleStar_groups ⟨ts, groups ++ [⟨branches, before⟩], previous⟩
    ((isEmpty_concat groups ⟨branches, before'⟩).trans (isEmpty_concat _ _).symm) rest
  have hgroups := groups_doubleStar ⟨ts, groups ++ [⟨branches, before⟩], previous⟩ rest
  cases hstar : doubleStar ⟨ts, groups ++ [⟨branches, before⟩], previous⟩ rest with
  | mk s used =>
    rw [hstar] at hsame hgroups
    refine ⟨used, s, _, rfl, hsame, ?_⟩
    obtain ⟨ts₁, _, _⟩ := s
    obtain rfl : _ = groups ++ [_] := hgroups
    exact .inside outer

/-- A double star at the beginning of a glob goes from the beginning of the text or from the
slash. -/
theorem doubleStar_begin (lead : Text) (previous : Option Char) (c : Char) (rest : Text) :
    ∃ used s s', doubleStar ⟨[], [], previous⟩ (c :: rest) = (s, used) ∧
      doubleStar ⟨.literal '/' :: (literals lead).reverse, [], some '/'⟩ (c :: rest) = (s', used) ∧
      Led lead { s with previous := behindStars used } { s' with previous := behindStars used } := by
  by_cases hc : c = '/'
  · subst hc
    refine ⟨1, _, _, rfl, rfl, ?_⟩
    exact .outside (.inr ⟨[], rfl, rfl⟩) (fun hnil => by cases hnil) (fun _ => rfl) fun _ => rfl
  · refine ⟨0, ((⟨[], [], previous⟩ : Reader).push .zeroOrMore).push .zeroOrMore,
      ((⟨.literal '/' :: (literals lead).reverse, [], some '/'⟩ : Reader).push
        .zeroOrMore).push .zeroOrMore, ?_, ?_, ?_⟩
    · unfold doubleStar
      simp [hc]
    · unfold doubleStar
      simp
    · have htokens : Glob.Led lead [] _ := led_nil_iff.mpr rfl
      refine .outside ((htokens.push Token.noConfusion).push Token.noConfusion)
        (fun hnil => by cases hnil) (fun _ => rfl) fun heq => ?_
      exact Token.noConfusion (List.cons.inj heq).1

/-- What a double star in its place makes of the token in front of it. -/
def spanned (t : Token) : Token → Token
  | .recursivePrefix => .recursivePrefix
  | .recursiveSuffix => .recursiveSuffix
  | _ => t

theorem doubleStar_between (last : Token) (before : List Token) (rest : Text) :
    doubleStar ⟨last :: before, [], some '/'⟩ ('/' :: rest) =
      (⟨spanned .recursiveZeroOrMore last :: before, [], some '/'⟩, 1) := by
  cases last <;> rfl

theorem doubleStar_last (last : Token) (before : List Token) :
    doubleStar ⟨last :: before, [], some '/'⟩ [] =
      (⟨spanned .recursiveSuffix last :: before, [], some '/'⟩, 0) := by
  cases last <;> rfl

/-- Where it has no place, a double star is two stars. -/
theorem doubleStar_plain (last : Token) (before : List Token) {previous : Option Char} {rest : Text}
    (h : previous ≠ some '/' ∨ ∃ c more, rest = c :: more ∧ c ≠ '/') :
    doubleStar ⟨last :: before, [], previous⟩ rest =
      (⟨.zeroOrMore :: .zeroOrMore :: last :: before, [], previous⟩, 0) := by
  unfold doubleStar
  by_cases hprevious : previous = some '/'
  · obtain ⟨c, more, rfl, hc⟩ := h.resolve_left (not_not.mpr hprevious)
    subst hprevious
    simp [Reader.push]
  · simp [hprevious, Reader.push]

/-- Behind the beginning of a glob the token in front of a double star is the same, or both stand
for the beginning. -/
theorem Led.exchange {last : Token} {before ts' : List Token} (h : Glob.Led lead (last :: before) ts')
    {t : Token} (ht : t ≠ .recursivePrefix) :
    ∃ last' before', ts' = last' :: before' ∧
      ((Glob.Led lead (spanned t last :: before) (spanned t last' :: before') ∧
          spanned t last :: before ≠ [.recursivePrefix]) ∨
        (last = .recursivePrefix ∧ before = [] ∧ last' = .recursiveZeroOrMore ∧
          before' = (literals lead).reverse)) := by
  obtain ⟨hnot, rfl⟩ | ⟨more, hmore, rfl⟩ := h
  · have hlast : spanned t last ≠ .recursivePrefix := by
      cases last <;> first | exact ht | exact Token.noConfusion | skip
      exact absurd List.mem_cons_self hnot
    refine ⟨last, _, rfl, .inl ⟨.inl ⟨?_, rfl⟩, fun heq => hlast (List.cons.inj heq).1⟩⟩
    exact List.mem_cons.not.mpr
      (not_or.mpr ⟨hlast.symm, fun hmem => hnot (List.mem_cons_of_mem last hmem)⟩)
  · cases more with
    | nil =>
      obtain ⟨rfl, rfl⟩ := List.cons.inj hmore
      exact ⟨_, _, rfl, .inr ⟨rfl, rfl, rfl, rfl⟩⟩
    | cons d more =>
      obtain ⟨rfl, rfl⟩ := List.cons.inj hmore
      refine ⟨last, _, rfl, .inl ⟨.inr ⟨spanned t last :: more, rfl, rfl⟩, fun heq => ?_⟩⟩
      exact List.concat_ne_nil _ _ (List.cons.inj heq).2

/-- A double star that is not at the end goes the same way in both. -/
theorem Led.doubleStar (h : r.Led lead r') (c : Char) (rest : Text) :
    ∃ used s s', Glob.doubleStar r (c :: rest) = (s, used) ∧
      Glob.doubleStar r' (c :: rest) = (s', used) ∧
      Led lead { s with previous := behindStars used } { s' with previous := behindStars used } := by
  cases h with
  | @outside ts ts' previous previous' tokens begins goes spans =>
    cases ts with
    | nil =>
      obtain rfl := led_nil_iff.mp tokens
      obtain rfl := begins rfl
      exact doubleStar_begin lead previous c rest
    | cons last before =>
      obtain rfl := goes (List.cons_ne_nil _ _)
      by_cases hplace : previous' = some '/' ∧ c = '/'
      · obtain ⟨rfl, rfl⟩ := hplace
        obtain ⟨last', before', rfl, ⟨hled, -⟩ | ⟨rfl, rfl, rfl, rfl⟩⟩ :=
          Led.exchange tokens (t := .recursiveZeroOrMore) Token.noConfusion
        · refine ⟨1, _, _, doubleStar_between last before rest,
            doubleStar_between last' before' rest, ?_⟩
          exact .outside hled (fun hnil => by cases hnil) (fun _ => rfl) fun _ => rfl
        · refine ⟨1, _, _, doubleStar_between _ _ rest, doubleStar_between _ _ rest, ?_⟩
          exact .outside (.inr ⟨[], rfl, rfl⟩) (fun hnil => by cases hnil) (fun _ => rfl)
            fun _ => rfl
      · have hplain : previous' ≠ some '/' ∨ ∃ d more, c :: rest = d :: more ∧ d ≠ '/' := by
          by_cases hprevious : previous' = some '/'
          · exact .inr ⟨c, rest, rfl, fun hc => hplace ⟨hprevious, hc⟩⟩
          · exact .inl hprevious
        obtain ⟨last', before', rfl, -⟩ :=
          Led.exchange tokens (t := .recursiveZeroOrMore) Token.noConfusion
        refine ⟨0, _, _, doubleStar_plain last before hplain,
          doubleStar_plain last' before' hplain, ?_⟩
        refine .outside ((tokens.push Token.noConfusion).push Token.noConfusion)
          (fun hnil => by cases hnil) (fun _ => rfl) fun heq => ?_
        exact Token.noConfusion (List.cons.inj heq).1
  | inside outer => exact doubleStar_inside outer _ _ _ _ (c :: rest)

/-- Readers at the end of a glob.  A double star that is all of it goes from the slash to the end
of the text. -/
def Ended (lead : Text) (r r' : Reader) : Prop :=
  r.Led lead r' ∨ ∃ p p', r = ⟨[.recursivePrefix], [], p⟩ ∧
    r' = ⟨.recursiveSuffix :: (literals lead).reverse, [], p'⟩

/-- A double star at the end. -/
theorem Led.doubleStar_end (h : r.Led lead r') :
    ∃ used s s', Glob.doubleStar r [] = (s, used) ∧ Glob.doubleStar r' [] = (s', used) ∧
      Ended lead { s with previous := behindStars used }
        { s' with previous := behindStars used } := by
  cases h with
  | @outside ts ts' previous previous' tokens begins goes spans =>
    cases ts with
    | nil =>
      obtain rfl := led_nil_iff.mp tokens
      obtain rfl := begins rfl
      exact ⟨0, _, _, rfl, rfl, .inr ⟨_, _, rfl, rfl⟩⟩
    | cons last before =>
      obtain rfl := goes (List.cons_ne_nil _ _)
      obtain ⟨last', before', rfl, hled⟩ :=
        Led.exchange tokens (t := .recursiveSuffix) Token.noConfusion
      by_cases hplace : previous' = some '/'
      · subst hplace
        refine ⟨0, _, _, doubleStar_last last before, doubleStar_last last' before', ?_⟩
        obtain ⟨hled, hne⟩ | ⟨rfl, rfl, rfl, rfl⟩ := hled
        · exact .inl (.outside hled (fun hnil => by cases hnil) (fun _ => rfl)
            fun heq => absurd heq hne)
        · exact .inr ⟨_, _, rfl, rfl⟩
      · refine ⟨0, _, _, doubleStar_plain last before (.inl hplace),
          doubleStar_plain last' before' (.inl hplace), .inl ?_⟩
        refine .outside ((tokens.push Token.noConfusion).push Token.noConfusion)
          (fun hnil => by cases hnil) (fun _ => rfl) fun heq => ?_
        exact Token.noConfusion (List.cons.inj heq).1
  | inside outer =>
    obtain ⟨used, s, s', hs, hs', hled⟩ := doubleStar_inside outer _ _ _ _ []
    exact ⟨used, s, s', hs, hs', .inl hled⟩

/-! ## Whole texts -/

theorem read?_stars {rest : Text} {s : Reader} {used : Nat} (h : Glob.doubleStar r rest = (s, used))
    (fuel : Nat) : Glob.read? (fuel + 1) r ('*' :: '*' :: rest) =
      Glob.read? fuel { s with previous := behindStars used } (rest.drop used) := by
  simp only [Glob.read?, h]
  rfl

/-- What is read behind a directory and a slash is what is read alone, or both are refused. -/
theorem Led.read? (h : r.Led lead r') (fuel : Nat) (t : Text) :
    Option.Rel (Ended lead) (Glob.read? fuel r t) (Glob.read? fuel r' t) := by
  revert r'
  fun_induction Glob.read? fuel r t with
  | case1 fuel r =>
    intro r' h
    rw [Glob.read?]
    exact .some (.inl h)
  | case2 r t hne =>
    intro r' h
    obtain ⟨c, rest, rfl⟩ := List.exists_cons_of_ne_nil hne
    exact .none
  | case3 fuel r rest next =>
    rename_i ih
    intro r' h
    exact ih (h.push Token.noConfusion _)
  | case4 fuel r rest r₁ used hstar previous =>
    rename_i ih
    intro r' h
    cases rest with
    | nil =>
      obtain ⟨used', s, s', hs, hs', hend⟩ := h.doubleStar_end
      rw [hstar] at hs
      obtain ⟨rfl, rfl⟩ := Prod.mk.inj hs
      rw [read?_stars hs', List.drop_nil, Glob.read?, Glob.read?]
      exact .some hend
    | cons c rest =>
      obtain ⟨used', s, s', hs, hs', hled⟩ := h.doubleStar c rest
      rw [hstar] at hs
      obtain ⟨rfl, rfl⟩ := Prod.mk.inj hs
      rw [read?_stars hs']
      exact ih hled
  | case5 fuel r rest hrest next =>
    rename_i ih
    intro r' h
    rw [Glob.read? ]
    · exact ih (h.push Token.noConfusion _)
    · exact hrest
  | case6 fuel r rest t rest' hclass ih =>
    intro r' h
    rw [Glob.read?, hclass]
    exact ih (h.push (class?_ne_recursivePrefix hclass) _)
  | case7 fuel r rest hclass =>
    intro r' h
    rw [Glob.read?, hclass]
    exact .none
  | case8 fuel r rest next =>
    rename_i ih
    intro r' h
    exact ih (h.openGroup _)
  | case9 fuel r rest r₁ hclose next =>
    rename_i ih
    intro r' h
    obtain ⟨hnone, -⟩ | ⟨s, s', hs, hs', hled⟩ := h.close?
    · rw [hnone] at hclose
      cases hclose
    · rw [hs] at hclose
      obtain rfl := Option.some.inj hclose
      rw [Glob.read?, hs']
      exact ih (hled _)
  | case10 fuel r rest hclose =>
    intro r' h
    obtain ⟨-, hnone⟩ | ⟨s, s', hs, -, -⟩ := h.close?
    · rw [Glob.read?, hnone]
      exact .none
    · rw [hs] at hclose
      cases hclose
  | case11 fuel r rest next =>
    rename_i ih
    intro r' h
    exact ih (h.comma _)
  | case12 fuel r =>
    intro r' h
    exact .none
  | case13 fuel r d rest ih =>
    intro r' h
    exact ih (h.push Token.noConfusion _)
  | case14 fuel r rest c hany hstar hclass hopen hclose hcomma hescape next =>
    rename_i ih
    intro r' h
    rw [Glob.read?]
    · exact ih (h.push Token.noConfusion _)
    all_goals assumption

end Reader

/-! ## The last character -/

theorem getLast?_cons_or (c : Char) (t : Text) (previous : Option Char) :
    (c :: t).getLast?.or previous = t.getLast?.or (some c) := by
  rw [List.getLast?_cons, Option.some_or]
  cases t.getLast? <;> rfl

/-- The ranges of a class end with a bracket. -/
theorem classRanges?_ends {first opened : Bool} {ranges ranges' : List (Char × Char)} {t rest : Text}
    (h : classRanges? first opened ranges t = some (ranges', rest)) :
    ∃ front, t = front ++ ']' :: rest := by
  have hcons : ∀ {t : Text} (c : Char), (∃ front, t = front ++ ']' :: rest) →
      ∃ front, c :: t = front ++ ']' :: rest := by
    rintro _ c ⟨front, rfl⟩
    exact ⟨c :: front, rfl⟩
  fun_induction classRanges? first opened ranges t with
  | case1 => cases h
  | case2 _ _ _ c _ hclose =>
    simp only [Bool.and_eq_true, beq_iff_eq] at hclose
    obtain rfl := congrArg Prod.snd (Option.some.inj h)
    exact ⟨[], by rw [hclose.1]; rfl⟩
  | case3 _ _ _ _ _ _ _ ih => exact hcons _ (ih h)
  | case4 => cases h
  | case5 _ _ _ _ _ _ _ _ _ ih => exact hcons _ (ih h)
  | case6 => cases h
  | case7 _ _ _ _ _ _ _ _ ih => exact hcons _ (ih h)

/-- A class ends with its bracket. -/
theorem class?_ends {t rest : Text} {token : Token} (h : class? t = some (token, rest)) :
    ∃ front, t = front ++ ']' :: rest := by
  simp only [class?, Option.map_eq_some_iff, Prod.mk.injEq] at h
  obtain ⟨⟨_, _⟩, hranges, -, rfl⟩ := h
  obtain ⟨front, hfront⟩ := classRanges?_ends hranges
  split at hfront
  · exact ⟨'!' :: front, congrArg ('!' :: ·) hfront⟩
  · exact ⟨'^' :: front, congrArg ('^' :: ·) hfront⟩
  · exact ⟨front, hfront⟩

theorem Reader.drop_of_doubleStar {r s : Reader} {rest : Text} {used : Nat}
    (h : doubleStar r rest = (s, used)) :
    used = 0 ∨ (used = 1 ∧ ∃ more, rest = '/' :: more) := by
  obtain rfl : (doubleStar r rest).2 = used := congrArg Prod.snd h
  unfold doubleStar
  dsimp only
  repeat' split
  all_goals first | exact .inl rfl | exact .inr ⟨rfl, _, rfl⟩

/-- The character that counts as read last is the last one of the text. -/
theorem previous_of_read? {fuel : Nat} {r s : Reader} {t : Text} (h : read? fuel r t = some s) :
    s.previous = t.getLast?.or r.previous := by
  fun_induction read? fuel r t with
  | case1 fuel r =>
    obtain rfl := Option.some.inj h
    rfl
  | case2 => cases h
  | case3 _ _ _ _ ih => rw [ih h, getLast?_cons_or]
  | case4 fuel r rest r₁ used hstar previous ih =>
    rw [ih h, getLast?_cons_or, getLast?_cons_or]
    obtain rfl | ⟨rfl, more, rfl⟩ := r.drop_of_doubleStar hstar
    · rfl
    · exact (getLast?_cons_or '/' more _).symm
  | case5 _ _ _ _ _ ih => rw [ih h, getLast?_cons_or]
  | case6 fuel r rest t rest' hclass ih =>
    obtain ⟨front, rfl⟩ := class?_ends hclass
    rw [ih h, ← List.cons_append, List.getLast?_append, List.getLast?_cons, Option.some_or]
    cases rest'.getLast? <;> rfl
  | case7 => cases h
  | case8 _ _ _ _ ih => rw [ih h, getLast?_cons_or]
  | case9 _ _ _ _ _ _ ih => rw [ih h, getLast?_cons_or]
  | case10 => cases h
  | case11 _ _ _ _ ih => rw [ih h, getLast?_cons_or]
  | case12 => cases h
  | case13 _ _ _ _ ih => rw [ih h, getLast?_cons_or, getLast?_cons_or]
  | case14 _ _ _ _ _ _ _ _ _ _ _ _ ih => rw [ih h, getLast?_cons_or]

/-! ## Tokens of whole globs -/

/-- Tokens of a glob, and those of the glob behind a directory. -/
inductive Behind (lead : Text) : List Token → List Token → Prop
  | slash {ts : List Token} : ts ≠ [.recursivePrefix] →
      Behind lead ts (literals lead ++ .literal '/' :: ts)
  | span {more : List Token} : more ≠ [] →
      Behind lead (.recursivePrefix :: more) (literals lead ++ .recursiveZeroOrMore :: more)
  | whole : Behind lead [.recursivePrefix] (literals lead ++ [.recursiveSuffix])

theorem reverse_append_front (ts : List Token) (t : Token) :
    (ts ++ t :: (literals lead).reverse).reverse = literals lead ++ t :: ts.reverse := by
  rw [List.reverse_append, List.reverse_cons, List.reverse_reverse, List.append_assoc]
  rfl

theorem Led.behind (h : Led lead ts ts') (hne : ts ≠ [.recursivePrefix]) :
    Behind lead ts.reverse ts'.reverse := by
  obtain ⟨hnot, rfl⟩ | ⟨more, rfl, rfl⟩ := h
  · rw [reverse_append_front]
    refine .slash fun heq => hnot ?_
    rw [← List.mem_reverse, heq]
    exact List.mem_singleton_self _
  · rw [reverse_append_front, List.reverse_append]
    exact .span fun hnil => hne (by rw [List.reverse_eq_nil_iff.mp hnil]; rfl)

/-- The tokens of a glob behind a plain directory.  A glob that is nothing but `**` may not end in
a slash: behind a directory such a glob keeps the slash. -/
theorem tokens?_led (hlead : ∀ c ∈ lead, IsLiteral c) {glob : Text}
    (hall : tokens? glob = some [.recursivePrefix] → glob.getLast? = some '*') :
    Option.Rel (Behind lead) (tokens? glob) (tokens? (lead ++ '/' :: glob)) := by
  have hgroups := Reader.groups_pushText {} lead
  have hread : read? (lead ++ '/' :: glob).length {} (lead ++ '/' :: glob) =
      read? glob.length
        { (({} : Reader).pushText lead).push (.literal '/') with previous := some '/' } glob := by
    rw [List.length_append, read?_literals hlead rfl, List.length_cons,
      read?_literal (by decide) hgroups]
  have hled : Reader.Led lead {}
      { (({} : Reader).pushText lead).push (.literal '/') with previous := some '/' } := by
    have htokens := Reader.tokens_pushText {} lead
    generalize ({} : Reader).pushText lead = r at hgroups htokens ⊢
    obtain ⟨ts, groups, previous⟩ := r
    obtain rfl : groups = [] := hgroups
    obtain rfl : ts = (literals lead).reverse := htokens.trans (List.append_nil _)
    exact .outside (led_nil_iff.mpr rfl) (fun _ => rfl) (fun hne => absurd rfl hne)
      fun heq => by cases heq
  have hrel := hled.read? glob.length glob
  have hlast : ∀ s, read? glob.length {} glob = some s → s.previous = glob.getLast? := by
    intro s hs
    rw [previous_of_read? hs]
    exact Option.or_none
  rw [tokens?] at hall ⊢
  rw [tokens?, hread]
  revert hrel hall hlast
  generalize read? glob.length {} glob = a
  generalize read? glob.length _ glob = b
  rintro hall hrel hlast
  cases hrel with
  | none => exact .none
  | some hend =>
    have hlast := hlast _ rfl
    obtain hled | ⟨p, p', rfl, rfl⟩ := hend
    · cases hled with
      | outside tokens begins goes spans =>
        refine .some (tokens.behind ?_)
        rintro rfl
        have hslash := (spans rfl).symm.trans hlast
        rw [hall rfl] at hslash
        revert hslash
        decide
      | inside outer =>
        simp only [isEmpty_concat, Bool.false_eq_true, if_false]
        exact .none
    · have hreverse : (Token.recursiveSuffix :: (literals lead).reverse).reverse =
          literals lead ++ [.recursiveSuffix] := by
        rw [List.reverse_cons, List.reverse_reverse]
      exact .some (hreverse ▸ .whole)

/-! ## What is matched -/

variable {separated : Bool}

theorem isSlash_slash : Token.IsSlash (.literal '/') := rfl

theorem isSlash_between : Token.IsSlash .recursiveZeroOrMore := trivial

theorem isSlash_last : Token.IsSlash .recursiveSuffix := trivial

/-- Behind the directory the tokens spell what those of the glob spell. -/
theorem Behind.spells (h : Behind lead ts ts') (t : Text) :
    SpellsWhole separated ts' (byteText (lead ++ '/' :: t)) ↔
      SpellsWhole separated ts (byteText t) := by
  have hbytes : byteText (lead ++ '/' :: t) = byteText lead ++ '/' :: byteText t := by
    rw [byteText_append, byteText_cons, bytesOf_slash]
    rfl
  have hcancel : ∀ u v, byteText lead ++ '/' :: u = byteText lead ++ v ↔ v = '/' :: u :=
    fun u v => ⟨fun heq => (List.append_cancel_left heq).symm, fun heq => heq ▸ rfl⟩
  rw [hbytes]
  cases h with
  | @slash ts hne =>
    rw [spellsWhole_iff hne, spellsWhole_iff (literals_append_ne lead isSlash_slash ts),
      spellsAll_literals]
    simp only [hcancel, exists_eq_left, SpellsAll, Token.Spells, bytesOf_slash]
    constructor
    · rintro ⟨_, v, heq, rfl, hv⟩
      obtain rfl := (List.cons.inj heq).2
      exact hv
    · exact fun hv => ⟨['/'], _, rfl, rfl, hv⟩
  | @span more hne =>
    have hts : .recursivePrefix :: more ≠ [Token.recursivePrefix] :=
      fun heq => hne (List.cons.inj heq).2
    rw [spellsWhole_iff hts, spellsWhole_iff (literals_append_ne lead isSlash_between more),
      spellsAll_literals]
    simp only [hcancel, exists_eq_left, SpellsAll, Token.Spells]
    constructor
    · rintro ⟨_, v, heq, rfl | ⟨w, rfl⟩, hv⟩
      · exact ⟨[], v, (List.cons.inj heq).2, .inl rfl, hv⟩
      · exact ⟨w ++ ['/'], v, (List.cons.inj heq).2, .inr ⟨w, rfl⟩, hv⟩
    · rintro ⟨_, v, heq, rfl | ⟨w, rfl⟩, hv⟩
      · exact ⟨['/'], v, congrArg ('/' :: ·) heq, .inl rfl, hv⟩
      · exact ⟨'/' :: (w ++ ['/']), v, congrArg ('/' :: ·) heq, .inr ⟨w, rfl⟩, hv⟩
  | whole =>
    rw [spellsWhole_iff (literals_append_ne lead isSlash_last []), spellsAll_literals]
    refine iff_of_true ⟨_, rfl, '/' :: byteText t, [], ?_, ⟨_, rfl⟩, rfl⟩ trivial
    exact (List.append_nil _).symm

theorem depth_wholeTerm (separated : Bool) {ts : List Token} (hne : ts ≠ [.recursivePrefix]) :
    (wholeTerm separated ts).depth = Pattern.depthOfTerms (tokenTerms separated ts) + 1 := by
  rw [wholeTerm_eq_of_ne separated hne]
  simp only [Pattern.Term.depth, Pattern.depthOfTerms, depthOfTerms_append, Nat.zero_max,
    Nat.max_zero]

/-- A token of a directory in front does not make a glob any deeper. -/
theorem depth_front {t : Token} (ht : t.IsSlash) (more : List Token) :
    (wholeTerm separated (literals lead ++ t :: more)).depth =
      max (Pattern.depthOfTerms (t.terms separated))
        (Pattern.depthOfTerms (tokenTerms separated more)) + 1 := by
  rw [depth_wholeTerm separated (literals_append_ne lead ht more), depthOfTerms_literals, tokenTerms,
    depthOfTerms_append]

/-- The directory does not make a glob any deeper. -/
theorem Behind.depth (h : Behind lead ts ts') :
    (wholeTerm separated ts').depth = (wholeTerm separated ts).depth := by
  cases h with
  | slash hne =>
    rw [depth_front isSlash_slash, depth_wholeTerm separated hne, Token.terms, bytesOf_slash]
    exact congrArg (· + 1) (Nat.zero_max _)
  | @span more hne =>
    have hts : .recursivePrefix :: more ≠ [Token.recursivePrefix] :=
      fun heq => hne (List.cons.inj heq).2
    rw [depth_front isSlash_between, depth_wholeTerm separated hts, tokenTerms,
      depthOfTerms_append]
    rfl
  | whole =>
    rw [depth_front isSlash_last]
    rfl

theorem isSome_ofTokens? : (ofTokens? separated ts).isSome = true ↔
    (wholeTerm separated ts).depth ≤ Pattern.maxDepth := by
  obtain ⟨ps, -, -, heq⟩ := ofTokens?_eq separated ts
  rw [heq]
  split
  · exact iff_of_true rfl ‹_›
  · exact iff_of_false Bool.noConfusion ‹_›

/-- A path that ends in `..` does so behind a directory as well. -/
theorem isNameless_behind (lead : Text) {t : Text} (h : isNameless (lead ++ '/' :: t) = false) :
    isNameless t = false := by
  rw [isNameless, List.reverse_append, List.reverse_cons, List.append_assoc] at h
  rw [isNameless]
  split
  · rename_i rest heq
    rw [heq] at h
    cases rest with
    | nil => cases h
    | cons c rest => exact h
  · rfl

/-- A glob is read behind a directory if and only if it is read alone, and there it matches what
the directory stands in front of. -/
theorem reads_led (hlead : ∀ c ∈ lead, IsLiteral c) {glob : Text}
    (hall : tokens? glob = some [.recursivePrefix] → glob.getLast? = some '*') :
    Option.Rel (fun g g' => ∀ t, isNameless (lead ++ '/' :: t) = false →
        g'.isMatch (lead ++ '/' :: t) = g.isMatch t)
      ((tokens? glob).bind (ofTokens? separated))
      ((tokens? (lead ++ '/' :: glob)).bind (ofTokens? separated)) := by
  have hrel := tokens?_led hlead hall
  generalize tokens? glob = a at hrel
  generalize tokens? (lead ++ '/' :: glob) = b at hrel
  cases hrel with
  | none => exact .none
  | @some ts ts' hbehind =>
    rw [Option.bind_some, Option.bind_some]
    have hsome : (ofTokens? separated ts').isSome = (ofTokens? separated ts).isSome := by
      rw [Bool.eq_iff_iff, isSome_ofTokens?, isSome_ofTokens?, hbehind.depth]
    cases hg : ofTokens? separated ts with
    | none =>
      rw [hg] at hsome
      rw [Option.not_isSome_iff_eq_none.mp (Bool.eq_false_iff.mp hsome)]
      exact .none
    | some g =>
      rw [hg] at hsome
      obtain ⟨g', hg'⟩ := Option.isSome_iff_exists.mp hsome
      rw [hg']
      refine .some fun t hname => ?_
      rw [Bool.eq_iff_iff, isMatch_iff hg', isMatch_iff hg, hbehind.spells]
      exact and_congr_left' (iff_of_true (.inr hname) (.inr (isNameless_behind lead hname)))

end Glob
end TestTransform
