/-
Comments between tokens, and what taking them out does.

A comment is taken out without a trace except for its line feeds.  So between tokens it leaves
spaces, and inside a word a block comment on one line leaves nothing at all: there the word is
read as if the comment were not there.  The texts that come out as plain layouts are exactly
those with comments in these two places, where the last comment may lack its end.
-/
import TestTransform.Json.Relaxed
import TestTransform.Proofs.Json.Grammar

namespace TestTransform
namespace Json

open Form

/-! ## Layouts with comments -/

/-- Whether a text may stand inside a block comment. -/
def IsInside (body : Text) : Prop := ¬ (['*', '/'] : Text) <:+: body

instance (body : Text) : Decidable (IsInside body) :=
  inferInstanceAs (Decidable ¬ (['*', '/'] : Text) <:+: body)

/-- A line comment with its line feed, or a block comment. -/
inductive Comment : Text → Prop where
  | line {body : Text} : '\n' ∉ body → Comment ('/' :: '/' :: (body ++ ['\n']))
  | block {body : Text} : IsInside body → Comment ('/' :: '*' :: (body ++ ['*', '/']))

/-- Spaces and comments. -/
inductive Gap : Text → Prop where
  | nil : Gap []
  | space {c : Char} {g : Text} : isSpace c = true → Gap g → Gap (c :: g)
  | comment {k g : Text} : Comment k → Gap g → Gap (k ++ g)

/-- Nothing, or a last comment that reaches to the end of the text.  A block comment does so only
where it may lack its end. -/
inductive LastComment (unclosed : Bool) : Text → Prop where
  | none : LastComment unclosed []
  | line {body : Text} : '\n' ∉ body → LastComment unclosed ('/' :: '/' :: body)
  | block {body : Text} : unclosed = true → IsInside body →
      LastComment unclosed ('/' :: '*' :: body)

/-- A word with block comments between its characters, each of them on one line. -/
inductive Interrupted : Text → Text → Prop where
  | nil : Interrupted [] []
  | char {c : Char} {w t : Text} : Interrupted w t → Interrupted (c :: w) (c :: t)
  | comment {body w t : Text} : IsInside body → '\n' ∉ body → Interrupted w t →
      Interrupted w ('/' :: '*' :: (body ++ '*' :: '/' :: t))

/-- A style with comments between the tokens. -/
def Style.withComments (unclosed : Bool) (word : Text → Text → Prop) : Style where
  gap := Gap
  ending e := ∃ g last, e = g ++ last ∧ Gap g ∧ LastComment unclosed last
  word := word

/-- Comments between the tokens only. -/
def Style.separated (unclosed : Bool) : Style := .withComments unclosed fun w t => t = w

/-- Comments between the tokens, all of them closed. -/
def Style.commented : Style := .separated false

/-- Comments between and inside the tokens; the last one may lack its end. -/
def Style.loose : Style := .withComments true Interrupted

section Gaps

variable {unclosed : Bool} {word : Text → Text → Prop} {tokens : List Token} {g h t : Text}

theorem Gap.append (hg : Gap g) (hh : Gap h) : Gap (g ++ h) := by
  induction hg with
  | nil => exact hh
  | space hc _ ih => exact .space hc ih
  | comment hk _ ih =>
    rw [List.append_assoc]
    exact .comment hk ih

theorem gap_of_spaces (h : ∀ c ∈ g, isSpace c = true) : Gap g := by
  induction g with
  | nil => exact .nil
  | cons c g ih =>
    obtain ⟨hc, hg⟩ := List.forall_mem_cons.mp h
    exact .space hc (ih hg)

/-- What may stand in front of a token may be lengthened. -/
theorem Laid.behind_gap (hg : Gap g) (ht : Laid (.withComments unclosed word) tokens t) :
    Laid (.withComments unclosed word) tokens (g ++ t) := by
  cases ht with
  | nil hend =>
    obtain ⟨g', last, rfl, hg', hlast⟩ := hend
    rw [← List.append_assoc]
    exact .nil ⟨_, last, rfl, hg.append hg', hlast⟩
  | cons hgap hw hrest =>
    rw [← List.append_assoc]
    exact .cons (hg.append hgap) hw hrest

/-- A style that allows more lays out at least as much. -/
theorem Laid.mono {style style' : Style} (ht : Laid style tokens t)
    (hgap : ∀ g, style.gap g → style'.gap g) (hending : ∀ e, style.ending e → style'.ending e)
    (hword : ∀ w t, style.word w t → style'.word w t) : Laid style' tokens t := by
  induction ht with
  | nil hend => exact .nil (hending _ hend)
  | cons hg hw _ ih =>
    refine .cons (hgap _ hg) ?_ ih
    cases hw with
    | mark hc => exact .mark hc
    | string hls => exact .string hls
    | word hw ht => exact .word hw (hword _ _ ht)

theorem interrupted_self (w : Text) : Interrupted w w := by
  induction w with
  | nil => exact .nil
  | cons c w ih => exact .char ih

theorem LastComment.mono {last : Text} (h : LastComment unclosed last) : LastComment true last := by
  cases h with
  | none => exact .none
  | line h => exact .line h
  | block _ h => exact .block rfl h

/-- Plain JSON is JSON with comments. -/
theorem Laid.commented (ht : Laid .plain tokens t) : Laid .commented tokens t :=
  ht.mono (fun _ => gap_of_spaces)
    (fun e he => ⟨e, [], (List.append_nil e).symm, gap_of_spaces he, .none⟩) (fun _ _ h => h)

theorem Laid.loose (ht : Laid (.separated unclosed) tokens t) : Laid .loose tokens t :=
  ht.mono (fun _ h => h) (fun _ ⟨g, last, he, hg, hlast⟩ => ⟨g, last, he, hg, hlast.mono⟩)
    (fun w _ h => by cases h; exact interrupted_self w)

end Gaps

/-! ## Scans -/

namespace Relaxed

/-- Puts a space in place of each comment of a text that begins in the given zone. -/
def spaced : Zone → Text → Text
  | _, [] => []
  | .lineComment, c :: rest =>
    if c == '\n' then c :: spaced .plain rest else spaced .lineComment rest
  | .blockComment, '*' :: '/' :: rest => spaced .plain rest
  | .blockComment, _ :: rest => spaced .blockComment rest
  | .string, c :: rest => c :: spaced (.inString c) rest
  | .escaped, c :: rest => c :: spaced .string rest
  | .plain, '/' :: '/' :: rest => ' ' :: spaced .lineComment rest
  | .plain, '/' :: '*' :: rest => ' ' :: spaced .blockComment rest
  | .plain, c :: rest => c :: spaced (if c == '"' then .string else .plain) rest

/-- Whether a scan copies what is in strings. -/
structure KeepsStrings (scan : Zone → Text → Text) : Prop where
  nil : ∀ zone, scan zone [] = []
  string : ∀ c t, scan .string (c :: t) = c :: scan (.inString c) t
  escaped : ∀ c t, scan .escaped (c :: t) = c :: scan .string t
  quote : ∀ t, scan .plain ('"' :: t) = '"' :: scan .string t

theorem inString_plain {c : Char} (hquote : c ≠ '"') (hslash : c ≠ '\\') :
    Zone.inString c = .string := by
  simp [Zone.inString, hquote, hslash]

theorem inString_of_hexValue? {c : Char} {n : Nat} (h : hexValue? c = some n) :
    Zone.inString c = .string := by
  refine inString_plain ?_ ?_ <;> (rintro rfl; cases h)

theorem hexValue?_of_hex4? {a b c d : Char} {n : Nat} (h : hex4? a b c d = some n) :
    (∃ n, hexValue? a = some n) ∧ (∃ n, hexValue? b = some n) ∧ (∃ n, hexValue? c = some n) ∧
      ∃ n, hexValue? d = some n := by
  obtain ⟨na, ha, h⟩ := Option.bind_eq_some_iff.mp h
  obtain ⟨nb, hb, h⟩ := Option.bind_eq_some_iff.mp h
  obtain ⟨nc, hc, h⟩ := Option.bind_eq_some_iff.mp h
  obtain ⟨nd, hd, -⟩ := Option.bind_eq_some_iff.mp h
  exact ⟨⟨na, ha⟩, ⟨nb, hb⟩, ⟨nc, hc⟩, ⟨nd, hd⟩⟩

section Strings

variable {scan : Zone → Text → Text} {ls : List Letter} {body : Text}

/-- A scan passes a string over and goes on behind its quote. -/
theorem KeepsStrings.append (h : KeepsStrings scan) (hbody : WritesLetters ls body) (t : Text) :
    scan .string (body ++ '"' :: t) = body ++ '"' :: scan .plain t := by
  induction hbody with
  | nil => exact h.string _ _
  | plain _ hquote hslash _ ih =>
    rw [List.cons_append, h.string, inString_plain hquote hslash, ih]
    rfl
  | escape _ _ ih =>
    rw [List.cons_append, List.cons_append, h.string]
    show _ :: scan .escaped _ = _
    rw [h.escaped, ih]
    rfl
  | unit hn _ ih =>
    obtain ⟨⟨_, ha⟩, ⟨_, hb⟩, ⟨_, hc⟩, ⟨_, hd⟩⟩ := hexValue?_of_hex4? hn
    simp only [List.cons_append, h.string]
    show _ :: scan .escaped _ = _
    rw [h.escaped, h.string, inString_of_hexValue? ha, h.string, inString_of_hexValue? hb,
      h.string, inString_of_hexValue? hc, h.string, inString_of_hexValue? hd, ih]

theorem KeepsStrings.of_string (h : KeepsStrings scan) {t out : Text} {c : Char}
    (ht : scan .string t = c :: out) : ∃ rest, t = c :: rest ∧ scan (.inString c) rest = out := by
  cases t with
  | nil =>
    rw [h.nil] at ht
    cases ht
  | cons d rest =>
    rw [h.string] at ht
    cases ht
    exact ⟨rest, rfl, rfl⟩

theorem KeepsStrings.of_escaped (h : KeepsStrings scan) {t out : Text} {c : Char}
    (ht : scan .escaped t = c :: out) : ∃ rest, t = c :: rest ∧ scan .string rest = out := by
  cases t with
  | nil =>
    rw [h.nil] at ht
    cases ht
  | cons d rest =>
    rw [h.escaped] at ht
    cases ht
    exact ⟨rest, rfl, rfl⟩

/-- A string that comes out was there. -/
theorem KeepsStrings.exists_append (h : KeepsStrings scan) (hbody : WritesLetters ls body)
    {t out : Text} (ht : scan .string t = body ++ '"' :: out) :
    ∃ rest, t = body ++ '"' :: rest ∧ scan .plain rest = out := by
  induction hbody generalizing t with
  | nil =>
    obtain ⟨rest, rfl, hrest⟩ := h.of_string ht
    exact ⟨rest, rfl, hrest⟩
  | plain _ hquote hslash _ ih =>
    obtain ⟨rest, rfl, hrest⟩ := h.of_string ht
    rw [inString_plain hquote hslash] at hrest
    obtain ⟨rest, rfl, hout⟩ := ih hrest
    exact ⟨rest, rfl, hout⟩
  | escape _ _ ih =>
    obtain ⟨rest₁, rfl, h₁⟩ := h.of_string ht
    obtain ⟨rest₂, rfl, h₂⟩ := h.of_escaped h₁
    obtain ⟨rest, rfl, hout⟩ := ih h₂
    exact ⟨rest, rfl, hout⟩
  | unit hn _ ih =>
    obtain ⟨⟨_, ha⟩, ⟨_, hb⟩, ⟨_, hc⟩, ⟨_, hd⟩⟩ := hexValue?_of_hex4? hn
    obtain ⟨rest₁, rfl, h₁⟩ := h.of_string ht
    obtain ⟨rest₂, rfl, h₂⟩ := h.of_escaped h₁
    obtain ⟨rest₃, rfl, h₃⟩ := h.of_string h₂
    rw [inString_of_hexValue? ha] at h₃
    obtain ⟨rest₄, rfl, h₄⟩ := h.of_string h₃
    rw [inString_of_hexValue? hb] at h₄
    obtain ⟨rest₅, rfl, h₅⟩ := h.of_string h₄
    rw [inString_of_hexValue? hc] at h₅
    obtain ⟨rest₆, rfl, h₆⟩ := h.of_string h₅
    rw [inString_of_hexValue? hd] at h₆
    obtain ⟨rest, rfl, hout⟩ := ih h₆
    exact ⟨rest, rfl, hout⟩

end Strings

attribute [local simp] dropComments in
theorem keepsStrings_dropComments : KeepsStrings dropComments where
  nil zone := by cases zone <;> rfl
  string _ _ := by simp
  escaped _ _ := by simp
  quote _ := rfl

attribute [local simp] spaced in
theorem keepsStrings_spaced : KeepsStrings spaced where
  nil zone := by cases zone <;> rfl
  string _ _ := by simp
  escaped _ _ := by simp
  quote _ := rfl

/-! ### Inside comments -/

theorem isInside_cons {c : Char} {body : Text} :
    IsInside (c :: body) ↔ IsInside body ∧ ¬ (c = '*' ∧ body.head? = some '/') := by
  have hstart : (['*', '/'] : Text) <+: c :: body ↔ c = '*' ∧ body.head? = some '/' := by
    cases body with
    | nil => simp [List.cons_prefix_cons]
    | cons d body => simp [List.cons_prefix_cons, eq_comm]
  rw [IsInside, IsInside, List.infix_cons_iff, hstart, not_or, and_comm]

theorem ne_of_isInside {c : Char} {body t : Text} (h : IsInside (c :: body))
    (ht : t.head? ≠ some '/') : ∀ rest, c = '*' → body ++ t = '/' :: rest → False := by
  intro rest hc heq
  cases body with
  | nil =>
    rw [List.nil_append] at heq
    rw [heq] at ht
    exact ht rfl
  | cons d body =>
    cases heq
    exact (isInside_cons.mp h).2 ⟨hc, rfl⟩

section Inside

variable {body t : Text}

theorem dropComments_line (h : '\n' ∉ body) :
    dropComments .lineComment (body ++ t) = dropComments .lineComment t := by
  induction body with
  | nil => rfl
  | cons c body ih =>
    rw [List.mem_cons, not_or] at h
    rw [List.cons_append, dropComments, if_neg (by simpa using Ne.symm h.1), ih h.2]

theorem spaced_line (h : '\n' ∉ body) :
    spaced .lineComment (body ++ t) = spaced .lineComment t := by
  induction body with
  | nil => rfl
  | cons c body ih =>
    rw [List.mem_cons, not_or] at h
    rw [List.cons_append, spaced, if_neg (by simpa using Ne.symm h.1), ih h.2]

/-- Inside a block comment nothing is left but line feeds. -/
theorem dropComments_block (h : IsInside body) (ht : t.head? ≠ some '/') :
    dropComments .blockComment (body ++ t) =
      body.filter (· == '\n') ++ dropComments .blockComment t := by
  induction body with
  | nil => rfl
  | cons c body ih =>
    rw [List.cons_append, dropComments.eq_4 _ _ (ne_of_isInside h ht), ih (isInside_cons.mp h).1]
    by_cases hc : c = '\n'
    · subst hc
      rfl
    · rw [if_neg (by simpa using hc), List.filter_cons_of_neg (by simpa using hc)]

theorem spaced_block (h : IsInside body) (ht : t.head? ≠ some '/') :
    spaced .blockComment (body ++ t) = spaced .blockComment t := by
  induction body with
  | nil => rfl
  | cons c body ih =>
    rw [List.cons_append, spaced.eq_4 _ _ (ne_of_isInside h ht), ih (isInside_cons.mp h).1]

end Inside

/-! ### Between tokens -/

/-- Whether a scan keeps what tokens are made of and makes comments into spaces. -/
structure Spaces (scan : Zone → Text → Text) : Prop where
  strings : KeepsStrings scan
  char : ∀ {c t}, c ≠ '"' → c ≠ '/' → scan .plain (c :: t) = c :: scan .plain t
  comment : ∀ {k}, Comment k → ∃ g, (∀ c ∈ g, isSpace c = true) ∧
    ∀ t, scan .plain (k ++ t) = g ++ scan .plain t
  last : ∀ {k}, LastComment true k → ∀ c ∈ scan .plain k, isSpace c = true

theorem isSpace_of_mem_filter (body : Text) : ∀ c ∈ body.filter (· == '\n'), isSpace c = true := by
  intro c hc
  have hfeed := (List.mem_filter.mp hc).2
  rw [LawfulBEq.eq_of_beq hfeed]
  rfl

theorem spaces_dropComments : Spaces dropComments where
  strings := keepsStrings_dropComments
  char {c t} hquote hslash := by
    rw [dropComments.eq_9 c t (fun _ h _ => hslash h) (fun _ h _ => hslash h),
      if_neg (by simpa using hquote)]
  comment {k} h := by
    cases h with
    | @line body h =>
      refine ⟨['\n'], List.all_eq_true.mp rfl, fun t => ?_⟩
      show dropComments .lineComment (body ++ ['\n'] ++ t) = _
      rw [List.append_assoc, dropComments_line h]
      rfl
    | @block body h =>
      refine ⟨body.filter (· == '\n'), isSpace_of_mem_filter body, fun t => ?_⟩
      show dropComments .blockComment (body ++ ['*', '/'] ++ t) = _
      rw [List.append_assoc, dropComments_block h (by simp)]
      rfl
  last {k} h := by
    cases h with
    | none => exact fun _ hc => by cases hc
    | @line body h =>
      show ∀ c ∈ dropComments .lineComment body, _
      rw [← List.append_nil body, dropComments_line h]
      exact fun _ hc => by cases hc
    | @block body _ h =>
      show ∀ c ∈ dropComments .blockComment body, _
      rw [← List.append_nil body, dropComments_block h (by simp)]
      simpa [dropComments] using isSpace_of_mem_filter body

theorem spaces_spaced : Spaces spaced where
  strings := keepsStrings_spaced
  char {c t} hquote hslash := by
    rw [spaced.eq_9 c t (fun _ h _ => hslash h) (fun _ h _ => hslash h),
      if_neg (by simpa using hquote)]
  comment {k} h := by
    cases h with
    | @line body h =>
      refine ⟨[' ', '\n'], List.all_eq_true.mp rfl, fun t => ?_⟩
      show ' ' :: spaced .lineComment (body ++ ['\n'] ++ t) = _
      rw [List.append_assoc, spaced_line h]
      rfl
    | @block body h =>
      refine ⟨[' '], List.all_eq_true.mp rfl, fun t => ?_⟩
      show ' ' :: spaced .blockComment (body ++ ['*', '/'] ++ t) = _
      rw [List.append_assoc, spaced_block h (by simp)]
      rfl
  last {k} h := by
    cases h with
    | none => exact fun _ hc => by cases hc
    | @line body h =>
      show ∀ c ∈ ' ' :: spaced .lineComment body, _
      rw [← List.append_nil body, spaced_line h]
      exact List.all_eq_true.mp rfl
    | @block body _ h =>
      show ∀ c ∈ ' ' :: spaced .blockComment body, _
      rw [← List.append_nil body, spaced_block h (by simp)]
      exact List.all_eq_true.mp rfl

section Scan

variable {scan : Zone → Text → Text} (hscan : Spaces scan) {t : Text}

include hscan

theorem Spaces.word {w : Text} (hw : ∀ c ∈ w, isWordChar c = true) (t : Text) :
    scan .plain (w ++ t) = w ++ scan .plain t := by
  induction w with
  | nil => rfl
  | cons c w ih =>
    obtain ⟨hc, hw⟩ := List.forall_mem_cons.mp hw
    obtain ⟨-, -, hquote, hslash⟩ := isWordChar_iff.mp hc
    rw [List.cons_append, hscan.char hquote hslash, ih hw]
    rfl

theorem Spaces.gap {g : Text} (hg : Gap g) : ∃ g', (∀ c ∈ g', isSpace c = true) ∧
    ∀ t, scan .plain (g ++ t) = g' ++ scan .plain t := by
  induction hg with
  | nil => exact ⟨[], by simp, fun t => rfl⟩
  | @space c g hc _ ih =>
    obtain ⟨g', hg', ih⟩ := ih
    refine ⟨c :: g', List.forall_mem_cons.mpr ⟨hc, hg'⟩, fun t => ?_⟩
    have hquote : c ≠ '"' := by rintro rfl; cases hc
    have hslash : c ≠ '/' := by rintro rfl; cases hc
    rw [List.cons_append, hscan.char hquote hslash, ih]
    rfl
  | comment hk _ ih =>
    obtain ⟨g₁, hg₁, hk⟩ := hscan.comment hk
    obtain ⟨g₂, hg₂, ih⟩ := ih
    refine ⟨g₁ ++ g₂, fun c hc => (List.mem_append.mp hc).elim (hg₁ c) (hg₂ c), fun t => ?_⟩
    rw [List.append_assoc, hk, ih, List.append_assoc]

/-- Such a scan makes a layout with comments into one with spaces. -/
theorem Spaces.laid {unclosed : Bool} {word : Text → Text → Prop}
    (hword : ∀ {w m}, IsWord w → word w m → ∀ t, scan .plain (m ++ t) = w ++ scan .plain t)
    {tokens : List Token} (ht : Laid (.withComments unclosed word) tokens t) :
    Laid .plain tokens (scan .plain t) := by
  induction ht with
  | nil hend =>
    obtain ⟨g, last, rfl, hg, hlast⟩ := hend
    obtain ⟨g', hg', hscanned⟩ := hscan.gap hg
    rw [hscanned]
    exact .nil fun c hc => (List.mem_append.mp hc).elim (hg' c) (hscan.last hlast.mono c)
  | @cons token tokens g w t hg hw _ ih =>
    obtain ⟨g', hg', hscanned⟩ := hscan.gap hg
    rw [hscanned]
    cases hw with
    | @mark c hc =>
      have hquote : c ≠ '"' := by rintro rfl; cases hc
      have hslash : c ≠ '/' := by rintro rfl; cases hc
      rw [List.singleton_append, hscan.char hquote hslash]
      exact .cons hg' (.mark hc) ih
    | @string ls body hbody =>
      rw [List.cons_append, List.append_assoc, List.singleton_append, hscan.strings.quote,
        hscan.strings.append hbody]
      have hlaid := Laid.cons hg' (.string hbody) ih
      rwa [List.cons_append, List.append_assoc, List.singleton_append] at hlaid
    | @word v m hv hm =>
      rw [hword hv hm]
      exact .cons hg' (.word hv rfl) ih

theorem Spaces.laid_separated {unclosed : Bool} {tokens : List Token}
    (ht : Laid (.separated unclosed) tokens t) : Laid .plain tokens (scan .plain t) :=
  hscan.laid (fun hw hm t => by cases hm; exact hscan.word hw.2 t) ht

end Scan

/-! ### Inside words -/

/-- A block comment on one line is taken out without a trace. -/
theorem dropComments_oneLine {body : Text} (h : IsInside body) (hline : '\n' ∉ body) (t : Text) :
    dropComments .plain ('/' :: '*' :: (body ++ '*' :: '/' :: t)) = dropComments .plain t := by
  have hfilter : body.filter (· == '\n') = [] := by
    rw [List.filter_eq_nil_iff]
    intro c hc hfeed
    rw [LawfulBEq.eq_of_beq hfeed] at hc
    exact hline hc
  show dropComments .blockComment (body ++ '*' :: '/' :: t) = _
  rw [dropComments_block h (by simp), hfilter]
  rfl

theorem dropComments_interrupted {w m : Text} (h : Interrupted w m)
    (hw : ∀ c ∈ w, isWordChar c = true) (t : Text) :
    dropComments .plain (m ++ t) = w ++ dropComments .plain t := by
  induction h with
  | nil => rfl
  | @char c w m _ ih =>
    obtain ⟨hc, hw⟩ := List.forall_mem_cons.mp hw
    obtain ⟨-, -, hquote, hslash⟩ := isWordChar_iff.mp hc
    rw [List.cons_append, spaces_dropComments.char hquote hslash, ih hw]
    rfl
  | @comment body w m hbody hline _ ih =>
    rw [List.cons_append, List.cons_append, List.append_assoc, List.cons_append, List.cons_append,
      dropComments_oneLine hbody hline, ih hw]

/-! ### Which texts come out as plain layouts -/

/-- Behind its opening a block comment is closed, or it goes on to the end. -/
theorem isInside_or (t : Text) :
    IsInside t ∨ ∃ body rest, t = body ++ '*' :: '/' :: rest ∧ IsInside body := by
  have hnil : IsInside [] := by simp [IsInside]
  induction t with
  | nil => exact .inl hnil
  | cons c t ih =>
    by_cases hstart : c = '*' ∧ t.head? = some '/'
    · obtain ⟨rfl, hslash⟩ := hstart
      cases t with
      | nil => cases hslash
      | cons d rest =>
        cases hslash
        exact .inr ⟨[], rest, rfl, hnil⟩
    · rcases ih with h | ⟨body, rest, rfl, h⟩
      · exact .inl (isInside_cons.mpr ⟨h, hstart⟩)
      · refine .inr ⟨c :: body, rest, rfl, isInside_cons.mpr ⟨h, fun ⟨hc, hhead⟩ => ?_⟩⟩
        refine hstart ⟨hc, ?_⟩
        cases body with
        | nil => cases hhead
        | cons d body => exact hhead

/-- How a text outside of strings and comments begins. -/
inductive Begins : Text → Prop where
  | last {k : Text} : LastComment true k → Begins k
  | comment {k t : Text} : Comment k → Begins (k ++ t)
  | char {c : Char} {t : Text} :
      (∀ rest, c = '/' → t = '/' :: rest → False) → (∀ rest, c = '/' → t = '*' :: rest → False) →
      Begins (c :: t)

theorem begins (t : Text) : Begins t := by
  cases t with
  | nil => exact .last .none
  | cons c t =>
    by_cases hline : c = '/' ∧ t.head? = some '/'
    · obtain ⟨rfl, hhead⟩ := hline
      obtain ⟨t, rfl⟩ := List.head?_eq_some_iff.mp hhead
      by_cases hfeed : '\n' ∈ t
      · obtain ⟨body, rest, rfl, hbody⟩ := List.eq_append_cons_of_mem hfeed
        have hbegins := Begins.comment (t := rest) (.line hbody)
        rwa [List.cons_append, List.cons_append, List.append_assoc, List.singleton_append]
          at hbegins
      · exact .last (.line hfeed)
    · by_cases hblock : c = '/' ∧ t.head? = some '*'
      · obtain ⟨rfl, hhead⟩ := hblock
        obtain ⟨t, rfl⟩ := List.head?_eq_some_iff.mp hhead
        rcases isInside_or t with h | ⟨body, rest, rfl, h⟩
        · exact .last (.block rfl h)
        · have hbegins := Begins.comment (t := rest) (.block h)
          rwa [List.cons_append, List.cons_append, List.append_assoc] at hbegins
      · exact .char (fun rest hc ht => hline ⟨hc, by rw [ht]; rfl⟩)
          (fun rest hc ht => hblock ⟨hc, by rw [ht]; rfl⟩)

theorem isSpace_eq_false {c : Char} (h : isWordChar c = true) : isSpace c = false := by
  rw [Bool.eq_false_iff]
  intro hspace
  have hblank := (isWordChar_iff.mp h).1
  rw [isBlank_of_isSpace hspace] at hblank
  cases hblank

/-- A comment that leaves nothing in front of a word is a block comment on one line. -/
theorem oneLine_of_dropComments {k t out : Text} {c : Char} (hk : Comment k)
    (hc : isWordChar c = true) (ht : dropComments .plain (k ++ t) = c :: out) :
    ∃ body, k = '/' :: '*' :: (body ++ ['*', '/']) ∧ IsInside body ∧ '\n' ∉ body := by
  have hspace := isSpace_eq_false hc
  cases hk with
  | @line body hbody =>
    have hfeed : dropComments .plain ('/' :: '/' :: (body ++ ['\n']) ++ t) =
        '\n' :: dropComments .plain t := by
      show dropComments .lineComment (body ++ ['\n'] ++ t) = _
      rw [List.append_assoc, dropComments_line hbody]
      rfl
    rw [hfeed] at ht
    rw [← (List.cons.inj ht).1] at hc
    cases hc
  | @block body hbody =>
    refine ⟨body, rfl, hbody, fun hfeed => ?_⟩
    have hblock : dropComments .plain ('/' :: '*' :: (body ++ ['*', '/']) ++ t) =
        body.filter (· == '\n') ++ dropComments .plain t := by
      show dropComments .blockComment (body ++ ['*', '/'] ++ t) = _
      rw [List.append_assoc, dropComments_block hbody (by simp)]
      rfl
    rw [hblock] at ht
    cases hfilter : body.filter (· == '\n') with
    | nil => exact List.filter_eq_nil_iff.mp hfilter '\n' hfeed rfl
    | cons d ds =>
      have hd := isSpace_of_mem_filter body d (by rw [hfilter]; exact List.mem_cons_self)
      rw [hfilter] at ht
      rw [(List.cons.inj ht).1, hspace] at hd
      cases hd

/-- A word that comes out was there, with comments inside of it. -/
theorem exists_interrupted : ∀ (n : Nat) {t w out : Text}, t.length ≤ n →
    (∀ c ∈ w, isWordChar c = true) → dropComments .plain t = w ++ out →
    ∃ m rest, t = m ++ rest ∧ Interrupted w m ∧ dropComments .plain rest = out := by
  -- on the length of the text, as a comment is passed over as a whole
  intro n
  induction n with
  | zero =>
    intro t w out hn hw ht
    cases List.length_eq_zero_iff.mp (Nat.le_zero.mp hn)
    obtain ⟨rfl, rfl⟩ := List.append_eq_nil_iff.mp ht.symm
    exact ⟨[], [], rfl, .nil, rfl⟩
  | succ n ih =>
    intro t w out hn hw ht
    cases w with
    | nil => exact ⟨[], t, rfl, .nil, ht⟩
    | cons c w =>
      obtain ⟨hc, hw'⟩ := List.forall_mem_cons.mp hw
      cases begins t with
      | last hk =>
        have hall := spaces_dropComments.last hk c (by rw [ht]; exact List.mem_cons_self)
        rw [isSpace_eq_false hc] at hall
        cases hall
      | @comment k t hk =>
        obtain ⟨body, rfl, hbody, hline⟩ := oneLine_of_dropComments hk hc ht
        have hsplit : ('/' :: '*' :: (body ++ ['*', '/']) ++ t : Text) =
            '/' :: '*' :: (body ++ '*' :: '/' :: t) := by
          rw [List.cons_append, List.cons_append, List.append_assoc]
          rfl
        rw [hsplit] at hn ht ⊢
        rw [dropComments_oneLine hbody hline] at ht
        simp only [List.length_cons, List.length_append] at hn
        obtain ⟨m, rest, rfl, hm, hout⟩ := ih (by omega) hw ht
        refine ⟨_, rest, ?_, .comment hbody hline hm, hout⟩
        simp only [List.cons_append, List.append_assoc]
      | @char d t hline hblock =>
        rw [dropComments.eq_9 d t hline hblock] at ht
        obtain ⟨rfl, htail⟩ := List.cons.inj ht
        obtain ⟨-, -, hquote, -⟩ := isWordChar_iff.mp hc
        rw [if_neg (by simpa using hquote)] at htail
        obtain ⟨m, rest, rfl, hm, hout⟩ := ih (Nat.le_of_succ_le_succ hn) hw' htail
        exact ⟨_, rest, rfl, .char hm, hout⟩

/-- A token that comes out was there, with comments inside of it if it is a word. -/
theorem exists_token {c : Char} {t : Text} (hline : ∀ rest, c = '/' → t = '/' :: rest → False)
    (hblock : ∀ rest, c = '/' → t = '*' :: rest → False) {token : Token} {w out : Text}
    (hw : Writes .plain token w) (ht : dropComments .plain (c :: t) = w ++ out) :
    ∃ m rest, t = m ++ rest ∧ Writes .loose token (c :: m) ∧ dropComments .plain rest = out := by
  rw [dropComments.eq_9 c t hline hblock] at ht
  cases hw with
  | mark hc =>
    obtain ⟨rfl, htail⟩ := List.cons.inj ht
    have hquote : c ≠ '"' := by rintro rfl; cases hc
    rw [if_neg (by simpa using hquote)] at htail
    exact ⟨[], t, rfl, .mark hc, htail⟩
  | @string ls body hbody =>
    obtain ⟨rfl, htail⟩ := List.cons.inj ht
    have hstring : dropComments .string t = body ++ '"' :: out := by
      rw [← List.singleton_append, ← List.append_assoc]
      exact htail
    obtain ⟨rest, rfl, hrest⟩ := keepsStrings_dropComments.exists_append hbody hstring
    refine ⟨body ++ ['"'], rest, ?_, .string hbody, hrest⟩
    rw [List.append_assoc, List.singleton_append]
  | @word w _ hword hw =>
    cases hw
    obtain ⟨hne, hall⟩ := hword
    cases w with
    | nil => exact absurd rfl hne
    | cons d w =>
      obtain ⟨rfl, htail⟩ := List.cons.inj ht
      obtain ⟨hc, hall'⟩ := List.forall_mem_cons.mp hall
      obtain ⟨-, -, hquote, -⟩ := isWordChar_iff.mp hc
      rw [if_neg (by simpa using hquote)] at htail
      obtain ⟨m, rest, rfl, hm, hout⟩ := exists_interrupted t.length (Nat.le_refl _) hall' htail
      exact ⟨m, rest, rfl, .word ⟨hne, hall⟩ (.char hm), hout⟩

theorem loose_of_dropComments : ∀ (n : Nat) {t : Text} {tokens : List Token}, t.length ≤ n →
    Laid .plain tokens (dropComments .plain t) → Laid .loose tokens t := by
  -- on the length of the text: in front of the first token may be comments, each one a step
  intro n
  induction n with
  | zero =>
    intro t tokens hn ht
    cases List.length_eq_zero_iff.mp (Nat.le_zero.mp hn)
    exact ht.commented.loose
  | succ n ih =>
    intro t tokens hn ht
    cases begins t with
    | last hk =>
      cases tokens with
      | nil => exact .nil ⟨[], t, rfl, .nil, hk⟩
      | cons token tokens =>
        obtain ⟨w, rest, hskip, hw, -⟩ := laid_plain_cons.mp ht
        obtain ⟨c, tail, rfl, -⟩ := hw.head
        have hnil := skip_append (spaces_dropComments.last hk) (t := [])
        rw [List.append_nil, hskip] at hnil
        cases hnil
    | @comment k t hk =>
      obtain ⟨g, hg, hscanned⟩ := spaces_dropComments.comment hk
      rw [hscanned, ← laid_plain_skip, skip_append hg, laid_plain_skip] at ht
      have hpos : 0 < k.length := by cases hk <;> simp
      rw [List.length_append] at hn
      have hgap := Gap.comment hk .nil
      rw [List.append_nil] at hgap
      exact (ih (by omega) ht).behind_gap hgap
    | @char c t hline hblock =>
      have hn' : t.length ≤ n := Nat.le_of_succ_le_succ hn
      cases hspace : isSpace c with
      | true =>
        have hquote : c ≠ '"' := by rintro rfl; cases hspace
        rw [dropComments.eq_9 c t hline hblock, if_neg (by simpa using hquote), ← laid_plain_skip,
          ← List.singleton_append, skip_append (by simpa using hspace), laid_plain_skip] at ht
        exact (ih hn' ht).behind_gap (.space hspace .nil)
      | false =>
        have hhead : skip (dropComments .plain (c :: t)) = dropComments .plain (c :: t) := by
          rw [dropComments.eq_9 c t hline hblock, skip_cons hspace]
        cases tokens with
        | nil =>
          rw [laid_plain_nil, hhead, dropComments.eq_9 c t hline hblock] at ht
          cases ht
        | cons token tokens =>
          obtain ⟨w, out, hskip, hw, hout⟩ := laid_plain_cons.mp ht
          rw [hhead] at hskip
          obtain ⟨m, rest, rfl, hm, rfl⟩ := exists_token hline hblock hw hskip
          rw [List.length_append] at hn'
          exact .cons Gap.nil hm (ih (by omega) hout)

/-- The texts that come out as plain layouts are those with comments between and inside their
tokens. -/
theorem laid_dropComments_iff {t : Text} {tokens : List Token} :
    Laid .plain tokens (dropComments .plain t) ↔ Laid .loose tokens t :=
  ⟨loose_of_dropComments t.length (Nat.le_refl _),
    spaces_dropComments.laid fun hw hm => dropComments_interrupted hm hw.2⟩

end Relaxed
end Json
end TestTransform
