/-
The grammar of JSON text, and that the reader keeps to it.

A text is laid out as tokens with gaps in front of them, the tokens spell a form, and the form
denotes a value.  How gaps and words are written is a parameter, as is where a comma may stand
in front of a closing bracket; the reader knows the plainest style and the strictest grammar,
and there it finds every form that is spelled, and no other.
-/
import TestTransform.Proofs.Json.Reread

namespace TestTransform
namespace Json

open Form

/-! ## Tokens -/

/-- A token of JSON text.  A word is a numeral or one of the names of values. -/
inductive Token where
  | mark (c : Char)
  | string (letters : List Letter)
  | word (text : Text)
  deriving DecidableEq, Repr

def isMark (c : Char) : Bool :=
  c == '{' || c == '}' || c == '[' || c == ']' || c == ':' || c == ','

def isWordChar (c : Char) : Bool := !(Text.isBlank c || isMark c || c == '"' || c == '/')

def IsWord (w : Text) : Prop := w ≠ [] ∧ ∀ c ∈ w, isWordChar c = true

instance (w : Text) : Decidable (IsWord w) :=
  decidable_of_iff (w ≠ [] ∧ w.all isWordChar = true) (and_congr_right' List.all_eq_true)

/-- Whether a text writes the letters of a string. -/
inductive WritesLetters : List Letter → Text → Prop where
  | nil : WritesLetters [] []
  | plain {c : Char} {ls : List Letter} {t : Text} : 32 ≤ c.toNat → c ≠ '"' → c ≠ '\\' →
      WritesLetters ls t → WritesLetters (.char c :: ls) (c :: t)
  | escape {e c : Char} {ls : List Letter} {t : Text} : simpleEscape? e = some c →
      WritesLetters ls t → WritesLetters (.char c :: ls) ('\\' :: e :: t)
  | unit {a b c d : Char} {n : Nat} {ls : List Letter} {t : Text} : hex4? a b c d = some n →
      WritesLetters ls t → WritesLetters (.unit n :: ls) ('\\' :: 'u' :: a :: b :: c :: d :: t)

/-- How tokens are put into a text. -/
structure Style where
  /-- What may stand in front of a token. -/
  gap : Text → Prop
  /-- What may stand behind the last token. -/
  ending : Text → Prop
  /-- How a word may be written. -/
  word : Text → Text → Prop

/-- Whether a text writes a token. -/
inductive Writes (style : Style) : Token → Text → Prop where
  | mark {c : Char} : isMark c = true → Writes style (.mark c) [c]
  | string {ls : List Letter} {t : Text} : WritesLetters ls t →
      Writes style (.string ls) ('"' :: (t ++ ['"']))
  | word {w t : Text} : IsWord w → style.word w t → Writes style (.word w) t

/-- Whether tokens are laid out as a text. -/
inductive Laid (style : Style) : List Token → Text → Prop where
  | nil {t : Text} : style.ending t → Laid style [] t
  | cons {token : Token} {tokens : List Token} {gap w t : Text} : style.gap gap →
      Writes style token w → Laid style tokens t → Laid style (token :: tokens) (gap ++ (w ++ t))

/-- The style of plain JSON: nothing but spaces between the tokens. -/
def Style.plain : Style where
  gap g := ∀ c ∈ g, isSpace c = true
  ending g := ∀ c ∈ g, isSpace c = true
  word w t := t = w

/-! ## Characters -/

theorem isBlank_of_isSpace {c : Char} (h : isSpace c = true) : Text.isBlank c = true := by
  simp only [isSpace, Bool.or_eq_true] at h
  rcases h with ((h | h) | h) | h <;> (rw [LawfulBEq.eq_of_beq h]; rfl)

theorem isBlank_of_isMark {c : Char} (h : isMark c = true) : Text.isBlank c = false := by
  simp only [isMark, Bool.or_eq_true] at h
  rcases h with ((((h | h) | h) | h) | h) | h <;> (rw [LawfulBEq.eq_of_beq h]; rfl)

theorem isWordChar_iff {c : Char} : isWordChar c = true ↔
    Text.isBlank c = false ∧ isMark c = false ∧ c ≠ '"' ∧ c ≠ '/' := by
  simp [isWordChar, and_assoc]

theorem isWordChar_of_number {c : Char} (h : isNumberChar c = true) : isWordChar c = true := by
  simp only [isNumberChar, Bool.or_eq_true] at h
  rcases h with ((((h | h) | h) | h) | h) | h
  · have hne : ∀ d, Text.isDigit d = false → (c == d) = false := by
      intro d hd
      rw [beq_eq_false_iff_ne]
      rintro rfl
      rw [h] at hd
      cases hd
    have hblank : Text.isBlank c = false := by
      simp only [Text.isDigit, Bool.and_eq_true, decide_eq_true_eq] at h
      simp only [Text.isBlank, Bool.or_eq_false_iff, Bool.and_eq_false_iff, decide_eq_false_iff_not,
        beq_eq_false_iff_ne, ne_eq]
      omega
    simp only [isWordChar, isMark, hblank, hne '{' rfl, hne '}' rfl, hne '[' rfl, hne ']' rfl,
      hne ':' rfl, hne ',' rfl, hne '"' rfl, hne '/' rfl]
    rfl
  all_goals (rw [LawfulBEq.eq_of_beq h]; rfl)

/-- What a token is written as begins with no space. -/
theorem Writes.head {token : Token} {w : Text} (h : Writes .plain token w) :
    ∃ c tail, w = c :: tail ∧ Text.isBlank c = false := by
  cases h with
  | mark hc => exact ⟨_, _, rfl, isBlank_of_isMark hc⟩
  | string _ => exact ⟨_, _, rfl, rfl⟩
  | @word w t hword ht =>
    cases ht
    obtain ⟨hne, hall⟩ := hword
    cases w with
    | nil => exact absurd rfl hne
    | cons c tail => exact ⟨c, tail, rfl, (isWordChar_iff.mp (hall c List.mem_cons_self)).1⟩

theorem skip_append {g t : Text} (hg : ∀ c ∈ g, isSpace c = true) : skip (g ++ t) = skip t :=
  List.dropWhile_append_of_pos hg

theorem skip_of_head {c : Char} (h : Text.isBlank c = false) (t : Text) :
    skip (c :: t) = c :: t := by
  refine skip_cons ?_ t
  rw [Bool.eq_false_iff]
  intro hspace
  rw [isBlank_of_isSpace hspace] at h
  cases h

theorem skip_skip (t : Text) : skip (skip t) = skip t := by
  have hhead := List.head?_dropWhile_not isSpace t
  cases h : skip t with
  | nil => rfl
  | cons c tail =>
    rw [show t.dropWhile isSpace = c :: tail from h] at hhead
    exact skip_cons hhead tail

/-- A text is some spaces and what is behind them. -/
theorem exists_spaces (t : Text) : ∃ g, t = g ++ skip t ∧ ∀ c ∈ g, isSpace c = true :=
  ⟨t.takeWhile isSpace, List.takeWhile_append_dropWhile.symm,
    (List.all_eq_true.mp List.all_takeWhile)⟩

/-! ## Layouts with spaces -/

section Layout

variable {tokens : List Token} {t : Text}

theorem laid_plain_nil : Laid .plain [] t ↔ skip t = [] := by
  constructor
  · intro h
    cases h with
    | nil h => exact (congrArg skip (List.append_nil t).symm).trans (skip_append h)
  · intro h
    obtain ⟨gap, ht, hgap⟩ := exists_spaces t
    rw [ht, h, List.append_nil]
    exact .nil hgap

theorem laid_plain_cons {token : Token} : Laid .plain (token :: tokens) t ↔
    ∃ w rest, skip t = w ++ rest ∧ Writes .plain token w ∧ Laid .plain tokens rest := by
  constructor
  · intro h
    cases h with
    | @cons _ _ gap w rest hgap hw hrest =>
      obtain ⟨c, tail, rfl, hc⟩ := hw.head
      exact ⟨_, rest, by rw [skip_append hgap, List.cons_append, skip_of_head hc], hw, hrest⟩
  · rintro ⟨w, rest, hskip, hw, hrest⟩
    obtain ⟨gap, ht, hgap⟩ := exists_spaces t
    rw [ht, hskip]
    exact .cons hgap hw hrest

theorem laid_plain_skip : Laid .plain tokens (skip t) ↔ Laid .plain tokens t := by
  cases tokens with
  | nil => rw [laid_plain_nil, laid_plain_nil, skip_skip]
  | cons token tokens => rw [laid_plain_cons, laid_plain_cons, skip_skip]

theorem laid_plain_mark {c : Char} : Laid .plain (.mark c :: tokens) t ↔
    isMark c = true ∧ ∃ rest, skip t = c :: rest ∧ Laid .plain tokens rest := by
  rw [laid_plain_cons]
  constructor
  · rintro ⟨w, rest, hskip, hw, hrest⟩
    cases hw with
    | mark hc => exact ⟨hc, rest, hskip, hrest⟩
  · rintro ⟨hc, rest, hskip, hrest⟩
    exact ⟨_, rest, hskip, .mark hc, hrest⟩

theorem laid_plain_word {w : Text} : Laid .plain (.word w :: tokens) t ↔
    IsWord w ∧ ∃ rest, skip t = w ++ rest ∧ Laid .plain tokens rest := by
  rw [laid_plain_cons]
  constructor
  · rintro ⟨v, rest, hskip, hv, hrest⟩
    cases hv with
    | word hw hv =>
      cases hv
      exact ⟨hw, rest, hskip, hrest⟩
  · rintro ⟨hw, rest, hskip, hrest⟩
    exact ⟨w, rest, hskip, .word hw rfl, hrest⟩

end Layout

/-! ## Strings -/

theorem string?_written {ls : List Letter} {t : Text} (h : WritesLetters ls t) (rest : Text) :
    string? (t ++ '"' :: rest) = some (ls, rest) := by
  induction h with
  | nil => rfl
  | @plain c ls t hlow hquote hslash _ ih =>
    have hplain : (decide (c.toNat < 32) || c == '\\') = false := by
      simp only [Bool.or_eq_false_iff, decide_eq_false_iff_not, beq_eq_false_iff_ne]
      exact ⟨by omega, hslash⟩
    rw [List.cons_append, string?.eq_5 c _ (fun h => hquote h) (fun _ _ _ _ _ h _ => hslash h)
      (fun _ _ h _ => hslash h), hplain, ih]
    rfl
  | @escape e c ls t he _ ih =>
    have hunit : ∀ (a b c d : Char) (s : Text), e = 'u' → t ++ '"' :: rest = a :: b :: c :: d :: s →
        False := by
      rintro a b c d s rfl -
      cases he
    rw [List.cons_append, List.cons_append, string?, he, ih]
    · rfl
    · exact hunit
  | @unit a b c d n ls t hn _ ih =>
    simp only [List.cons_append, string?, hn, ih]
    rfl

theorem writesLetters_of_string? {t : Text} {ls : List Letter} {rest : Text}
    (h : string? t = some (ls, rest)) :
    ∃ body, t = body ++ '"' :: rest ∧ WritesLetters ls body := by
  induction t using string?.induct generalizing ls rest with
  | case1 => cases h
  | case2 tail =>
    cases h
    exact ⟨[], rfl, .nil⟩
  | case3 a b c d tail ih =>
    rw [string?] at h
    obtain ⟨n, hn, h⟩ := Option.bind_eq_some_iff.mp h
    obtain ⟨⟨ls', rest'⟩, htail, h⟩ := Option.bind_eq_some_iff.mp h
    cases h
    obtain ⟨body, rfl, hbody⟩ := ih htail
    exact ⟨_, rfl, .unit hn hbody⟩
  | case4 e tail hunit ih =>
    rw [string?] at h
    · obtain ⟨c, hc, h⟩ := Option.bind_eq_some_iff.mp h
      obtain ⟨⟨ls', rest'⟩, htail, h⟩ := Option.bind_eq_some_iff.mp h
      cases h
      obtain ⟨body, rfl, hbody⟩ := ih htail
      exact ⟨_, rfl, .escape hc hbody⟩
    · exact hunit
  | case5 c tail hquote hunit hescape hlow =>
    rw [string?.eq_5 c tail hquote hunit hescape, if_pos hlow] at h
    cases h
  | case6 c tail hquote hunit hescape hlow ih =>
    rw [string?.eq_5 c tail hquote hunit hescape, if_neg hlow] at h
    obtain ⟨⟨ls', rest'⟩, htail, h⟩ := Option.bind_eq_some_iff.mp h
    cases h
    obtain ⟨body, rfl, hbody⟩ := ih htail
    simp only [Bool.or_eq_true, decide_eq_true_eq, not_or] at hlow
    exact ⟨_, rfl, .plain (by omega) hquote (by simpa using hlow.2) hbody⟩

theorem laid_plain_string {tokens : List Token} {t : Text} {ls : List Letter} :
    Laid .plain (.string ls :: tokens) t ↔
      ∃ tail rest, skip t = '"' :: tail ∧ string? tail = some (ls, rest) ∧
        Laid .plain tokens rest := by
  rw [laid_plain_cons]
  constructor
  · rintro ⟨w, rest, hskip, hw, hrest⟩
    cases hw with
    | @string _ body hbody =>
      refine ⟨body ++ '"' :: rest, rest, ?_, string?_written hbody rest, hrest⟩
      rw [hskip, List.cons_append, List.append_assoc, List.singleton_append]
  · rintro ⟨tail, rest, hskip, hstring, hrest⟩
    obtain ⟨body, rfl, hbody⟩ := writesLetters_of_string? hstring
    refine ⟨_, rest, ?_, .string hbody, hrest⟩
    rw [hskip, List.cons_append, List.append_assoc, List.singleton_append]

/-! ## Spelling -/

/-- Where a comma may stand in front of a closing bracket. -/
structure Commas where
  behindItem : Bool
  behindOpening : Bool

/-- The commas of plain JSON. -/
def Commas.strict : Commas := ⟨false, false⟩

/-- Whether tokens begin with a closing bracket, or with a comma and one if that is allowed. -/
inductive Closes (comma : Bool) (c : Char) : List Token → List Token → Prop where
  | mark {us : List Token} : Closes comma c (.mark c :: us) us
  | comma {us : List Token} : comma = true → Closes comma c (.mark ',' :: .mark c :: us) us

/-- The word for a truth value. -/
def boolWord (b : Bool) : Text := if b then "true" else "false"

mutual

/-- Whether tokens begin with the spelling of a form, and go on with the given ones. -/
inductive Spells (commas : Commas) : Form → List Token → List Token → Prop where
  | null {us : List Token} : Spells commas .null (.word "null" :: us) us
  | bool {b : Bool} {us : List Token} : Spells commas (.bool b) (.word (boolWord b) :: us) us
  | num {n : Numeral} {w : Text} {us : List Token} : n.IsWritten w →
      Spells commas (.num n) (.word w :: us) us
  | str {ls : List Letter} {us : List Token} : Spells commas (.str ls) (.string ls :: us) us
  | emptyArr {ts us : List Token} : Closes commas.behindOpening ']' ts us →
      Spells commas (.arr []) (.mark '[' :: ts) us
  | arr {xs : List Form} {ts us : List Token} : SpellsItems commas xs ts us →
      Spells commas (.arr xs) (.mark '[' :: ts) us
  | emptyObj {ts us : List Token} : Closes commas.behindOpening '}' ts us →
      Spells commas (.obj []) (.mark '{' :: ts) us
  | obj {fs : List (List Letter × Form)} {ts us : List Token} : SpellsFields commas fs ts us →
      Spells commas (.obj fs) (.mark '{' :: ts) us

/-- The items of an array that is not empty, up to its bracket. -/
inductive SpellsItems (commas : Commas) : List Form → List Token → List Token → Prop where
  | last {x : Form} {ts us vs : List Token} : Spells commas x ts us →
      Closes commas.behindItem ']' us vs → SpellsItems commas [x] ts vs
  | cons {x : Form} {xs : List Form} {ts us vs : List Token} :
      Spells commas x ts (.mark ',' :: us) → SpellsItems commas xs us vs →
      SpellsItems commas (x :: xs) ts vs

/-- The fields of an object that is not empty, up to its brace. -/
inductive SpellsFields (commas : Commas) :
    List (List Letter × Form) → List Token → List Token → Prop where
  | last {name : List Letter} {x : Form} {ts us vs : List Token} : Spells commas x ts us →
      Closes commas.behindItem '}' us vs →
      SpellsFields commas [(name, x)] (.string name :: .mark ':' :: ts) vs
  | cons {name : List Letter} {x : Form} {fs : List (List Letter × Form)} {ts us vs : List Token} :
      Spells commas x ts (.mark ',' :: us) → SpellsFields commas fs us vs →
      SpellsFields commas ((name, x) :: fs) (.string name :: .mark ':' :: ts) vs

end

/-! ## What the reader finds is spelled -/

theorem isWord_boolWord (b : Bool) : IsWord (boolWord b) := by
  cases b <;> decide

theorem Numeral.IsWritten.isWord {n : Numeral} {w : Text} (h : n.IsWritten w) : IsWord w :=
  ⟨h.isNumberText.1, fun c hc => isWordChar_of_number (h.isNumberText.2 c hc)⟩

mutual

theorem spells_of_parse? : ∀ {fuel : Nat} {t rest : Text} {f : Form} {us : List Token},
    parse? fuel t = some (f, rest) → Laid .plain us rest →
    ∃ ts, Spells .strict f ts us ∧ Laid .plain ts t
  | 0, _, _, _, _, h, _ => by cases h
  | fuel + 1, t, rest, f, us, h, hrest => by
    rw [parse?] at h
    split at h
    · rename_i tail hskip
      split at h
      · rename_i tail' hskip'
        cases h
        exact ⟨_, .emptyObj .mark, laid_plain_mark.mpr ⟨rfl, tail, hskip,
          laid_plain_mark.mpr ⟨rfl, rest, hskip', hrest⟩⟩⟩
      · obtain ⟨⟨fs, rest'⟩, hfields, heq⟩ := Option.map_eq_some_iff.mp h
        cases heq
        obtain ⟨ts, hts, hlaid⟩ := spells_of_fields? hfields hrest
        exact ⟨_, .obj hts, laid_plain_mark.mpr ⟨rfl, tail, hskip, laid_plain_skip.mp hlaid⟩⟩
    · rename_i tail hskip
      split at h
      · rename_i tail' hskip'
        cases h
        exact ⟨_, .emptyArr .mark, laid_plain_mark.mpr ⟨rfl, tail, hskip,
          laid_plain_mark.mpr ⟨rfl, rest, hskip', hrest⟩⟩⟩
      · obtain ⟨⟨xs, rest'⟩, hitems, heq⟩ := Option.map_eq_some_iff.mp h
        cases heq
        obtain ⟨ts, hts, hlaid⟩ := spells_of_items? hitems hrest
        exact ⟨_, .arr hts, laid_plain_mark.mpr ⟨rfl, tail, hskip, laid_plain_skip.mp hlaid⟩⟩
    · rename_i tail hskip
      obtain ⟨⟨ls, rest'⟩, hstring, heq⟩ := Option.map_eq_some_iff.mp h
      cases heq
      exact ⟨_, .str, laid_plain_string.mpr ⟨tail, rest, hskip, hstring, hrest⟩⟩
    · rename_i tail hskip
      cases h
      exact ⟨_, .null, laid_plain_word.mpr ⟨by decide, rest, hskip, hrest⟩⟩
    · rename_i tail hskip
      cases h
      exact ⟨_, .bool, laid_plain_word.mpr ⟨isWord_boolWord true, rest, hskip, hrest⟩⟩
    · rename_i tail hskip
      cases h
      exact ⟨_, .bool, laid_plain_word.mpr ⟨isWord_boolWord false, rest, hskip, hrest⟩⟩
    · obtain ⟨⟨n, rest'⟩, hnumeral, heq⟩ := Option.map_eq_some_iff.mp h
      cases heq
      obtain ⟨w, hskip, hw⟩ := Numeral.isWritten_of_numeral? hnumeral
      exact ⟨_, .num hw, laid_plain_word.mpr ⟨hw.isWord, rest, hskip, hrest⟩⟩

theorem spells_of_items? : ∀ {fuel : Nat} {t rest : Text} {xs : List Form} {us : List Token},
    Form.items? fuel t = some (xs, rest) → Laid .plain us rest →
    ∃ ts, SpellsItems .strict xs ts us ∧ Laid .plain ts t
  | 0, _, _, _, _, h, _ => by cases h
  | fuel + 1, t, rest, xs, us, h, hrest => by
    rw [Form.items?] at h
    split at h
    · cases h
    · rename_i x behind hx
      split at h
      · rename_i tail hskip
        obtain ⟨⟨xs', rest'⟩, hitems, heq⟩ := Option.map_eq_some_iff.mp h
        cases heq
        obtain ⟨vs, hvs, hlaid⟩ := spells_of_items? hitems hrest
        obtain ⟨ts, hts, hlaid⟩ := spells_of_parse? hx
          (laid_plain_mark.mpr ⟨rfl, tail, hskip, hlaid⟩)
        exact ⟨ts, .cons hts hvs, hlaid⟩
      · rename_i tail hskip
        cases h
        obtain ⟨ts, hts, hlaid⟩ := spells_of_parse? hx
          (laid_plain_mark.mpr ⟨rfl, rest, hskip, hrest⟩)
        exact ⟨ts, .last hts .mark, hlaid⟩
      · cases h

theorem spells_of_fields? : ∀ {fuel : Nat} {t rest : Text} {fs : List (List Letter × Form)}
    {us : List Token}, Form.fields? fuel t = some (fs, rest) → Laid .plain us rest →
    ∃ ts, SpellsFields .strict fs ts us ∧ Laid .plain ts t
  | 0, _, _, _, _, h, _ => by cases h
  | fuel + 1, t, rest, fs, us, h, hrest => by
    rw [Form.fields?] at h
    split at h
    · rename_i opened hopened
      split at h
      · cases h
      · rename_i name closed hname
        split at h
        · rename_i valued hvalued
          have hfield : ∀ {ts}, Laid .plain ts valued →
              Laid .plain (.string name :: .mark ':' :: ts) t := fun hts =>
            laid_plain_string.mpr ⟨opened, closed, hopened, hname,
              laid_plain_mark.mpr ⟨rfl, valued, hvalued, hts⟩⟩
          split at h
          · cases h
          · rename_i x behind hx
            split at h
            · rename_i tail hskip
              obtain ⟨⟨fs', rest'⟩, hfields, heq⟩ := Option.map_eq_some_iff.mp h
              cases heq
              obtain ⟨vs, hvs, hlaid⟩ := spells_of_fields? hfields hrest
              obtain ⟨ts, hts, hlaid⟩ := spells_of_parse? hx
                (laid_plain_mark.mpr ⟨rfl, tail, hskip, hlaid⟩)
              exact ⟨_, .cons hts hvs, hfield hlaid⟩
            · rename_i tail hskip
              cases h
              obtain ⟨ts, hts, hlaid⟩ := spells_of_parse? hx
                (laid_plain_mark.mpr ⟨rfl, rest, hskip, hrest⟩)
              exact ⟨_, .last hts .mark, hfield hlaid⟩
            · cases h
        · cases h
    · cases h

end

/-! ## What is spelled is found -/

section Length

variable {commas : Commas} {ts us : List Token}

theorem Closes.length_lt {comma : Bool} {c : Char} (h : Closes comma c ts us) :
    us.length < ts.length := by
  cases h <;> (simp only [List.length_cons]; omega)

mutual

theorem Spells.length_lt : ∀ {f : Form} {ts us : List Token}, Spells commas f ts us →
    us.length < ts.length
  | .null, _, _, h | .bool _, _, _, h | .num _, _, _, h | .str _, _, _, h => by
    cases h
    exact Nat.lt_succ_self _
  | .arr xs, _, _, h => by
    cases h with
    | emptyArr h => exact h.length_lt.trans (Nat.lt_succ_self _)
    | arr h => exact (h.length_lt).trans (Nat.lt_succ_self _)
  | .obj fs, _, _, h => by
    cases h with
    | emptyObj h => exact h.length_lt.trans (Nat.lt_succ_self _)
    | obj h => exact (h.length_lt).trans (Nat.lt_succ_self _)

theorem SpellsItems.length_lt : ∀ {xs : List Form} {ts us : List Token},
    SpellsItems commas xs ts us → us.length < ts.length
  | _ :: _, _, _, h => by
    cases h with
    | last hx hclose => exact hclose.length_lt.trans hx.length_lt
    | cons hx hxs => exact hxs.length_lt.trans ((Nat.lt_succ_self _).trans hx.length_lt)

theorem SpellsFields.length_lt : ∀ {fs : List (List Letter × Form)} {ts us : List Token},
    SpellsFields commas fs ts us → us.length < ts.length
  | _ :: _, _, _, h => by
    cases h with
    | last hx hclose =>
      have hlt := hclose.length_lt.trans hx.length_lt
      simp only [List.length_cons]
      omega
    | cons hx hfs =>
      have hlt := hfs.length_lt.trans ((Nat.lt_succ_self _).trans hx.length_lt)
      simp only [List.length_cons]
      omega

end

end Length

/-- Whether a token may begin the spelling of a form. -/
def Token.opens : Token → Bool
  | .mark c => c == '[' || c == '{'
  | .string _ | .word _ => true

def beginsWord : List Token → Bool
  | .word _ :: _ => true
  | _ => false

theorem Spells.opens {commas : Commas} {f : Form} {ts us : List Token}
    (h : Spells commas f ts us) : ∃ token tail, ts = token :: tail ∧ token.opens = true := by
  cases h <;> exact ⟨_, _, rfl, rfl⟩

theorem SpellsItems.opens {commas : Commas} {xs : List Form} {ts us : List Token}
    (h : SpellsItems commas xs ts us) : ∃ token tail, ts = token :: tail ∧ token.opens = true := by
  cases h with
  | last hx _ => exact hx.opens
  | cons hx _ => exact hx.opens

section Complete

variable {fuel : Nat} {t : Text} {ts us : List Token}

theorem closes_strict {c : Char} (h : Closes Commas.strict.behindItem c ts us) :
    ts = .mark c :: us := by
  cases h with
  | mark => rfl
  | comma h => cases h

/-- No form begins like the end of an array. -/
theorem skip_ne_of_opens {token : Token} (hopens : token.opens = true)
    (ht : Laid .plain (token :: ts) t) (s : Text) : skip t ≠ ']' :: s := by
  intro hs
  obtain ⟨w, rest, hskip, hw, -⟩ := laid_plain_cons.mp ht
  rw [hs] at hskip
  cases hw with
  | mark hc =>
    cases hskip
    cases hopens
  | string _ => cases hskip
  | word hword hw =>
    cases hw
    obtain ⟨hne, hall⟩ := hword
    cases w with
    | nil => exact hne rfl
    | cons c w =>
      cases hskip
      cases hall _ List.mem_cons_self

/-- Behind what is not a word no number goes on. -/
theorem stops_of_laid (ht : Laid .plain us t) (hus : beginsWord us = false) : Stops t := by
  intro c hc
  cases t with
  | nil => cases hc
  | cons d tail =>
    cases hc
    rw [Bool.eq_false_iff]
    intro hnumber
    obtain ⟨hblank, hmark, hquote, -⟩ := isWordChar_iff.mp (isWordChar_of_number hnumber)
    have hskip := skip_of_head hblank tail
    cases us with
    | nil =>
      rw [laid_plain_nil, hskip] at ht
      cases ht
    | cons token us =>
      cases token with
      | mark m =>
        obtain ⟨hm, rest, hrest, -⟩ := laid_plain_mark.mp ht
        rw [hskip] at hrest
        cases hrest
        rw [hm] at hmark
        cases hmark
      | string ls =>
        obtain ⟨_, _, hrest, -⟩ := laid_plain_string.mp ht
        rw [hskip] at hrest
        exact hquote (List.cons.inj hrest).1
      | word w => cases hus

theorem parse?_arr {tail : Text} (hskip : skip t = '[' :: tail)
    (hne : ∀ s, skip tail ≠ ']' :: s) : parse? (fuel + 1) t =
      (Form.items? fuel (skip tail)).map fun found => (.arr found.1, found.2) := by
  simp only [parse?, hskip]

theorem parse?_obj {tail : Text} (hskip : skip t = '{' :: tail)
    (hne : ∀ s, skip tail ≠ '}' :: s) : parse? (fuel + 1) t =
      (Form.fields? fuel (skip tail)).map fun found => (.obj found.1, found.2) := by
  simp only [parse?, hskip]

theorem parse?_num {n : Numeral} {w rest : Text} (hw : n.IsWritten w)
    (hskip : skip t = w ++ rest) (hrest : Stops rest) :
    parse? (fuel + 1) t = some (.num n, rest) := by
  obtain ⟨hne, hall⟩ := hw.isNumberText
  have hnumeral := Numeral.numeral?_written hw hrest
  cases w with
  | nil => exact absurd rfl hne
  | cons c w =>
    have hlead : ∀ {d : Char} {tail : Text}, c :: w ++ rest = d :: tail → leadKind d = 2 := by
      intro d tail heq
      cases heq
      exact leadKind_of_number (hall c List.mem_cons_self)
    rw [parse?, hskip]
    split <;> first
      | (rename_i heq; exact absurd (hlead heq) (by decide))
      | (rw [hnumeral]; rfl)

end Complete

mutual

theorem parse?_of_spells : ∀ {f : Form} (fuel : Nat) {t : Text} {ts us : List Token},
    Spells .strict f ts us → Laid .plain ts t → beginsWord us = false →
    ts.length ≤ fuel + us.length →
    ∃ rest, parse? fuel t = some (f, rest) ∧ Laid .plain us rest
  -- The fuel is counted in tokens, and a form has at least one.
  | f, 0, _, _, _, h, _, _, hfuel => by
    have hlt := h.length_lt
    omega
  | .null, fuel + 1, t, _, us, h, ht, _, _ => by
    cases h
    obtain ⟨-, rest, hskip, hrest⟩ := laid_plain_word.mp ht
    refine ⟨rest, ?_, hrest⟩
    rw [parse?, hskip]
    rfl
  | .bool b, fuel + 1, t, _, us, h, ht, _, _ => by
    cases h
    obtain ⟨-, rest, hskip, hrest⟩ := laid_plain_word.mp ht
    refine ⟨rest, ?_, hrest⟩
    rw [parse?, hskip]
    cases b <;> rfl
  | .num n, fuel + 1, t, _, us, h, ht, hus, _ => by
    cases h with
    | num hw =>
      obtain ⟨-, rest, hskip, hrest⟩ := laid_plain_word.mp ht
      exact ⟨rest, parse?_num hw hskip (stops_of_laid hrest hus), hrest⟩
  | .str ls, fuel + 1, t, _, us, h, ht, _, _ => by
    cases h
    obtain ⟨tail, rest, hskip, hstring, hrest⟩ := laid_plain_string.mp ht
    refine ⟨rest, ?_, hrest⟩
    simp only [parse?, hskip, hstring, Option.map_some]
  | .arr xs, fuel + 1, t, _, us, h, ht, _, hfuel => by
    cases h with
    | emptyArr hclose =>
      cases closes_strict hclose
      obtain ⟨-, tail, hskip, ht⟩ := laid_plain_mark.mp ht
      obtain ⟨-, rest, hskip', hrest⟩ := laid_plain_mark.mp ht
      refine ⟨rest, ?_, hrest⟩
      simp only [parse?, hskip, hskip']
    | @arr _ ts _ hitems =>
      obtain ⟨-, tail, hskip, ht⟩ := laid_plain_mark.mp ht
      obtain ⟨rest, hfound, hrest⟩ := items?_of_spells fuel hitems (laid_plain_skip.mpr ht)
        (by rw [List.length_cons] at hfuel; omega)
      refine ⟨rest, ?_, hrest⟩
      obtain ⟨token, tokens, rfl, hopens⟩ := hitems.opens
      rw [parse?_arr hskip (skip_ne_of_opens hopens ht), hfound]
      rfl
  | .obj fs, fuel + 1, t, _, us, h, ht, _, hfuel => by
    cases h with
    | emptyObj hclose =>
      cases closes_strict hclose
      obtain ⟨-, tail, hskip, ht⟩ := laid_plain_mark.mp ht
      obtain ⟨-, rest, hskip', hrest⟩ := laid_plain_mark.mp ht
      refine ⟨rest, ?_, hrest⟩
      simp only [parse?, hskip, hskip']
    | @obj _ ts _ hfields =>
      obtain ⟨-, tail, hskip, ht⟩ := laid_plain_mark.mp ht
      obtain ⟨rest, hfound, hrest⟩ := fields?_of_spells fuel hfields (laid_plain_skip.mpr ht)
        (by rw [List.length_cons] at hfuel; omega)
      refine ⟨rest, ?_, hrest⟩
      have hne : ∀ s, skip tail ≠ '}' :: s := by
        intro s hs
        cases hfields <;>
          (obtain ⟨_, _, hquote, -⟩ := laid_plain_string.mp ht; rw [hs] at hquote; cases hquote)
      rw [parse?_obj hskip hne, hfound]
      rfl

theorem items?_of_spells : ∀ {xs : List Form} (fuel : Nat) {t : Text} {ts us : List Token},
    SpellsItems .strict xs ts us → Laid .plain ts t → ts.length ≤ fuel + us.length →
    ∃ rest, Form.items? fuel t = some (xs, rest) ∧ Laid .plain us rest
  | xs, 0, _, _, _, h, _, hfuel => by
    have hlt := h.length_lt
    omega
  | x :: xs, fuel + 1, t, ts, us, h, ht, hfuel => by
    cases h with
    | last hx hclose =>
      cases closes_strict hclose
      obtain ⟨behind, hfound, hbehind⟩ := parse?_of_spells fuel hx ht rfl
        (by rw [List.length_cons]; omega)
      obtain ⟨-, rest, hskip, hrest⟩ := laid_plain_mark.mp hbehind
      refine ⟨rest, ?_, hrest⟩
      simp only [Form.items?, hfound, hskip]
    | @cons _ _ _ vs _ hx hxs =>
      have hlt := hx.length_lt
      have hlt' := hxs.length_lt
      rw [List.length_cons] at hlt
      obtain ⟨behind, hfound, hbehind⟩ := parse?_of_spells fuel hx ht rfl
        (by rw [List.length_cons]; omega)
      obtain ⟨-, tail, hskip, htail⟩ := laid_plain_mark.mp hbehind
      obtain ⟨rest, hitems, hrest⟩ := items?_of_spells fuel hxs htail
        (by omega)
      refine ⟨rest, ?_, hrest⟩
      simp only [Form.items?, hfound, hskip, hitems, Option.map_some]

theorem fields?_of_spells : ∀ {fs : List (List Letter × Form)} (fuel : Nat) {t : Text}
    {ts us : List Token}, SpellsFields .strict fs ts us → Laid .plain ts t →
    ts.length ≤ fuel + us.length →
    ∃ rest, Form.fields? fuel t = some (fs, rest) ∧ Laid .plain us rest
  | fs, 0, _, _, _, h, _, hfuel => by
    have hlt := h.length_lt
    omega
  | (name, x) :: fs, fuel + 1, t, ts, us, h, ht, hfuel => by
    cases h with
    | last hx hclose =>
      cases closes_strict hclose
      simp only [List.length_cons] at hfuel
      obtain ⟨opened, closed, hopened, hname, ht⟩ := laid_plain_string.mp ht
      obtain ⟨-, valued, hvalued, ht⟩ := laid_plain_mark.mp ht
      obtain ⟨behind, hfound, hbehind⟩ := parse?_of_spells fuel hx ht rfl
        (by rw [List.length_cons]; omega)
      obtain ⟨-, rest, hskip, hrest⟩ := laid_plain_mark.mp hbehind
      refine ⟨rest, ?_, hrest⟩
      simp only [Form.fields?, hopened, hname, hvalued, hfound, hskip]
    | @cons _ _ _ ts vs _ hx hfs =>
      simp only [List.length_cons] at hfuel
      have hlt := hx.length_lt
      have hlt' := hfs.length_lt
      rw [List.length_cons] at hlt
      obtain ⟨opened, closed, hopened, hname, ht⟩ := laid_plain_string.mp ht
      obtain ⟨-, valued, hvalued, ht⟩ := laid_plain_mark.mp ht
      obtain ⟨behind, hfound, hbehind⟩ := parse?_of_spells fuel hx ht rfl
        (by rw [List.length_cons]; omega)
      obtain ⟨-, tail, hskip, htail⟩ := laid_plain_mark.mp hbehind
      obtain ⟨rest, hfields, hrest⟩ := fields?_of_spells fuel hfs htail (by omega)
      refine ⟨rest, ?_, hrest⟩
      simp only [Form.fields?, hopened, hname, hvalued, hfound, hskip, hfields, Option.map_some]

end

theorem length_le_of_laid {ts : List Token} {t : Text} (h : Laid .plain ts t) :
    ts.length ≤ t.length := by
  induction h with
  | nil _ => exact Nat.zero_le _
  | cons _ hw _ ih =>
    obtain ⟨c, tail, rfl, -⟩ := hw.head
    simp only [List.length_append, List.length_cons]
    omega

/-- The reader finds the form that is spelled. -/
theorem form_ofText?_iff {t : Text} {f : Form} :
    Form.ofText? t = some f ↔ ∃ ts, Spells .strict f ts [] ∧ Laid .plain ts t := by
  constructor
  · intro h
    rw [Form.ofText?] at h
    split at h
    · rename_i rest hparse
      split at h
      · rename_i hrest
        cases h
        exact spells_of_parse? hparse (laid_plain_nil.mpr (LawfulBEq.eq_of_beq hrest))
      · cases h
    · cases h
  · rintro ⟨ts, hspells, hlaid⟩
    have hlength := length_le_of_laid hlaid
    obtain ⟨rest, hparse, hrest⟩ := parse?_of_spells (t.length + 1) hspells hlaid rfl
      (by rw [List.length_nil]; omega)
    rw [Form.ofText?, hparse]
    simp only [laid_plain_nil.mp hrest, BEq.rfl, if_true]

/-! ## Values -/

/-- Whether a form has a value, however deep its brackets nest. -/
def Form.Denotes (f : Form) (j : Json) : Prop := ∃ depth, f.value? depth = some j

mutual

theorem value?_of_nesting : ∀ {depth depth' : Nat} {f : Form} {j : Json},
    f.value? depth = some j → nesting j ≤ depth' → f.value? depth' = some j
  | _, _, .null, _, h, _ | _, _, .bool _, _, h, _ => by
    cases h
    rfl
  | _, _, .num _, _, h, _ | _, _, .str _, _, h, _ => h
  | 0, _, .arr _, _, h, _ | 0, _, .obj _, _, h, _ => by cases h
  | depth + 1, depth', .arr xs, _, h, hle => by
    obtain ⟨vs, hvs, rfl⟩ := Option.map_eq_some_iff.mp h
    rw [nesting] at hle
    obtain ⟨depth', rfl⟩ : ∃ n, depth' = n + 1 := ⟨depth' - 1, by omega⟩
    rw [Form.value?, itemValues?_of_nesting hvs (by omega)]
    rfl
  | depth + 1, depth', .obj fs, _, h, hle => by
    obtain ⟨vs, hvs, rfl⟩ := Option.map_eq_some_iff.mp h
    rw [nesting] at hle
    obtain ⟨depth', rfl⟩ : ∃ n, depth' = n + 1 := ⟨depth' - 1, by omega⟩
    rw [Form.value?, fieldValues?_of_nesting hvs (by omega)]
    rfl

theorem itemValues?_of_nesting : ∀ {depth depth' : Nat} {xs : List Form} {vs : List Json},
    Form.itemValues? depth xs = some vs → itemNesting vs ≤ depth' →
    Form.itemValues? depth' xs = some vs
  | _, _, [], _, h, _ => by
    cases h
    rfl
  | depth, depth', x :: xs, vs, h, hle => by
    rw [Form.itemValues?] at h
    split at h
    · rename_i v vs' hv hvs
      cases h
      rw [itemNesting] at hle
      rw [Form.itemValues?, value?_of_nesting hv (by omega),
        itemValues?_of_nesting hvs (by omega)]
    · cases h

theorem fieldValues?_of_nesting : ∀ {depth depth' : Nat} {fs : List (List Letter × Form)}
    {vs : Fields}, Form.fieldValues? depth fs = some vs → fieldNesting vs ≤ depth' →
    Form.fieldValues? depth' fs = some vs
  | _, _, [], _, h, _ => by
    cases h
    rfl
  | depth, depth', (name, x) :: fs, vs, h, hle => by
    rw [Form.fieldValues?] at h
    split at h
    · rename_i k v vs' hk hv hvs
      cases h
      rw [fieldNesting] at hle
      rw [Form.fieldValues?, hk, value?_of_nesting hv (by omega),
        fieldValues?_of_nesting hvs (by omega)]
    · cases h

end

theorem value?_iff {depth : Nat} {f : Form} {j : Json} :
    f.value? depth = some j ↔ f.Denotes j ∧ nesting j ≤ depth :=
  ⟨fun h => ⟨⟨depth, h⟩, nesting_of_value? f h⟩, fun ⟨⟨_, h⟩, hle⟩ => value?_of_nesting h hle⟩

/-- Whether a text is a rendering of a value. -/
def Renders (style : Style) (commas : Commas) (j : Json) (t : Text) : Prop :=
  ∃ f ts, Laid style ts t ∧ Spells commas f ts [] ∧ f.Denotes j

/-- The plain renderings of values that do not nest too deep are what the reader accepts. -/
theorem ofText?_iff {t : Text} {v : Json} : Json.ofText? t = some v ↔
    ∃ j, Renders .plain .strict j t ∧ nesting j ≤ maxDepth ∧ j.canon = v := by
  rw [Json.ofText?, ofTextRaw?]
  constructor
  · intro h
    obtain ⟨j, hj, rfl⟩ := Option.map_eq_some_iff.mp h
    obtain ⟨f, hf, hvalue⟩ := Option.bind_eq_some_iff.mp hj
    obtain ⟨ts, hspells, hlaid⟩ := form_ofText?_iff.mp hf
    obtain ⟨hdenotes, hle⟩ := value?_iff.mp hvalue
    exact ⟨j, ⟨f, ts, hlaid, hspells, hdenotes⟩, hle, rfl⟩
  · rintro ⟨j, ⟨f, ts, hlaid, hspells, hdenotes⟩, hle, rfl⟩
    rw [form_ofText?_iff.mpr ⟨ts, hspells, hlaid⟩, Option.bind_some,
      value?_iff.mpr ⟨hdenotes, hle⟩, Option.map_some]

end Json
end TestTransform
