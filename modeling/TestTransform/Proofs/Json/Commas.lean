/-
Commas in front of closing brackets, and what taking them out does.

The reader takes out a comma if a closing bracket is next.  On tokens this is a function, and it
makes the spelling of a form with such commas into its strictest spelling.  What stands in front
of the comma is never looked at, so a comma right behind an opening bracket goes as well.
-/
import TestTransform.Json.Relaxed
import TestTransform.Proofs.Json.Comments

namespace TestTransform
namespace Json

open Form

/-! ## Tokens -/

def Token.isCloser : Token → Bool
  | .mark c => c == '}' || c == ']'
  | .string _ | .word _ => false

/-- Takes out each comma in front of a closing bracket. -/
def dropCommas : List Token → List Token
  | [] => []
  | token :: tokens =>
    if token = .mark ',' ∧ tokens.head?.any Token.isCloser then dropCommas tokens
    else token :: dropCommas tokens

section Tokens

variable {token : Token} {ts us : List Token}

theorem dropCommas_cons (h : token ≠ .mark ',') :
    dropCommas (token :: us) = token :: dropCommas us :=
  if_neg fun hcomma => h hcomma.1

theorem dropCommas_keep (h : us.head?.any Token.isCloser = false) :
    dropCommas (token :: us) = token :: dropCommas us :=
  if_neg fun hcomma => Bool.false_ne_true (h.symm.trans hcomma.2)

theorem dropCommas_drop (h : us.head?.any Token.isCloser = true) :
    dropCommas (.mark ',' :: us) = dropCommas us :=
  if_pos ⟨rfl, h⟩

theorem ne_comma_of_isCloser (h : token.isCloser = true) : token ≠ .mark ',' := by
  rintro rfl
  cases h

theorem ne_comma_of_opens (h : token.opens = true) : token ≠ .mark ',' := by
  rintro rfl
  cases h

theorem isCloser_of_opens (h : token.opens = true) : token.isCloser = false := by
  cases token with
  | string _ | word _ => rfl
  | mark c =>
    simp only [Token.opens, Bool.or_eq_true] at h
    rcases h with h | h <;> (rw [LawfulBEq.eq_of_beq h]; rfl)

/-- The first token that is left was the first one, or behind a first comma. -/
theorem cases_of_dropCommas (h : dropCommas us = token :: ts) :
    (∃ us', us = token :: us' ∧ dropCommas us' = ts) ∨
      (token.isCloser = true ∧ ∃ us', us = .mark ',' :: token :: us' ∧ dropCommas us' = ts) := by
  cases us with
  | nil => cases h
  | cons first us =>
    rw [dropCommas] at h
    split at h
    · rename_i hdrop
      obtain ⟨rfl, hcloser⟩ := hdrop
      cases us with
      | nil => cases hcloser
      | cons closer us =>
        have hcloser' : closer.isCloser = true := hcloser
        rw [dropCommas_cons (ne_comma_of_isCloser hcloser')] at h
        cases h
        exact .inr ⟨hcloser', us, rfl, rfl⟩
    · cases h
      exact .inl ⟨us, rfl, rfl⟩

theorem of_dropCommas (h : dropCommas us = token :: ts) (hcloser : token.isCloser = false) :
    ∃ us', us = token :: us' ∧ dropCommas us' = ts := by
  rcases cases_of_dropCommas h with h | ⟨hcloser', -⟩
  · exact h
  · rw [hcloser] at hcloser'
    cases hcloser'

theorem eq_nil_of_dropCommas (h : dropCommas us = []) : us = [] := by
  cases us with
  | nil => rfl
  | cons first us =>
    rw [dropCommas] at h
    split at h
    · rename_i hdrop
      cases us with
      | nil => cases hdrop.2
      | cons closer us =>
        have hcloser : closer.isCloser = true := hdrop.2
        rw [dropCommas_cons (ne_comma_of_isCloser hcloser)] at h
        cases h
    · cases h

end Tokens

/-! ## Spellings -/

/-- The commas that are taken out: behind an item, and behind an opening bracket too. -/
def Commas.bare : Commas := ⟨true, true⟩

/-- The commas that may trail: behind an item only. -/
def Commas.trailing : Commas := ⟨true, false⟩

section Spellings

variable {commas : Commas}

theorem Closes.dropCommas {comma : Bool} {c : Char} (hc : Token.isCloser (.mark c) = true)
    {ts us : List Token} (h : Closes comma c ts us) :
    Json.dropCommas ts = .mark c :: Json.dropCommas us := by
  cases h with
  | mark => exact dropCommas_cons (ne_comma_of_isCloser hc)
  | comma _ =>
    have hnext : (Token.mark c :: us).head?.any Token.isCloser = true := hc
    rw [dropCommas_drop hnext, dropCommas_cons (ne_comma_of_isCloser hc)]

theorem SpellsItems.head_isCloser {xs : List Form} {ts us : List Token}
    (h : SpellsItems commas xs ts us) : ts.head?.any Token.isCloser = false := by
  obtain ⟨token, tail, rfl, hopens⟩ := h.opens
  exact isCloser_of_opens hopens

theorem SpellsFields.head_isCloser {fs : List (List Letter × Form)} {ts us : List Token}
    (h : SpellsFields commas fs ts us) : ts.head?.any Token.isCloser = false := by
  cases h <;> rfl

mutual

/-- With the commas in front of closing brackets taken out a spelling is strict. -/
theorem Spells.dropCommas : ∀ {f : Form} {ts us : List Token}, Spells commas f ts us →
    Spells .strict f (dropCommas ts) (dropCommas us)
  | .null, _, _, h => by
    cases h
    rw [dropCommas_cons (ne_comma_of_opens rfl)]
    exact .null
  | .bool _, _, _, h => by
    cases h
    rw [dropCommas_cons (ne_comma_of_opens rfl)]
    exact .bool
  | .num _, _, _, h => by
    cases h with
    | num hw =>
      rw [dropCommas_cons (ne_comma_of_opens rfl)]
      exact .num hw
  | .str _, _, _, h => by
    cases h
    rw [dropCommas_cons (ne_comma_of_opens rfl)]
    exact .str
  | .arr _, _, _, h => by
    cases h with
    | emptyArr h =>
      rw [dropCommas_cons (ne_comma_of_opens rfl), h.dropCommas rfl]
      exact .emptyArr .mark
    | arr h =>
      rw [dropCommas_cons (ne_comma_of_opens rfl)]
      exact .arr h.dropCommas
  | .obj _, _, _, h => by
    cases h with
    | emptyObj h =>
      rw [dropCommas_cons (ne_comma_of_opens rfl), h.dropCommas rfl]
      exact .emptyObj .mark
    | obj h =>
      rw [dropCommas_cons (ne_comma_of_opens rfl)]
      exact .obj h.dropCommas

theorem SpellsItems.dropCommas : ∀ {xs : List Form} {ts us : List Token},
    SpellsItems commas xs ts us → SpellsItems .strict xs (dropCommas ts) (dropCommas us)
  | _ :: _, _, _, h => by
    cases h with
    | last hx hclose =>
      have hx' := hx.dropCommas
      rw [hclose.dropCommas rfl] at hx'
      exact .last hx' .mark
    | cons hx hxs =>
      have hx' := hx.dropCommas
      rw [dropCommas_keep hxs.head_isCloser] at hx'
      exact .cons hx' hxs.dropCommas

theorem SpellsFields.dropCommas : ∀ {fs : List (List Letter × Form)} {ts us : List Token},
    SpellsFields commas fs ts us → SpellsFields .strict fs (dropCommas ts) (dropCommas us)
  | _ :: _, _, _, h => by
    cases h with
    | last hx hclose =>
      have hx' := hx.dropCommas
      rw [hclose.dropCommas rfl] at hx'
      rw [dropCommas_cons (by simp), dropCommas_cons (by simp)]
      exact .last hx' .mark
    | cons hx hfs =>
      have hx' := hx.dropCommas
      rw [dropCommas_keep hfs.head_isCloser] at hx'
      rw [dropCommas_cons (by simp), dropCommas_cons (by simp)]
      exact .cons hx' hfs.dropCommas

end

end Spellings

theorem closes_of_dropCommas {c : Char} {us vs : List Token} (h : dropCommas us = .mark c :: vs) :
    ∃ rest, dropCommas rest = vs ∧ Closes true c us rest := by
  rcases cases_of_dropCommas h with ⟨rest, rfl, hrest⟩ | ⟨-, rest, rfl, hrest⟩
  · exact ⟨rest, hrest, .mark⟩
  · exact ⟨rest, hrest, .comma rfl⟩

mutual

/-- What spells a form when the commas are taken out spells it with bare commas. -/
theorem spells_of_dropCommas : ∀ {f : Form} {us vs : List Token},
    Spells .strict f (dropCommas us) vs →
    ∃ rest, dropCommas rest = vs ∧ Spells .bare f us rest
  | .null, us, vs, h => by
    generalize hus : dropCommas us = ts at h
    cases h
    obtain ⟨rest, rfl, hrest⟩ := of_dropCommas hus rfl
    exact ⟨rest, hrest, .null⟩
  | .bool _, us, vs, h => by
    generalize hus : dropCommas us = ts at h
    cases h
    obtain ⟨rest, rfl, hrest⟩ := of_dropCommas hus rfl
    exact ⟨rest, hrest, .bool⟩
  | .num _, us, vs, h => by
    generalize hus : dropCommas us = ts at h
    cases h with
    | num hw =>
      obtain ⟨rest, rfl, hrest⟩ := of_dropCommas hus rfl
      exact ⟨rest, hrest, .num hw⟩
  | .str _, us, vs, h => by
    generalize hus : dropCommas us = ts at h
    cases h
    obtain ⟨rest, rfl, hrest⟩ := of_dropCommas hus rfl
    exact ⟨rest, hrest, .str⟩
  | .arr _, us, vs, h => by
    generalize hus : dropCommas us = ts at h
    cases h with
    | emptyArr hclose =>
      obtain ⟨us, rfl, hrest⟩ := of_dropCommas hus rfl
      rw [closes_strict hclose] at hrest
      obtain ⟨rest, hrest, hclose'⟩ := closes_of_dropCommas hrest
      exact ⟨rest, hrest, .emptyArr hclose'⟩
    | arr hitems =>
      obtain ⟨us, rfl, rfl⟩ := of_dropCommas hus rfl
      obtain ⟨rest, hrest, hitems⟩ := spellsItems_of_dropCommas hitems
      exact ⟨rest, hrest, .arr hitems⟩
  | .obj _, us, vs, h => by
    generalize hus : dropCommas us = ts at h
    cases h with
    | emptyObj hclose =>
      obtain ⟨us, rfl, hrest⟩ := of_dropCommas hus rfl
      rw [closes_strict hclose] at hrest
      obtain ⟨rest, hrest, hclose'⟩ := closes_of_dropCommas hrest
      exact ⟨rest, hrest, .emptyObj hclose'⟩
    | obj hfields =>
      obtain ⟨us, rfl, rfl⟩ := of_dropCommas hus rfl
      obtain ⟨rest, hrest, hfields⟩ := spellsFields_of_dropCommas hfields
      exact ⟨rest, hrest, .obj hfields⟩

theorem spellsItems_of_dropCommas : ∀ {xs : List Form} {us vs : List Token},
    SpellsItems .strict xs (dropCommas us) vs →
    ∃ rest, dropCommas rest = vs ∧ SpellsItems .bare xs us rest
  | _ :: _, us, vs, h => by
    cases h with
    | last hx hclose =>
      obtain ⟨next, hnext, hx'⟩ := spells_of_dropCommas hx
      rw [closes_strict hclose] at hnext
      obtain ⟨rest, hrest, hclose'⟩ := closes_of_dropCommas hnext
      exact ⟨rest, hrest, .last hx' hclose'⟩
    | cons hx hxs =>
      obtain ⟨next, hnext, hx'⟩ := spells_of_dropCommas hx
      obtain ⟨next, rfl, rfl⟩ := of_dropCommas hnext rfl
      obtain ⟨rest, hrest, hxs'⟩ := spellsItems_of_dropCommas hxs
      exact ⟨rest, hrest, .cons hx' hxs'⟩

theorem spellsFields_of_dropCommas : ∀ {fs : List (List Letter × Form)} {us vs : List Token},
    SpellsFields .strict fs (dropCommas us) vs →
    ∃ rest, dropCommas rest = vs ∧ SpellsFields .bare fs us rest
  | _ :: _, us, vs, h => by
    generalize hus : dropCommas us = ts at h
    cases h with
    | last hx hclose =>
      obtain ⟨us₁, rfl, hus₁⟩ := of_dropCommas hus rfl
      obtain ⟨us₂, rfl, rfl⟩ := of_dropCommas hus₁ rfl
      obtain ⟨next, hnext, hx'⟩ := spells_of_dropCommas hx
      rw [closes_strict hclose] at hnext
      obtain ⟨rest, hrest, hclose'⟩ := closes_of_dropCommas hnext
      exact ⟨rest, hrest, .last hx' hclose'⟩
    | cons hx hfs =>
      obtain ⟨us₁, rfl, hus₁⟩ := of_dropCommas hus rfl
      obtain ⟨us₂, rfl, rfl⟩ := of_dropCommas hus₁ rfl
      obtain ⟨next, hnext, hx'⟩ := spells_of_dropCommas hx
      obtain ⟨next, rfl, rfl⟩ := of_dropCommas hnext rfl
      obtain ⟨rest, hrest, hfs'⟩ := spellsFields_of_dropCommas hfs
      exact ⟨rest, hrest, .cons hx' hfs'⟩

end

theorem spells_dropCommas_iff {f : Form} {us : List Token} :
    Spells .strict f (dropCommas us) [] ↔ Spells .bare f us [] := by
  constructor
  · intro h
    obtain ⟨rest, hrest, h⟩ := spells_of_dropCommas h
    rwa [eq_nil_of_dropCommas hrest] at h
  · exact fun h => h.dropCommas

/-! ## Texts -/

namespace Relaxed

attribute [local simp] dropTrailingCommas in
theorem keepsStrings_dropTrailingCommas : KeepsStrings dropTrailingCommas where
  nil zone := by cases zone <;> rfl
  string _ _ := by simp
  escaped _ _ := by simp
  quote _ := rfl

theorem dropTrailingCommas_char {c : Char} (hquote : c ≠ '"') (hcomma : c ≠ ',') (t : Text) :
    dropTrailingCommas .plain (c :: t) = c :: dropTrailingCommas .plain t := by
  simp [dropTrailingCommas, hquote, hcomma]

theorem dropTrailingCommas_drop {t : Text} (h : closes t = true) :
    dropTrailingCommas .plain (',' :: t) = dropTrailingCommas .plain t := by
  simp [dropTrailingCommas, h]

theorem dropTrailingCommas_keep {t : Text} (h : closes t = false) :
    dropTrailingCommas .plain (',' :: t) = ',' :: dropTrailingCommas .plain t := by
  simp [dropTrailingCommas, h]

theorem closes_append {g : Text} (hg : ∀ c ∈ g, Text.isBlank c = true) (t : Text) :
    closes (g ++ t) = closes t := by
  have hnone : (g.find? fun c => !Text.isBlank c) = none := by
    rw [List.find?_eq_none]
    intro c hc
    simp [hg c hc]
  rw [closes, closes, List.find?_append, hnone, Option.none_or]

theorem closes_cons {c : Char} (h : Text.isBlank c = false) (t : Text) :
    closes (c :: t) = (c == '}' || c == ']') := by
  simp [closes, h]

theorem closes_eq_skip (t : Text) : closes t = closes (skip t) := by
  obtain ⟨g, ht, hg⟩ := exists_spaces t
  conv_lhs => rw [ht]
  exact closes_append (fun c hc => isBlank_of_isSpace (hg c hc)) _

/-- Whether a text closes something can be seen from its first token. -/
theorem closes_of_laid {us : List Token} {t : Text} (ht : Laid .plain us t) :
    closes t = us.head?.any Token.isCloser := by
  rw [closes_eq_skip]
  cases us with
  | nil =>
    rw [laid_plain_nil.mp ht]
    rfl
  | cons token us =>
    obtain ⟨w, rest, hskip, hw, -⟩ := laid_plain_cons.mp ht
    obtain ⟨c, tail, hhead, hc⟩ := hw.head
    rw [hskip, hhead, List.cons_append, closes_cons hc]
    cases hw with
    | mark _ =>
      cases hhead
      rfl
    | string _ =>
      cases hhead
      rfl
    | @word w _ hword hw =>
      cases hw
      rw [hhead] at hword
      have hmark := (isWordChar_iff.mp (hword.2 c List.mem_cons_self)).2.1
      simp only [isMark, Bool.or_eq_false_iff] at hmark
      simp [Token.isCloser, hmark]

/-- A token is kept unless it is a comma and a closing bracket is next. -/
theorem dropCommas_of_laid {token : Token} {us : List Token} {t : Text} (ht : Laid .plain us t)
    (hkept : ¬ (token = .mark ',' ∧ closes t = true)) :
    dropCommas (token :: us) = token :: dropCommas us := by
  by_cases hcomma : token = .mark ','
  · apply dropCommas_keep
    rw [← closes_of_laid ht, Bool.eq_false_iff]
    exact fun h => hkept ⟨hcomma, h⟩
  · exact dropCommas_cons hcomma

theorem dropTrailingCommas_spaces {g : Text} (hg : ∀ c ∈ g, isSpace c = true) (t : Text) :
    dropTrailingCommas .plain (g ++ t) = g ++ dropTrailingCommas .plain t := by
  induction g with
  | nil => rfl
  | cons c g ih =>
    obtain ⟨hc, hg⟩ := List.forall_mem_cons.mp hg
    have hquote : c ≠ '"' := by rintro rfl; cases hc
    have hcomma : c ≠ ',' := by rintro rfl; cases hc
    rw [List.cons_append, dropTrailingCommas_char hquote hcomma, ih hg]
    rfl

theorem dropTrailingCommas_word {w : Text} (hw : ∀ c ∈ w, isWordChar c = true) (t : Text) :
    dropTrailingCommas .plain (w ++ t) = w ++ dropTrailingCommas .plain t := by
  induction w with
  | nil => rfl
  | cons c w ih =>
    obtain ⟨hc, hw⟩ := List.forall_mem_cons.mp hw
    obtain ⟨-, hmark, hquote, -⟩ := isWordChar_iff.mp hc
    have hcomma : c ≠ ',' := by rintro rfl; cases hmark
    rw [List.cons_append, dropTrailingCommas_char hquote hcomma, ih hw]
    rfl

/-- On a layout commas are taken out token by token. -/
theorem laid_dropTrailingCommas {us : List Token} {t : Text} (ht : Laid .plain us t) :
    Laid .plain (dropCommas us) (dropTrailingCommas .plain t) := by
  induction ht with
  | @nil t hend =>
    have hspaces := dropTrailingCommas_spaces hend []
    rw [List.append_nil] at hspaces
    have hnil : dropTrailingCommas .plain [] = [] := rfl
    rw [hspaces, hnil, List.append_nil]
    exact .nil hend
  | @cons token us g w t hg hw hrest ih =>
    rw [dropTrailingCommas_spaces hg]
    by_cases hdrop : token = .mark ',' ∧ closes t = true
    · obtain ⟨rfl, hcloses⟩ := hdrop
      cases hw with
      | mark _ =>
        rw [List.singleton_append, dropTrailingCommas_drop hcloses]
        rw [closes_of_laid hrest] at hcloses
        rw [dropCommas_drop hcloses, ← laid_plain_skip, skip_append hg, laid_plain_skip]
        exact ih
    · have htext : dropTrailingCommas .plain (w ++ t) = w ++ dropTrailingCommas .plain t := by
        cases hw with
        | @mark c hc =>
          by_cases hcomma : c = ','
          · subst hcomma
            exact dropTrailingCommas_keep (Bool.eq_false_iff.mpr fun h => hdrop ⟨rfl, h⟩)
          · exact dropTrailingCommas_char (by rintro rfl; cases hc) hcomma t
        | string hls =>
          rw [List.cons_append, List.append_assoc, List.singleton_append,
            keepsStrings_dropTrailingCommas.quote, keepsStrings_dropTrailingCommas.append hls,
            List.cons_append, List.append_assoc, List.singleton_append]
        | word hword hw =>
          cases hw
          exact dropTrailingCommas_word hword.2 t
      rw [dropCommas_of_laid hrest hdrop, htext]
      exact .cons hg hw ih

/-! ### Which texts come out as plain layouts -/

/-- A text that closes something goes on with a blank or a bracket, which comes out as it is. -/
theorem head_of_closes {t : Text} (h : closes t = true) : ∃ c tail, t = c :: tail ∧
    isWordChar c = false ∧ dropTrailingCommas .plain t = c :: dropTrailingCommas .plain tail := by
  cases t with
  | nil => cases h
  | cons c tail =>
    have hc : Text.isBlank c = true ∨ c = '}' ∨ c = ']' := by
      cases hblank : Text.isBlank c with
      | true => exact .inl rfl
      | false =>
        rw [closes_cons hblank] at h
        exact .inr (by simpa using h)
    have hfacts : isWordChar c = false ∧ c ≠ '"' ∧ c ≠ ',' := by
      rcases hc with hblank | rfl | rfl
      · refine ⟨by simp [isWordChar, hblank], ?_, ?_⟩ <;> (rintro rfl; cases hblank)
      · decide
      · decide
    exact ⟨c, tail, rfl, hfacts.1, dropTrailingCommas_char hfacts.2.1 hfacts.2.2 tail⟩

/-- A word that comes out was there. -/
theorem exists_word {w : Text} (hw : ∀ c ∈ w, isWordChar c = true) {t out : Text}
    (ht : dropTrailingCommas .plain t = w ++ out) :
    ∃ rest, t = w ++ rest ∧ dropTrailingCommas .plain rest = out := by
  induction w generalizing t with
  | nil => exact ⟨t, rfl, ht⟩
  | cons c w ih =>
    obtain ⟨hc, hw'⟩ := List.forall_mem_cons.mp hw
    obtain ⟨-, hmark, hquote, -⟩ := isWordChar_iff.mp hc
    cases t with
    | nil => cases ht
    | cons d t =>
      by_cases hd : d = '"'
      · subst hd
        rw [keepsStrings_dropTrailingCommas.quote] at ht
        exact absurd (List.cons.inj ht).1.symm hquote
      by_cases hcomma : d = ','
      · subst hcomma
        cases hcloses : closes t with
        | true =>
          -- behind a comma that is taken out comes nothing that a word begins with
          obtain ⟨b, tail, -, hb, hscan⟩ := head_of_closes hcloses
          rw [dropTrailingCommas_drop hcloses, hscan] at ht
          rw [(List.cons.inj ht).1, hc] at hb
          cases hb
        | false =>
          rw [dropTrailingCommas_keep hcloses] at ht
          rw [← (List.cons.inj ht).1] at hmark
          cases hmark
      · rw [dropTrailingCommas_char hd hcomma] at ht
        obtain ⟨rfl, htail⟩ := List.cons.inj ht
        obtain ⟨rest, rfl, hout⟩ := ih hw' htail
        exact ⟨rest, rfl, hout⟩

/-- What is no comma in front of a closing bracket comes out as it is. -/
theorem head_of_kept {c : Char} {t : Text} (hkept : ¬ (c = ',' ∧ closes t = true)) :
    ∃ tail, dropTrailingCommas .plain (c :: t) = c :: tail := by
  by_cases hquote : c = '"'
  · subst hquote
    exact ⟨_, keepsStrings_dropTrailingCommas.quote t⟩
  by_cases hcomma : c = ','
  · subst hcomma
    exact ⟨_, dropTrailingCommas_keep (Bool.eq_false_iff.mpr fun h => hkept ⟨rfl, h⟩)⟩
  · exact ⟨_, dropTrailingCommas_char hquote hcomma t⟩

/-- A token that comes out first was there, unless a comma was taken out in front of it. -/
theorem exists_written {token : Token} {w : Text} (hw : Writes .plain token w) {c : Char}
    {t out : Text} (hkept : ¬ (c = ',' ∧ closes t = true))
    (ht : dropTrailingCommas .plain (c :: t) = w ++ out) :
    ∃ rest, c :: t = w ++ rest ∧ dropTrailingCommas .plain rest = out := by
  obtain ⟨tail, hhead⟩ := head_of_kept hkept
  cases hw with
  | @mark d hd =>
    have hquote : c ≠ '"' := by
      rintro rfl
      rw [hhead] at ht
      rw [← (List.cons.inj ht).1] at hd
      cases hd
    by_cases hcomma : c = ','
    · subst hcomma
      have hcloses : closes t = false := Bool.eq_false_iff.mpr fun h => hkept ⟨rfl, h⟩
      rw [dropTrailingCommas_keep hcloses] at ht
      obtain ⟨rfl, htail⟩ := List.cons.inj ht
      exact ⟨t, rfl, htail⟩
    · rw [dropTrailingCommas_char hquote hcomma] at ht
      obtain ⟨rfl, htail⟩ := List.cons.inj ht
      exact ⟨t, rfl, htail⟩
  | @string ls body hbody =>
    have hquote : c = '"' := by
      rw [hhead] at ht
      exact (List.cons.inj ht).1
    subst hquote
    rw [keepsStrings_dropTrailingCommas.quote] at ht
    have hstring : dropTrailingCommas .string t = body ++ '"' :: out := by
      rw [← List.singleton_append, ← List.append_assoc]
      exact (List.cons.inj ht).2
    obtain ⟨rest, rfl, hrest⟩ := keepsStrings_dropTrailingCommas.exists_append hbody hstring
    refine ⟨rest, ?_, hrest⟩
    rw [List.cons_append, List.append_assoc, List.singleton_append]
  | word hword hw =>
    cases hw
    exact exists_word hword.2 ht

/-- The token is shorter than the text before it, and it is no comma that is taken out. -/
theorem exists_kept {token : Token} {w : Text} (hw : Writes .plain token w) {c : Char}
    {t out : Text} (hkept : ¬ (c = ',' ∧ closes t = true))
    (ht : dropTrailingCommas .plain (c :: t) = w ++ out) :
    ∃ rest, c :: t = w ++ rest ∧ dropTrailingCommas .plain rest = out ∧
      rest.length ≤ t.length ∧ ¬ (token = .mark ',' ∧ closes rest = true) := by
  obtain ⟨rest, htext, hout⟩ := exists_written hw hkept ht
  obtain ⟨d, w', rfl, -⟩ := hw.head
  rw [List.cons_append] at htext
  obtain ⟨rfl, rfl⟩ := List.cons.inj htext
  refine ⟨rest, rfl, hout, by simp, ?_⟩
  rintro ⟨rfl, hcloses⟩
  cases hw with
  | mark _ => exact hkept ⟨rfl, hcloses⟩

theorem exists_of_dropTrailingCommas : ∀ (n : Nat) {t : Text} {ts : List Token}, t.length ≤ n →
    Laid .plain ts (dropTrailingCommas .plain t) →
    ∃ us, Laid .plain us t ∧ dropCommas us = ts := by
  -- on the length of the text: a comma that is taken out is a step without a token that is left
  intro n
  induction n with
  | zero =>
    intro t ts hn ht
    cases List.length_eq_zero_iff.mp (Nat.le_zero.mp hn)
    cases ts with
    | nil => exact ⟨[], ht, rfl⟩
    | cons token ts =>
      obtain ⟨w, rest, hskip, hw, -⟩ := laid_plain_cons.mp ht
      obtain ⟨c, tail, rfl, -⟩ := hw.head
      cases hskip
  | succ n ih =>
    intro t ts hn ht
    cases t with
    | nil => exact ih (Nat.zero_le n) ht
    | cons c t =>
      have hn' : t.length ≤ n := Nat.le_of_succ_le_succ hn
      by_cases hdrop : c = ',' ∧ closes t = true
      · obtain ⟨rfl, hcloses⟩ := hdrop
        rw [dropTrailingCommas_drop hcloses] at ht
        obtain ⟨us, hus, rfl⟩ := ih hn' ht
        refine ⟨.mark ',' :: us, laid_plain_mark.mpr ⟨rfl, t, skip_cons rfl t, hus⟩, ?_⟩
        rw [closes_of_laid hus] at hcloses
        exact dropCommas_drop hcloses
      · cases hspace : isSpace c with
        | true =>
          have hc : ∀ d ∈ [c], isSpace d = true := by simpa using hspace
          rw [← List.singleton_append, dropTrailingCommas_spaces hc, ← laid_plain_skip,
            skip_append hc, laid_plain_skip] at ht
          obtain ⟨us, hus, hts⟩ := ih hn' ht
          refine ⟨us, ?_, hts⟩
          rwa [← List.singleton_append, ← laid_plain_skip, skip_append hc, laid_plain_skip]
        | false =>
          obtain ⟨tail, hhead⟩ := head_of_kept hdrop
          have hskip : skip (dropTrailingCommas .plain (c :: t)) =
              dropTrailingCommas .plain (c :: t) := by
            rw [hhead, skip_cons hspace]
          cases ts with
          | nil =>
            rw [laid_plain_nil, hskip, hhead] at ht
            cases ht
          | cons token ts =>
            obtain ⟨w, out, hout, hw, hrest⟩ := laid_plain_cons.mp ht
            rw [hskip] at hout
            obtain ⟨rest, htext, rfl, hlength, hkept⟩ := exists_kept hw hdrop hout
            obtain ⟨us, hus, rfl⟩ := ih (hlength.trans hn') hrest
            refine ⟨token :: us, laid_plain_cons.mpr ⟨_, rest, ?_, hw, hus⟩,
              dropCommas_of_laid hus hkept⟩
            rw [skip_cons hspace, htext]

/-- The texts that come out as plain layouts are plain layouts with more commas. -/
theorem laid_dropTrailingCommas_iff {t : Text} {ts : List Token} :
    Laid .plain ts (dropTrailingCommas .plain t) ↔ ∃ us, Laid .plain us t ∧ dropCommas us = ts := by
  constructor
  · exact exists_of_dropTrailingCommas t.length (Nat.le_refl _)
  · rintro ⟨us, hus, rfl⟩
    exact laid_dropTrailingCommas hus

end Relaxed

end Json
end TestTransform
