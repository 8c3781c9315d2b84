/-
How a script reads: comments, literals, and what stands between them.

A script is spelled by a list of elements, and it reads as that list if each element is in order
in front of what follows it.  Whether a slash divides or begins a pattern, and whether a brace
goes on with a template, is for the grammar to say; here both are readings.  So what holds of all
readings holds of the one that is meant.
-/
import Mathlib.Data.List.Basic
import TestTransform.Proofs.Text.Occurrence

namespace TestTransform
namespace Script

/-! ## Elements -/

/-- The characters that end a line. -/
def lineEnds : Text := ['\n', '\r', '\u2028', '\u2029']

inductive Element where
  /-- A comment up to the end of its line. -/
  | line (body : Text)
  /-- A comment between brackets. -/
  | block (body : Text)
  | quoted (quote : Char) (body : Text)
  /-- A piece of a template: from its quote or a brace up to its quote or an expression. -/
  | template (first : Bool) (body : Text) (last : Bool)
  /-- A regular expression without its flags. -/
  | pattern (body : Text)
  /-- A character of anything else. -/
  | plain (c : Char)
  deriving DecidableEq, Repr, Inhabited

namespace Element

def text : Element → Text
  | line body => '/' :: '/' :: body
  | block body => '/' :: '*' :: (body ++ ['*', '/'])
  | quoted quote body => quote :: (body ++ [quote])
  | template first body last =>
    (if first then '`' else '}') :: (body ++ if last then ['`'] else ['$', '{'])
  | pattern body => '/' :: (body ++ ['/'])
  | plain c => [c]

/-- Whether a text stays between quotes.  A line ends in it only behind a backslash. -/
def staysQuoted (quote : Char) : Text → Bool
  | [] => true
  | '\\' :: '\r' :: '\n' :: t => staysQuoted quote t
  | '\\' :: _ :: t => staysQuoted quote t
  | c :: t => c != '\\' && c != quote && c != '\n' && c != '\r' && staysQuoted quote t

/-- Whether a text stays in one piece of a template. -/
def staysTemplate : Text → Bool
  | [] => true
  | '\\' :: _ :: t => staysTemplate t
  | '$' :: '{' :: _ => false
  | c :: t => c != '\\' && c != '`' && staysTemplate t

/-- Whether a text stays in a pattern.  In a class a slash does not end it. -/
def staysPattern : (inClass : Bool) → Text → Bool
  | inClass, [] => !inClass
  | inClass, '\\' :: _ :: t => staysPattern inClass t
  | inClass, c :: t =>
    if c == '\\' then false
    else if c == '[' then staysPattern true t
    else if c == ']' then staysPattern false t
    else (inClass || c != '/') && staysPattern inClass t

/-- Whether an element is in order in front of a character, or at the end. -/
def Fits (next : Option Char) : Element → Prop
  | line body => (∀ c ∈ body, c ∉ lineEnds) ∧ ∀ c ∈ next, c ∈ lineEnds
  | block body => Text.occursIn "*/" body = false
  | quoted quote body => quote ∈ (['"', '\''] : Text) ∧ staysQuoted quote body = true
  | template _ body _ => staysTemplate body = true
  | pattern body =>
    body ≠ [] ∧ (∀ c ∈ body.head?, c ∉ (['/', '*'] : Text)) ∧
      (∀ c ∈ body, c ∉ lineEnds) ∧ staysPattern false body = true
  | plain c =>
    c ∉ (['"', '\'', '`'] : Text) ∧ (c = '/' → ∀ d ∈ next, d ∉ (['/', '*'] : Text))

-- The characters are those of a text, not all that there are.
instance decidableFits (next : Option Char) : ∀ e : Element, Decidable (e.Fits next)
  | line body =>
    have := List.decidableBAll (· ∉ lineEnds) body
    have := Option.decidableForallMem (p := (· ∈ lineEnds)) next
    inferInstanceAs (Decidable (_ ∧ _))
  | block _ => inferInstanceAs (Decidable (_ = _))
  | quoted _ _ => inferInstanceAs (Decidable (_ ∧ _))
  | template _ _ _ => inferInstanceAs (Decidable (_ = _))
  | pattern body =>
    have := List.decidableBAll (· ∉ lineEnds) body
    have := Option.decidableForallMem (p := (· ∉ (['/', '*'] : Text))) body.head?
    inferInstanceAs (Decidable (_ ∧ _))
  | plain _ =>
    have := Option.decidableForallMem (p := (· ∉ (['/', '*'] : Text))) next
    inferInstanceAs (Decidable (_ ∧ _))

def isComment : Element → Bool
  | line _ | block _ => true
  | _ => false

def isBlank : Element → Bool
  | plain c => Text.isBlank c
  | _ => false

theorem text_ne_nil (e : Element) : e.text ≠ [] := by
  cases e <;> simp [text]

/-- Only the end of a line comment and a single slash depend on what follows. -/
theorem Fits.of_none {e : Element} (h : e.Fits none) {next : Option Char}
    (hline : ∀ body, e = line body → ∀ c ∈ next, c ∈ lineEnds)
    (hslash : e = plain '/' → ∀ d ∈ next, d ∉ (['/', '*'] : Text)) : e.Fits next := by
  cases e with
  | line body => exact ⟨h.1, hline body rfl⟩
  | plain c => exact ⟨h.1, fun hc => hslash (hc ▸ rfl)⟩
  | block => exact h
  | quoted => exact h
  | template => exact h
  | pattern => exact h

/-- What is in order in front of something is in order at the end. -/
theorem Fits.at_end {e : Element} {next : Option Char} (h : e.Fits next) : e.Fits none := by
  cases e with
  | line body => exact ⟨h.1, fun c hc => by cases hc⟩
  | plain c => exact ⟨h.1, fun _ d hd => by cases hd⟩
  | block => exact h
  | quoted => exact h
  | template => exact h
  | pattern => exact h

end Element

/-! ## Readings -/

/-- The text of a list of elements. -/
def spell (es : List Element) : Text := es.flatMap Element.text

/-- Whether the elements are in order in front of a character, or at the end. -/
def Reads (next : Option Char) : List Element → Prop
  | [] => True
  | e :: es => e.Fits ((spell es).head?.or next) ∧ Reads next es

instance decidableReads (next : Option Char) : ∀ es : List Element, Decidable (Reads next es)
  | [] => inferInstanceAs (Decidable True)
  | _ :: es =>
    have := decidableReads next es
    inferInstanceAs (Decidable (_ ∧ _))

/-- What is executed of a script: all but comments and blanks. -/
def executable (es : List Element) : List Element := es.filter fun e => !e.isComment && !e.isBlank

variable {es fs : List Element} {next : Option Char}

@[simp] theorem spell_nil : spell [] = [] := rfl

@[simp] theorem spell_cons (e : Element) (es : List Element) :
    spell (e :: es) = e.text ++ spell es := List.flatMap_cons

@[simp] theorem spell_append (es fs : List Element) : spell (es ++ fs) = spell es ++ spell fs :=
  List.flatMap_append

theorem eq_nil_of_spell (h : spell es = []) : es = [] := by
  cases es with
  | nil => rfl
  | cons e es =>
    rw [spell_cons, List.append_eq_nil_iff] at h
    exact absurd h.1 e.text_ne_nil

theorem reads_append :
    Reads next (es ++ fs) ↔ Reads ((spell fs).head?.or next) es ∧ Reads next fs := by
  induction es with
  | nil => simp [Reads]
  | cons e es ih => simp only [List.cons_append, Reads, ih, spell_append, List.head?_append,
      Option.or_assoc, and_assoc]

theorem Reads.at_end (h : Reads next es) : Reads none es := by
  induction es with
  | nil => trivial
  | cons e es ih =>
    obtain ⟨hfits, hes⟩ := h
    refine ⟨?_, ih hes⟩
    cases hs : (spell es).head? with
    | none => exact hfits.at_end
    | some c =>
      rw [hs] at hfits
      exact hfits

/-- What ends its last line is in order in front of anything. -/
theorem Reads.of_ended (h : Reads none es) (hend : (spell es).IsEnded) (next : Option Char) :
    Reads next es := by
  induction es with
  | nil => trivial
  | cons e es ih =>
    obtain ⟨hfits, hes⟩ := h
    have hlast : (e.text ++ spell es).getLast? = some '\n' := by
      rcases hend with hend | hend
      · exact absurd (List.append_eq_nil_iff.mp (spell_cons e es ▸ hend)).1 e.text_ne_nil
      · rwa [spell_cons] at hend
    cases hs : spell es with
    | nil =>
      rw [hs, List.append_nil] at hlast
      refine ⟨?_, ih hes (.inl hs)⟩
      rw [hs] at hfits ⊢
      refine Element.Fits.of_none hfits ?_ ?_
      · rintro body rfl
        -- The comment would have the end of a line in it.
        have hmem : '\n' ∈ '/' :: '/' :: body := List.mem_of_getLast? hlast
        have hbody : '\n' ∈ body := by simpa using hmem
        exact absurd (by decide) (hfits.1 _ hbody)
      · rintro rfl
        cases hlast
    | cons c t =>
      rw [spell_cons] at hend
      refine ⟨?_, ih hes hend.of_append⟩
      rw [hs] at hfits ⊢
      exact hfits

/-- What is in order at the end is so in front of the end of a line. -/
theorem Reads.before_line (h : Reads none es) : Reads (some '\n') es := by
  induction es with
  | nil => trivial
  | cons e es ih =>
    obtain ⟨hfits, hes⟩ := h
    refine ⟨?_, ih hes⟩
    cases hs : (spell es).head? with
    | none =>
      rw [hs] at hfits
      refine Element.Fits.of_none hfits (fun _ _ c hc => ?_) (fun _ c hc => ?_) <;>
      · cases hc
        decide
    | some c =>
      rw [hs] at hfits
      exact hfits

/-- The last element can be exchanged for one that begins alike. -/
theorem Reads.exchange {before back : List Element} {e e' : Element}
    (h : Reads none (before ++ e :: back)) (hfits : e'.Fits none)
    (hhead : e'.text.head? = e.text.head?) : Reads none (before ++ [e']) := by
  obtain ⟨hbefore, -⟩ := reads_append.mp h
  refine reads_append.mpr ⟨?_, hfits, trivial⟩
  rw [spell_cons, List.head?_append] at hbefore ⊢
  cases ht : e.text with
  | nil => exact absurd ht e.text_ne_nil
  | cons c t =>
    rw [ht] at hbefore hhead
    rw [hhead]
    exact hbefore

theorem executable_append (es fs : List Element) :
    executable (es ++ fs) = executable es ++ executable fs := List.filter_append ..

/-! ## Positions -/

/-- A position in a script lies in one of its elements. -/
theorem exists_element {front rest : Text} (h : spell es = front ++ rest) (hne : rest ≠ []) :
    ∃ before e back inner tail, es = before ++ e :: back ∧ e.text = inner ++ tail ∧ tail ≠ [] ∧
      front = spell before ++ inner ∧ rest = tail ++ spell back := by
  induction es generalizing front with
  | nil => exact absurd (List.append_eq_nil_iff.mp h.symm).2 hne
  | cons e es ih =>
    rw [spell_cons] at h
    have hlater : ∀ a, front = e.text ++ a → spell es = a ++ rest →
        ∃ before e' back inner tail, e :: es = before ++ e' :: back ∧ e'.text = inner ++ tail ∧
          tail ≠ [] ∧ front = spell before ++ inner ∧ rest = tail ++ spell back := by
      intro a ha hes
      obtain ⟨before, e', back, inner, tail, rfl, htext, htail, rfl, hrest⟩ := ih hes
      exact ⟨e :: before, e', back, inner, tail, rfl, htext, htail, by
        rw [ha, spell_cons, List.append_assoc], hrest⟩
    rcases List.append_eq_append_iff.mp h with ⟨a, ha, hes⟩ | ⟨c, hc, hrest⟩
    · exact hlater a ha hes
    · cases c with
      | nil => exact hlater [] (by rw [hc, List.append_nil, List.append_nil]) hrest.symm
      | cons d c =>
        exact ⟨[], e, es, front, d :: c, rfl, hc, List.cons_ne_nil d c, rfl, hrest⟩

end Script
end TestTransform
