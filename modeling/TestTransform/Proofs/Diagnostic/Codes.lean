/-
Which texts are lists of diagnostic codes.

A piece between commas is passed over if it is blank, and names a code if it is a number that fits
into 32 bits, with a mark, a plus sign and white space around it at will.  A list is read exactly
if each of its pieces is one or the other, as the numbers in their order; otherwise the first
piece that is neither is the error.
-/
import TestTransform.Diagnostic.Policy
import TestTransform.Proofs.Except
import TestTransform.Proofs.Text.Occurrence

namespace TestTransform

/-! ## White space around a text -/

namespace Text

theorem trim_eq_nil_iff (t : Text) : trim t = [] ↔ t.all isBlank = true := by
  rw [trim, trimStart, trimEnd_eq_rdropWhile, List.rdropWhile_eq_nil_iff]
  constructor
  · intro h
    rw [← List.takeWhile_append_dropWhile (p := isBlank) (l := t), List.all_append,
      List.all_takeWhile, Bool.true_and]
    exact List.all_eq_true.mpr h
  · intro h c hc
    exact List.all_eq_true.mp h c ((List.dropWhile_suffix isBlank).mem hc)

/-- White space is all that trimming takes away. -/
theorem exists_trim (t : Text) :
    ∃ before after, t = before ++ trim t ++ after ∧ before.all isBlank = true ∧
      after.all isBlank = true := by
  refine ⟨t.takeWhile isBlank, (trimStart t).rtakeWhile isBlank, ?_, List.all_takeWhile, ?_⟩
  · rw [trim, trimEnd_eq_rdropWhile, List.append_assoc, List.rdropWhile_append_rtakeWhile, trimStart,
      List.takeWhile_append_dropWhile]
  · exact List.all_eq_true.mpr fun c hc => List.mem_rtakeWhile_imp hc

/-- What neither begins nor ends with white space is left. -/
theorem trim_append {before core after : Text} (hbefore : before.all isBlank = true)
    (hafter : after.all isBlank = true) (hhead : ∀ c ∈ core.head?, isBlank c = false)
    (hlast : ∀ c ∈ core.getLast?, isBlank c = false) (hne : core ≠ []) :
    trim (before ++ core ++ after) = core := by
  have hstart : trimStart (before ++ core ++ after) = core ++ after := by
    rw [trimStart, List.append_assoc, List.dropWhile_append_of_pos (List.all_eq_true.mp hbefore)]
    cases core with
    | nil => exact absurd rfl hne
    | cons c core =>
      rw [List.cons_append, List.dropWhile_cons_of_neg]
      rw [hhead c rfl]
      exact Bool.false_ne_true
  have hend : after.reverse.all isBlank = true := by rwa [List.all_reverse]
  rw [trim, hstart, trimEnd_eq_rdropWhile, List.rdropWhile, List.reverse_append,
    List.dropWhile_append_of_pos (List.all_eq_true.mp hend)]
  cases hcore : core.reverse with
  | nil => exact absurd (List.reverse_eq_nil_iff.mp hcore) hne
  | cons c rest =>
    have hc : isBlank c = false := by
      refine hlast c ?_
      rw [List.getLast?_eq_head?_reverse, hcore]
      rfl
    rw [List.dropWhile_cons_of_neg (by rw [hc]; exact Bool.false_ne_true), ← hcore,
      List.reverse_reverse]

end Text

namespace Diagnostic.Code

/-! ## One code -/

/-- Whether a text is a number below `2 ^ 32` in decimal digits, with a plus sign in front of it
or none. -/
def SpellsNumber (t : Text) (n : Nat) : Prop :=
  ∃ sign digits : Text, t = sign ++ digits ∧ (sign = [] ∨ sign = ['+']) ∧ digits ≠ [] ∧
    digits.all Text.isDigit = true ∧ Text.digitsValue digits = n ∧ n < 4294967296

/-- Whether a text is a code with a mark in front of it or none, and white space around it. -/
def Spells (t : Text) (n : Nat) : Prop :=
  ∃ before mark number after : Text, t = before ++ (mark ++ number) ++ after ∧
    before.all Text.isBlank = true ∧ after.all Text.isBlank = true ∧
    (mark = [] ∨ mark = ['T', 'S'] ∨ mark = ['t', 's']) ∧ SpellsNumber number n

theorem number?_eq_some_iff (t : Text) (n : Nat) : number? t = some n ↔ SpellsNumber t n := by
  have hdigits : ∀ digits : Text,
      (if digits ≠ [] && digits.all Text.isDigit && Text.digitsValue digits < 4294967296 then
        some (Text.digitsValue digits) else none) = some n ↔
      digits ≠ [] ∧ digits.all Text.isDigit = true ∧ Text.digitsValue digits = n ∧
        n < 4294967296 := by
    intro digits
    constructor
    · intro h
      split at h
      · rename_i hcond
        simp only [Bool.and_eq_true, decide_eq_true_iff] at hcond
        cases h
        exact ⟨hcond.1.1, hcond.1.2, rfl, hcond.2⟩
      · cases h
    · rintro ⟨hne, hall, rfl, hlt⟩
      simp [hne, hall, hlt]
  by_cases hplus : ∃ rest, t = '+' :: rest
  · obtain ⟨rest, rfl⟩ := hplus
    refine (hdigits rest).trans ⟨fun h => ⟨['+'], rest, rfl, .inr rfl, h⟩, ?_⟩
    rintro ⟨sign, digits, heq, rfl | rfl, hne, hall, h⟩
    · -- A plus sign is no digit.
      rw [List.nil_append] at heq
      rw [← heq] at hall
      exact absurd hall (by simp [Text.isDigit])
    · cases heq
      exact ⟨hne, hall, h⟩
  · have hnumber : number? t = if t ≠ [] && t.all Text.isDigit && Text.digitsValue t < 4294967296
        then some (Text.digitsValue t) else none := by
      unfold number?
      split
      · exact absurd ⟨_, rfl⟩ hplus
      · rfl
    rw [hnumber, hdigits]
    refine ⟨fun h => ⟨[], t, rfl, .inl rfl, h⟩, ?_⟩
    rintro ⟨sign, digits, rfl, rfl | rfl, h⟩
    · exact h
    · exact absurd ⟨digits, rfl⟩ hplus

variable {t : Text} {n : Nat}

theorem SpellsNumber.head (h : SpellsNumber t n) :
    ∃ c rest, t = c :: rest ∧ (c = '+' ∨ Text.isDigit c = true) := by
  obtain ⟨sign, digits, rfl, rfl | rfl, hne, hall, -⟩ := h
  · cases digits with
    | nil => exact absurd rfl hne
    | cons c rest => exact ⟨c, rest, rfl, .inr (List.all_eq_true.mp hall c List.mem_cons_self)⟩
  · exact ⟨'+', digits, rfl, .inl rfl⟩

theorem SpellsNumber.last (h : SpellsNumber t n) :
    ∃ front c, t = front ++ [c] ∧ Text.isDigit c = true := by
  obtain ⟨sign, digits, rfl, -, hne, hall, -⟩ := h
  refine ⟨sign ++ digits.dropLast, digits.getLast hne, ?_, ?_⟩
  · rw [List.append_assoc, List.dropLast_concat_getLast]
  · exact List.all_eq_true.mp hall _ (List.getLast_mem hne)

theorem isBlank_of_isDigit {c : Char} (h : Text.isDigit c = true) : Text.isBlank c = false := by
  simp only [Text.isDigit, Bool.and_eq_true, decide_eq_true_iff] at h
  simp only [Text.isBlank, Bool.or_eq_false_iff, Bool.and_eq_false_iff, beq_eq_false_iff_ne,
    decide_eq_false_iff_not]
  omega

theorem dropMark_cases (t : Text) :
    t = 'T' :: 'S' :: dropMark t ∨ t = 't' :: 's' :: dropMark t ∨ t = dropMark t := by
  unfold dropMark
  split
  · exact .inl rfl
  · exact .inr (.inl rfl)
  · exact .inr (.inr rfl)

theorem dropMark_of_head {c : Char} {rest : Text} (h : c = '+' ∨ Text.isDigit c = true) :
    dropMark (c :: rest) = c :: rest := by
  have hne : c ≠ 'T' ∧ c ≠ 't' := by
    rcases h with rfl | h
    · decide
    · exact ⟨fun heq => by subst heq; revert h; decide, fun heq => by subst heq; revert h; decide⟩
  unfold dropMark
  split
  · rename_i heq
    exact absurd (List.cons.inj heq).1 hne.1
  · rename_i heq
    exact absurd (List.cons.inj heq).1 hne.2
  · rfl

theorem number?_dropMark_iff (t : Text) (n : Nat) :
    number? (dropMark t) = some n ↔ ∃ mark number, t = mark ++ number ∧
      (mark = [] ∨ mark = ['T', 'S'] ∨ mark = ['t', 's']) ∧ SpellsNumber number n := by
  rw [number?_eq_some_iff]
  constructor
  · intro h
    rcases dropMark_cases t with ht | ht | ht
    · exact ⟨['T', 'S'], dropMark t, ht, .inr (.inl rfl), h⟩
    · exact ⟨['t', 's'], dropMark t, ht, .inr (.inr rfl), h⟩
    · exact ⟨[], dropMark t, ht, .inl rfl, h⟩
  · rintro ⟨mark, number, rfl, rfl | rfl | rfl, h⟩
    · obtain ⟨c, rest, rfl, hc⟩ := h.head
      rw [List.nil_append, dropMark_of_head hc]
      exact h
    · exact h
    · exact h

theorem parse_eq_ok_iff (t : Text) (n : Nat) : parse t = .ok n ↔ Spells t n := by
  have hparse : parse t = .ok n ↔ number? (dropMark (Text.trim t)) = some n := by
    unfold parse
    cases number? (dropMark (Text.trim t)) <;> simp
  rw [hparse, number?_dropMark_iff]
  constructor
  · rintro ⟨mark, number, htrim, hmark, h⟩
    obtain ⟨before, after, ht, hbefore, hafter⟩ := Text.exists_trim t
    rw [htrim] at ht
    exact ⟨before, mark, number, after, ht, hbefore, hafter, hmark, h⟩
  · rintro ⟨before, mark, number, after, rfl, hbefore, hafter, hmark, h⟩
    refine ⟨mark, number, Text.trim_append hbefore hafter ?_ ?_ ?_, hmark, h⟩
    · obtain ⟨c, rest, rfl, hc⟩ := h.head
      have hblank : Text.isBlank c = false := by
        rcases hc with rfl | hc
        · decide
        · exact isBlank_of_isDigit hc
      rcases hmark with rfl | rfl | rfl
      · simpa using hblank
      · rintro _ ⟨⟩
        decide
      · rintro _ ⟨⟩
        decide
    · obtain ⟨front, c, rfl, hc⟩ := h.last
      rw [← List.append_assoc, List.getLast?_concat]
      intro d hd
      cases hd
      exact isBlank_of_isDigit hc
    · obtain ⟨c, rest, rfl, -⟩ := h.head
      simp

theorem parse_eq_error_iff (t : Text) (e : Invalid) :
    parse t = .error e ↔ (∀ n, ¬ Spells t n) ∧ e = ⟨t⟩ := by
  simp only [← parse_eq_ok_iff]
  unfold parse
  cases number? (dropMark (Text.trim t)) with
  | none => simp [eq_comm]
  | some n => simp

/-! ## Lists of codes -/

/-- What stands in a list of codes: a number, or a piece between the commas of a text. -/
inductive Entry where
  | number (n : Nat)
  | piece (t : Text)
  deriving DecidableEq, Repr

namespace Entry

/-- Whether an entry is passed over. -/
def isBlank : Entry → Bool
  | number _ => false
  | piece t => t.all Text.isBlank

/-- Whether an entry stands for a code. -/
def Names : Entry → Nat → Prop
  | number m, n => m = n
  | piece t, n => Spells t n

/-- What an entry adds to the codes. -/
def codes : Entry → Except Invalid (List Nat)
  | number n => .ok [n]
  | piece t => if t.all Text.isBlank then .ok [] else (parse t).map fun n => [n]

theorem codes_of_isBlank {x : Entry} (h : x.isBlank = true) : x.codes = .ok [] := by
  cases x with
  | number n => cases h
  | piece t => exact if_pos h

theorem codes_eq_ok_iff {x : Entry} (h : x.isBlank = false) (ns : List Nat) :
    x.codes = .ok ns ↔ ∃ n, x.Names n ∧ ns = [n] := by
  cases x with
  | number m => simp [codes, Names, eq_comm]
  | piece t =>
    have hblank : t.all Text.isBlank = false := h
    simp only [codes, hblank, Bool.false_eq_true, if_false, Names, ← parse_eq_ok_iff,
      Except.map_eq_ok, @eq_comm _ ns]

theorem codes_isOk_iff (x : Entry) :
    (∃ ns, x.codes = .ok ns) ↔ x.isBlank = true ∨ ∃ n, x.Names n := by
  cases h : x.isBlank with
  | true => exact iff_of_true ⟨[], codes_of_isBlank h⟩ (.inl rfl)
  | false =>
    simp only [codes_eq_ok_iff h, Bool.false_eq_true, false_or]
    constructor
    · rintro ⟨_, n, hn, -⟩
      exact ⟨n, hn⟩
    · rintro ⟨n, hn⟩
      exact ⟨[n], n, hn, rfl⟩

theorem codes_eq_error_iff (x : Entry) (e : Invalid) :
    x.codes = .error e ↔ x.isBlank = false ∧ (∀ n, ¬ x.Names n) ∧ x = .piece e.value := by
  cases x with
  | number m => simp [codes]
  | piece t =>
    cases h : t.all Text.isBlank with
    | true => simp [codes, isBlank, h]
    | false =>
      simp only [codes, isBlank, h, Bool.false_eq_true, if_false, Except.map_eq_error,
        parse_eq_error_iff, Names, true_and]
      refine and_congr_right fun _ => ?_
      constructor
      · rintro rfl
        rfl
      · intro heq
        cases heq
        rfl

end Entry

/-- The entries of a text, one between any two commas. -/
def entriesOf (t : Text) : List Entry := (Text.splitOn ',' t).map .piece

/-- The codes that entries stand for, taken one after another. -/
theorem entries_mapM_eq_ok_iff (xs : List Entry) (codes : List Nat) :
    (xs.mapM Entry.codes).map List.flatten = .ok codes ↔
      List.Forall₂ Entry.Names (xs.filter fun x => !x.isBlank) codes := by
  simp only [Except.map_eq_ok, Except.mapM_eq_ok]
  induction xs generalizing codes with
  | nil => simp [eq_comm]
  | cons x xs ih =>
    simp only [List.forall₂_cons_left_iff]
    cases h : x.isBlank with
    | true =>
      rw [List.filter_cons_of_neg (by simp [h])]
      refine Iff.trans ?_ (ih codes)
      constructor
      · rintro ⟨_, ⟨part, parts, hpart, hparts, rfl⟩, rfl⟩
        rw [Entry.codes_of_isBlank h] at hpart
        cases hpart
        exact ⟨parts, hparts, rfl⟩
      · rintro ⟨parts, hparts, rfl⟩
        exact ⟨[] :: parts, ⟨[], parts, Entry.codes_of_isBlank h, hparts, rfl⟩, rfl⟩
    | false =>
      rw [List.filter_cons_of_pos (by simp [h]), List.forall₂_cons_left_iff]
      simp only [Entry.codes_eq_ok_iff h, ← ih]
      constructor
      · rintro ⟨_, ⟨_, parts, ⟨n, hn, rfl⟩, hparts, rfl⟩, rfl⟩
        exact ⟨n, parts.flatten, hn, ⟨parts, hparts, rfl⟩, rfl⟩
      · rintro ⟨n, _, hn, ⟨parts, hparts, rfl⟩, rfl⟩
        exact ⟨[n] :: parts, ⟨[n], parts, ⟨n, hn, rfl⟩, hparts, rfl⟩, rfl⟩

theorem entries_mapM_isOk_iff (xs : List Entry) :
    (∃ codes, (xs.mapM Entry.codes).map List.flatten = .ok codes) ↔
      ∀ x ∈ xs, x.isBlank = true ∨ ∃ n, x.Names n := by
  have hmap : (∃ codes, (xs.mapM Entry.codes).map List.flatten = .ok codes) ↔
      ∃ parts, xs.mapM Entry.codes = .ok parts := by
    simp only [Except.map_eq_ok]
    constructor
    · rintro ⟨_, parts, hparts, -⟩
      exact ⟨parts, hparts⟩
    · rintro ⟨parts, hparts⟩
      exact ⟨parts.flatten, parts, hparts, rfl⟩
  rw [hmap, Except.exists_mapM_eq_ok]
  exact forall₂_congr fun x _ => x.codes_isOk_iff

theorem entries_mapM_eq_error_iff (xs : List Entry) (e : Invalid) :
    (xs.mapM Entry.codes).map List.flatten = .error e ↔
      ∃ before after, xs = before ++ .piece e.value :: after ∧
        (∀ x ∈ before, x.isBlank = true ∨ ∃ n, x.Names n) ∧
        (Entry.piece e.value).isBlank = false ∧ ∀ n, ¬ Spells e.value n := by
  simp only [Except.map_eq_error, Except.mapM_eq_error, Entry.codes_isOk_iff,
    Entry.codes_eq_error_iff]
  constructor
  · rintro ⟨before, _, after, rfl, hbefore, hblank, hnames, rfl⟩
    exact ⟨before, after, rfl, hbefore, hblank, hnames⟩
  · rintro ⟨before, after, rfl, hbefore, hblank, hnames⟩
    exact ⟨before, _, after, rfl, hbefore, hblank, hnames, rfl⟩

theorem parseList_eq (t : Text) :
    parseList t = ((entriesOf t).mapM Entry.codes).map List.flatten := by
  rw [parseList, entriesOf]
  induction Text.splitOn ',' t with
  | nil => rfl
  | cons piece pieces ih =>
    have hblank := Text.trim_eq_nil_iff piece
    rw [List.map_cons, List.mapM_cons]
    cases h : piece.all Text.isBlank with
    | true =>
      rw [List.filter_cons_of_neg (by simp [hblank.mpr h]), ih,
        show (Entry.piece piece).codes = .ok [] from if_pos h]
      cases (pieces.map Entry.piece).mapM Entry.codes <;> rfl
    | false =>
      have hne : Text.trim piece ≠ [] := fun heq => by
        rw [hblank.mp heq] at h
        cases h
      have hcodes : (Entry.piece piece).codes = (parse piece).map fun n => [n] :=
        if_neg (by rw [h]; exact Bool.false_ne_true)
      rw [List.filter_cons_of_pos (by simpa using hne), List.mapM_cons, ih, hcodes]
      cases parse piece with
      | error e => rfl
      | ok n => cases (pieces.map Entry.piece).mapM Entry.codes <;> rfl

end Diagnostic.Code

open Diagnostic.Code

/-- The entries of an item. -/
def CodeItem.entries : CodeItem → List Entry
  | .number n => [.number n]
  | .text t => entriesOf t

/-- The entries of all items, in their order. -/
def CodeList.entries (l : CodeList) : List Entry := l.items.flatMap CodeItem.entries

theorem CodeItem.codes_eq (item : CodeItem) :
    item.codes = (item.entries.mapM Entry.codes).map List.flatten := by
  cases item with
  | number n => rfl
  | text t => exact parseList_eq t

theorem CodeList.codes_eq (l : CodeList) :
    l.codes = (l.entries.mapM Entry.codes).map List.flatten := by
  rw [codes, entries]
  induction l.items with
  | nil => rfl
  | cons item items ih =>
    rw [List.flatMap_cons, List.mapM_cons, List.mapM_append, CodeItem.codes_eq]
    cases item.entries.mapM Entry.codes with
    | error e => rfl
    | ok parts =>
      cases hrest : (items.flatMap CodeItem.entries).mapM Entry.codes with
      | error e =>
        rw [hrest] at ih
        cases hlists : items.mapM CodeItem.codes with
        | error e' =>
          rw [hlists] at ih
          exact ih
        | ok lists =>
          rw [hlists] at ih
          cases ih
      | ok parts' =>
        rw [hrest] at ih
        cases hlists : items.mapM CodeItem.codes with
        | error e' =>
          rw [hlists] at ih
          cases ih
        | ok lists =>
          rw [hlists] at ih
          show Except.ok (parts.flatten ++ lists.flatten) = Except.ok (parts ++ parts').flatten
          rw [Except.ok.inj ih, List.flatten_append]

/-- The pieces of a text are what stands between its commas, and so are its entries. -/
theorem exists_pieces (t : Text) :
    ∃ pieces : List Text, pieces ≠ [] ∧ (∀ p ∈ pieces, ',' ∉ p) ∧ t = Text.join "," pieces ∧
      entriesOf t = pieces.map .piece :=
  ⟨Text.splitOn ',' t, Text.splitOn_ne_nil ',' t, fun _ => Text.not_mem_of_mem_splitOn,
    (Text.join_pieces ',' t).symm, rfl⟩

/-- A text is a list of codes exactly if each piece between its commas is blank or spells a code,
and the codes are those that its other pieces spell, in their order.  Otherwise the first piece
that is neither is the error, as it is written.  A list of numbers and texts is read in the same
way, as if all entries of its items stood in one text. -/
theorem codes_exactly :
    (∀ t : Text, ∃ pieces : List Text, pieces ≠ [] ∧ (∀ p ∈ pieces, ',' ∉ p) ∧
      t = Text.join "," pieces ∧
      ((∃ codes, parseList t = .ok codes) ↔
        ∀ p ∈ pieces, p.all Text.isBlank = true ∨ ∃ n, Spells p n) ∧
      (∀ codes, parseList t = .ok codes ↔
        List.Forall₂ Spells (pieces.filter fun p => !p.all Text.isBlank) codes) ∧
      ∀ e, parseList t = .error e ↔ ∃ before after, pieces = before ++ e.value :: after ∧
        (∀ p ∈ before, p.all Text.isBlank = true ∨ ∃ n, Spells p n) ∧
        e.value.all Text.isBlank = false ∧ ∀ n, ¬ Spells e.value n) ∧
    ∀ l : CodeList,
      ((∃ codes, l.codes = .ok codes) ↔ ∀ x ∈ l.entries, x.isBlank = true ∨ ∃ n, x.Names n) ∧
      (∀ codes, l.codes = .ok codes ↔
        List.Forall₂ Entry.Names (l.entries.filter fun x => !x.isBlank) codes) ∧
      ∀ e, l.codes = .error e ↔ ∃ before after, l.entries = before ++ .piece e.value :: after ∧
        (∀ x ∈ before, x.isBlank = true ∨ ∃ n, x.Names n) ∧
        e.value.all Text.isBlank = false ∧ ∀ n, ¬ Spells e.value n := by
  constructor
  · intro t
    obtain ⟨pieces, hne, hcomma, ht, hentries⟩ := exists_pieces t
    refine ⟨pieces, hne, hcomma, ht, ?_, fun codes => ?_, fun e => ?_⟩
    · rw [parseList_eq, hentries, entries_mapM_isOk_iff, List.forall_mem_map]
      rfl
    · rw [parseList_eq, hentries, entries_mapM_eq_ok_iff, List.filter_map, List.forall₂_map_left_iff]
      rfl
    · rw [parseList_eq, hentries, entries_mapM_eq_error_iff]
      constructor
      · rintro ⟨before, after, heq, hbefore, hblank, hspells⟩
        obtain ⟨front, back, rfl, rfl, hback⟩ := List.map_eq_append_iff.mp heq
        obtain ⟨p, after, rfl, hp, rfl⟩ := List.map_eq_cons_iff.mp hback
        cases hp
        exact ⟨front, after, rfl, List.forall_mem_map.mp hbefore, hblank, hspells⟩
      · rintro ⟨before, after, rfl, hbefore, hblank, hspells⟩
        exact ⟨before.map .piece, after.map .piece, List.map_append,
          List.forall_mem_map.mpr hbefore, hblank, hspells⟩
  · intro l
    rw [CodeList.codes_eq]
    exact ⟨entries_mapM_isOk_iff _, entries_mapM_eq_ok_iff _, entries_mapM_eq_error_iff _⟩

example : parseList "TS2322, ,\t+007 ,ts4294967295," = .ok [2322, 7, 4294967295] := by decide

example : (CodeList.many [.number 7, .text " ,1, Ts2", .text "-"]).codes = .error ⟨" Ts2"⟩ := by
  decide

end TestTransform
