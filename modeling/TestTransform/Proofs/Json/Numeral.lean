/-
Numerals as they are written, and the numbers they spell.

Every number is written as a numeral that the reader takes as a whole, whatever may stand
behind it.  The numeral of a float spells a decimal in the interval of this float, so numbers
that are written alike are the same number.
-/
import TestTransform.Proofs.Json.Compact
import TestTransform.Proofs.Number.Interval
import TestTransform.Json.Form

namespace TestTransform

namespace Text

theorem digitsValue_append (s t : Text) :
    digitsValue (s ++ t) = digitsValue s * 10 ^ t.length + digitsValue t := by
  have hfoldl : ∀ (t : Text) (n : Nat), t.foldl (fun n c => 10 * n + digitValue c) n =
      n * 10 ^ t.length + digitsValue t := by
    intro t
    induction t with
    | nil => intro n; simp [digitsValue]
    | cons c t ih =>
      intro n
      rw [digitsValue, List.foldl_cons, List.foldl_cons, ih, ih (10 * 0 + digitValue c),
        List.length_cons, Nat.pow_succ]
      ring
  rw [digitsValue, List.foldl_append, hfoldl, ← digitsValue]

theorem digitsValue_ofNat (n : Nat) : digitsValue (ofNat n) = n :=
  Nat.ofDigitChars_toDigits (by decide) (by decide)

theorem digitsValue_replicate_zero (n : Nat) : digitsValue (List.replicate n '0') = 0 := by
  induction n with
  | zero => rfl
  | succ n ih =>
    rw [List.replicate_succ, ← List.singleton_append, digitsValue_append, ih]
    simp [digitsValue, digitValue]

/-- The digits of a number that is not zero do not begin with a zero. -/
theorem head?_ofNat {n : Nat} (h : n ≠ 0) : (ofNat n).head? ≠ some '0' := by
  induction n using Nat.strongRecOn with
  | _ n ih =>
    rw [ofNat, Nat.toDigits_eq_if (by decide)]
    split
    · rename_i hlt
      have hdigit : ∀ d, d < 10 → d ≠ 0 → [Nat.digitChar d].head? ≠ some '0' := by decide
      exact hdigit n hlt h
    · rename_i hge
      rw [List.head?_append_of_ne_nil _ Nat.toDigits_ne_nil]
      exact ih (n / 10) (by omega) (by omega)

end Text

namespace Json

open Form

namespace Numeral

/-! ## Reading a numeral -/

/-- Whether a text is a run of digits. -/
def AreDigits (t : Text) : Prop := t ≠ [] ∧ ∀ c ∈ t, Text.isDigit c = true

/-- A fraction with its point. -/
def spelledFraction : Option Text → Text
  | none => []
  | some f => '.' :: f

/-- An exponent with its letter and its sign. -/
def spelledExponent : Option (Bool × Text) → Text
  | none => []
  | some (minus, ds) => 'e' :: (if minus then '-' else '+') :: ds

/-- A numeral as it is written. -/
def spelled (n : Numeral) : Text :=
  (if n.negative then ['-'] else []) ++ (n.whole ++ (spelledFraction n.fraction ++
    spelledExponent n.exponent))

/-- Whether a text writes an exponent.  The letter may be a capital one, and a plus sign may be
left out. -/
inductive WritesExponent : Option (Bool × Text) → Text → Prop where
  | none : WritesExponent none []
  | signed (minus : Bool) {letter : Char} {ds : Text} : letter = 'e' ∨ letter = 'E' →
      WritesExponent (some (minus, ds)) (letter :: (if minus then '-' else '+') :: ds)
  | unsigned {letter : Char} {ds : Text} : letter = 'e' ∨ letter = 'E' →
      WritesExponent (some (false, ds)) (letter :: ds)

/-- Whether a numeral is one of the grammar. -/
structure IsProper (n : Numeral) : Prop where
  whole : AreDigits n.whole
  /-- A zero stands in front of no other digit. -/
  zero : n.whole.head? = some '0' → n.whole.length = 1
  fraction : ∀ f ∈ n.fraction, AreDigits f
  exponent : ∀ e ∈ n.exponent, AreDigits e.2

/-- Whether a text writes a numeral. -/
def IsWritten (n : Numeral) (t : Text) : Prop :=
  n.IsProper ∧ ∃ e, WritesExponent n.exponent e ∧
    t = (if n.negative then ['-'] else []) ++ (n.whole ++ (spelledFraction n.fraction ++ e))

theorem writesExponent_spelled (e : Option (Bool × Text)) :
    WritesExponent e (spelledExponent e) := by
  cases e with
  | none => exact .none
  | some e => exact .signed _ (.inl rfl)

theorem IsProper.isWritten {n : Numeral} (h : n.IsProper) : n.IsWritten n.spelled :=
  ⟨h, _, writesExponent_spelled _, rfl⟩

/-- Whether a text does not begin with a digit. -/
def EndsDigits (t : Text) : Prop := ∀ c ∈ t.head?, Text.isDigit c = false

theorem digits_append {ds rest : Text} (hds : ∀ c ∈ ds, Text.isDigit c = true)
    (hrest : EndsDigits rest) : digits (ds ++ rest) = (ds, rest) := by
  rw [digits, List.takeWhile_append_of_pos hds, List.dropWhile_append_of_pos hds]
  cases rest with
  | nil => simp
  | cons c rest =>
    have hc : Text.isDigit c = false := hrest c rfl
    simp [hc]

theorem isDigit_eq_false_of_stops {rest : Text} (h : Stops rest) : EndsDigits rest := by
  intro c hc
  have hnumber := h c hc
  simp only [isNumberChar, Bool.or_eq_false_iff] at hnumber
  exact hnumber.1.1.1.1.1

section Written

variable {e : Option (Bool × Text)} {w rest : Text}

theorem WritesExponent.endsDigits (he : WritesExponent e w) (h : Stops rest) :
    EndsDigits (w ++ rest) := by
  cases he with
  | none => exact isDigit_eq_false_of_stops h
  | signed _ hletter | unsigned hletter =>
    intro c hc
    cases hc
    rcases hletter with rfl | rfl <;> rfl

theorem WritesExponent.endsDigits_fraction (he : WritesExponent e w) (f : Option Text)
    (h : Stops rest) : EndsDigits (spelledFraction f ++ (w ++ rest)) := by
  cases f with
  | none => exact he.endsDigits h
  | some f =>
    intro c hc
    cases hc
    rfl

theorem exponentDigits?_append (minus : Bool) {ds : Text} (hds : AreDigits ds) (h : Stops rest) :
    exponentDigits? minus (ds ++ rest) = some (some (minus, ds), rest) := by
  rw [exponentDigits?, digits_append hds.2 (isDigit_eq_false_of_stops h)]
  cases ds with
  | nil => exact absurd rfl hds.1
  | cons c ds => rfl

theorem exponent?_written (he : WritesExponent e w) (hds : ∀ d ∈ e, AreDigits d.2)
    (h : Stops rest) : exponent? (w ++ rest) = some (e, rest) := by
  cases he with
  | none =>
    cases rest with
    | nil => rfl
    | cons c rest =>
      have hc := h c rfl
      have hletter : (c == 'e' || c == 'E') = false := by
        rw [Bool.or_eq_false_iff, beq_eq_false_iff_ne, beq_eq_false_iff_ne]
        constructor <;> (rintro rfl; revert hc; decide)
      show exponent? (c :: rest) = _
      simp only [exponent?, hletter]
      rfl
  | @signed minus letter ds hletter =>
    have hdigits := exponentDigits?_append minus (hds _ rfl) h
    rcases hletter with rfl | rfl <;> cases minus <;> exact hdigits
  | @unsigned letter ds hletter =>
    have hdigits := exponentDigits?_append false (hds _ rfl) h
    cases ds with
    | nil => exact absurd rfl (hds _ rfl).1
    | cons c ds =>
      have hc : Text.isDigit c = true := (hds _ rfl).2 c List.mem_cons_self
      have hexponent : (letter == 'e' || letter == 'E') = true := by
        rcases hletter with rfl | rfl <;> rfl
      rw [List.cons_append, List.cons_append, exponent?, hexponent, if_pos rfl]
      · exact hdigits
      · intro tail heq
        cases heq
        cases hc
      · intro tail heq
        cases heq
        cases hc

theorem fraction?_written {f : Option Text} (hf : ∀ d ∈ f, AreDigits d) (he : WritesExponent e w)
    (h : Stops rest) : fraction? (spelledFraction f ++ (w ++ rest)) = some (f, w ++ rest) := by
  cases f with
  | none =>
    show fraction? (w ++ rest) = _
    rw [fraction?]
    intro tail htail
    cases he with
    | none =>
      have hc := h '.' (by rw [show rest = '.' :: tail from htail]; rfl)
      cases hc
    | signed _ hletter | unsigned hletter =>
      cases htail
      rcases hletter with h | h <;> cases h
  | some ds =>
    obtain ⟨hne, hds⟩ := hf _ rfl
    show fraction? ('.' :: (ds ++ (w ++ rest))) = _
    rw [fraction?, digits_append hds (he.endsDigits h)]
    cases ds with
    | nil => exact absurd rfl hne
    | cons c ds => rfl

end Written

theorem whole?_append {ds rest : Text} (hds : AreDigits ds)
    (hzero : ds.head? = some '0' → ds.length = 1) (h : EndsDigits rest) :
    whole? (ds ++ rest) = some (ds, rest) := by
  rw [whole?, digits_append hds.2 h]
  split
  · rename_i heq
    cases heq
    exact absurd rfl hds.1
  · rename_i heq
    cases heq
    have hlength := hzero rfl
    simp at hlength
  · rename_i heq
    cases heq
    rfl

/-- A numeral is read up to where no number can go on. -/
theorem numeral?_written {n : Numeral} {w : Text} (hw : n.IsWritten w) {rest : Text}
    (h : Stops rest) : numeral? (w ++ rest) = some (n, rest) := by
  obtain ⟨negative, whole, fraction, exponent⟩ := n
  obtain ⟨hn, e, he, rfl⟩ := hw
  have hwhole := whole?_append hn.whole hn.zero (he.endsDigits_fraction fraction h)
  have hfraction := fraction?_written hn.fraction he h
  have hexponent := exponent?_written he hn.exponent h
  have hrest : ∀ {t},
      t = whole ++ (spelledFraction fraction ++ (e ++ rest)) →
      ((whole? t).bind fun w => (fraction? w.2).bind fun f => (exponent? f.2).bind fun e =>
        some (⟨negative, w.1, f.1, e.1⟩, e.2)) =
          some ((⟨negative, whole, fraction, exponent⟩ : Numeral), rest) := by
    rintro t rfl
    simp only [hwhole, hfraction, hexponent, Option.bind_some]
  cases negative with
  | true =>
    refine Eq.trans ?_ (hrest rfl)
    simp only [if_true, List.append_assoc]
    rfl
  | false =>
    obtain ⟨hne, hds⟩ := hn.whole
    refine Eq.trans ?_ (hrest rfl)
    simp only [Bool.false_eq_true, if_false, List.append_assoc]
    cases whole with
    | nil => exact absurd rfl hne
    | cons c ds =>
      have hc : c ≠ '-' := by
        rintro rfl
        have hd := hds '-' List.mem_cons_self
        cases hd
      show numeral? (c :: (ds ++ _)) = _
      rw [numeral?]
      · rfl
      · intro tail heq
        exact hc (List.cons.inj heq).1

theorem numeral?_spelled {n : Numeral} (hn : n.IsProper) {rest : Text} (h : Stops rest) :
    numeral? (n.spelled ++ rest) = some (n, rest) :=
  numeral?_written hn.isWritten h

/-! ## What was read as a numeral -/

section Read

variable {t rest : Text}

theorem digits_spec (t : Text) :
    (digits t).1 ++ (digits t).2 = t ∧ ∀ c ∈ (digits t).1, Text.isDigit c = true :=
  ⟨List.takeWhile_append_dropWhile, fun _ hc => (List.all_eq_true.mp List.all_takeWhile) _ hc⟩

theorem areDigits_of_whole? {ds : Text} (h : whole? t = some (ds, rest)) :
    t = ds ++ rest ∧ AreDigits ds ∧ (ds.head? = some '0' → ds.length = 1) := by
  obtain ⟨happend, hdigits⟩ := digits_spec t
  rw [whole?] at h
  split at h
  · cases h
  · cases h
  · rename_i ds' rest' hne hzero heq
    cases h
    rw [heq] at happend hdigits
    refine ⟨happend.symm, ⟨fun hnil => hne hnil, hdigits⟩, fun hhead => ?_⟩
    cases ds with
    | nil => cases hhead
    | cons c ds =>
      cases ds with
      | nil => rfl
      | cons d ds =>
        cases hhead
        exact absurd rfl (hzero d ds)

theorem areDigits_of_fraction? {f : Option Text} (h : fraction? t = some (f, rest)) :
    t = spelledFraction f ++ rest ∧ ∀ ds ∈ f, AreDigits ds := by
  rw [fraction?.eq_def] at h
  split at h
  · rename_i tail
    obtain ⟨happend, hdigits⟩ := digits_spec tail
    split at h
    · cases h
    · rename_i ds rest' hne heq
      cases h
      rw [heq] at happend hdigits
      refine ⟨congrArg ('.' :: ·) happend.symm, fun ds' hds' => ?_⟩
      cases hds'
      exact ⟨fun hnil => hne hnil, hdigits⟩
  · cases h
    exact ⟨rfl, fun ds hds => by cases hds⟩

theorem areDigits_of_exponentDigits? {minus : Bool} {e : Option (Bool × Text)}
    (h : exponentDigits? minus t = some (e, rest)) :
    ∃ ds, e = some (minus, ds) ∧ t = ds ++ rest ∧ AreDigits ds := by
  obtain ⟨happend, hdigits⟩ := digits_spec t
  rw [exponentDigits?] at h
  split at h
  · cases h
  · rename_i ds rest' hne heq
    cases h
    rw [heq] at happend hdigits
    exact ⟨ds, rfl, happend.symm, fun hnil => hne hnil, hdigits⟩

theorem writesExponent_of_exponent? {e : Option (Bool × Text)} (h : exponent? t = some (e, rest)) :
    ∃ w, t = w ++ rest ∧ WritesExponent e w ∧ ∀ d ∈ e, AreDigits d.2 := by
  rw [exponent?.eq_def] at h
  split at h
  · rename_i c tail
    split at h
    · rename_i hif
      have hletter : c = 'e' ∨ c = 'E' := by simpa using hif
      split at h <;> obtain ⟨ds, rfl, htail, hds⟩ := areDigits_of_exponentDigits? h <;> subst htail
      · exact ⟨c :: '+' :: ds, rfl, .signed false hletter, by simpa using hds⟩
      · exact ⟨c :: '-' :: ds, rfl, .signed true hletter, by simpa using hds⟩
      · exact ⟨c :: ds, rfl, .unsigned hletter, by simpa using hds⟩
    · cases h
      exact ⟨[], rfl, .none, fun d hd => by cases hd⟩
  · cases h
    exact ⟨[], rfl, .none, fun d hd => by cases hd⟩

/-- What was read as a numeral writes it. -/
theorem isWritten_of_numeral? {n : Numeral} (h : numeral? t = some (n, rest)) :
    ∃ w, t = w ++ rest ∧ n.IsWritten w := by
  have hparts : ∀ (negative : Bool) (t : Text),
      ((whole? t).bind fun w => (fraction? w.2).bind fun f => (exponent? f.2).bind fun e =>
        some ((⟨negative, w.1, f.1, e.1⟩ : Numeral), e.2)) = some (n, rest) →
      ∃ w, (if negative then ['-'] else []) ++ t = w ++ rest ∧ n.IsWritten w := by
    intro negative t h
    obtain ⟨⟨whole, t₁⟩, hwhole, h⟩ := Option.bind_eq_some_iff.mp h
    obtain ⟨⟨fraction, t₂⟩, hfraction, h⟩ := Option.bind_eq_some_iff.mp h
    obtain ⟨⟨exponent, t₃⟩, hexponent, h⟩ := Option.bind_eq_some_iff.mp h
    cases h
    obtain ⟨rfl, hds, hzero⟩ := areDigits_of_whole? hwhole
    obtain ⟨rfl, hfs⟩ := areDigits_of_fraction? hfraction
    obtain ⟨e, rfl, he, hes⟩ := writesExponent_of_exponent? hexponent
    refine ⟨_, ?_, ⟨hds, hzero, hfs, hes⟩, e, he, rfl⟩
    simp only [List.append_assoc]
  rw [numeral?.eq_def] at h
  cases t with
  | nil => exact hparts false [] h
  | cons c t =>
    by_cases hc : c = '-'
    · subst hc
      exact hparts true t h
    · refine hparts false (c :: t) (Eq.trans ?_ h)
      split
      rename_i negative t' heq
      split at heq
      · rename_i hcons
        exact absurd (List.cons.inj hcons).1 hc
      · cases heq
        rfl

end Read

theorem AreDigits.numberChars {ds : Text} (h : AreDigits ds) : ∀ c ∈ ds, isNumberChar c = true := by
  intro c hc
  simp [isNumberChar, h.2 c hc]

theorem WritesExponent.numberChars {e : Option (Bool × Text)} {w : Text}
    (h : WritesExponent e w) (hds : ∀ d ∈ e, AreDigits d.2) : ∀ c ∈ w, isNumberChar c = true := by
  have hletter : ∀ {c}, c = 'e' ∨ c = 'E' → isNumberChar c = true := by
    rintro c (rfl | rfl) <;> rfl
  cases h with
  | none => exact fun c hc => by cases hc
  | @signed minus letter ds h =>
    have hsign : isNumberChar (if minus then '-' else '+') = true := by cases minus <;> rfl
    exact List.forall_mem_cons.mpr
      ⟨hletter h, List.forall_mem_cons.mpr ⟨hsign, (hds _ rfl).numberChars⟩⟩
  | unsigned h => exact List.forall_mem_cons.mpr ⟨hletter h, (hds _ rfl).numberChars⟩

/-- A numeral is written with characters of numbers. -/
theorem IsWritten.isNumberText {n : Numeral} {w : Text} (h : n.IsWritten w) : IsNumberText w := by
  obtain ⟨hn, e, he, rfl⟩ := h
  refine ⟨?_, fun c hc => ?_⟩
  · simp [hn.whole.1]
  · simp only [List.mem_append] at hc
    rcases hc with hc | hc | hc | hc
    · split at hc
      · rw [List.mem_singleton.mp hc]
        rfl
      · cases hc
    · exact hn.whole.numberChars c hc
    · cases hf : n.fraction with
      | none => rw [hf] at hc; cases hc
      | some f =>
        rw [hf] at hc
        rcases List.mem_cons.mp hc with rfl | hc
        · rfl
        · exact (hn.fraction f hf).numberChars c hc
    · exact he.numberChars hn.exponent c hc

/-! ## The value of a numeral -/

def exponentValue : Option (Bool × Text) → Int
  | none => 0
  | some (minus, ds) => if minus then -(Text.digitsValue ds : Int) else Text.digitsValue ds

/-- The rational number that a numeral spells, without its sign. -/
def magnitude (n : Numeral) : ℚ :=
  Text.digitsValue (n.whole ++ n.fraction.getD []) *
    10 ^ (exponentValue n.exponent - (n.fraction.getD []).length)

theorem areDigits_zero : AreDigits ("0" : Text) := by
  simp [AreDigits, Text.isDigit]

theorem areDigits_ofNat (n : Nat) : AreDigits (Text.ofNat n) :=
  ⟨ofNat_ne_nil n, isDigit_of_mem_ofNat⟩

theorem isDigit_of_mem_zeros {n : Nat} : ∀ c ∈ List.replicate n '0', Text.isDigit c = true := by
  intro c hc
  rw [List.eq_of_mem_replicate hc]
  rfl

/-- The numeral of an integer. -/
def ofInt (i : Int) : Numeral := ⟨i < 0, Text.ofNat i.natAbs, none, none⟩

theorem spelled_ofInt (i : Int) : (ofInt i).spelled = (Number.int i).text := by
  rw [spelled, Number.text]
  by_cases hi : i < 0
  · simp [ofInt, hi, spelledFraction, spelledExponent]
  · simp [ofInt, hi, spelledFraction, spelledExponent]

theorem isProper_ofInt (i : Int) : (ofInt i).IsProper where
  whole := areDigits_ofNat _
  zero h := by
    by_cases hi : i.natAbs = 0
    · show (Text.ofNat i.natAbs).length = 1
      rw [hi]
      rfl
    · exact absurd h (Text.head?_ofNat hi)
  fraction := by simp [ofInt]
  exponent := by simp [ofInt]

end Numeral

end Json

namespace Shortest

open Json (Numeral)
open Json.Numeral (AreDigits spelled spelledFraction spelledExponent exponentValue)

/-! ## The numeral of a float -/

/-- The numeral that the decimal `c · 10 ^ k` is written as. -/
def decimalNumeral (negative : Bool) (c : Nat) (k : Int) : Numeral :=
  let ds := Text.ofNat c
  let point : Int := ds.length + k
  if 0 ≤ k && point ≤ 16 then ⟨negative, ds ++ List.replicate k.toNat '0', some "0", none⟩
  else if 0 < point && point ≤ 16 then
    ⟨negative, ds.take point.toNat, some (ds.drop point.toNat), none⟩
  else if -5 < point && point ≤ 0 then
    ⟨negative, "0", some (List.replicate (-point).toNat '0' ++ ds), none⟩
  else
    ⟨negative, ds.take 1, if ds.length = 1 then none else some (ds.drop 1),
      some (decide (point - 1 < 0), Text.ofNat (point - 1).natAbs)⟩

/-- The numeral that a number is written as. -/
def numeral (x : Binary64) : Numeral :=
  if x.significand = 0 then ⟨x.negative, "0", some "0", none⟩
  else decimalNumeral x.negative (strip 20 (digits x)).1 (strip 20 (digits x)).2

theorem spelled_numeral (x : Binary64) : (numeral x).spelled = text x := by
  rw [numeral, text]
  dsimp only
  by_cases hzero : x.significand = 0
  · rw [if_pos hzero, if_pos (by rw [hzero]; rfl)]
    cases x.negative <;> rfl
  · rw [if_neg hzero, if_neg (by simpa using hzero)]
    generalize strip 20 (digits x) = d
    obtain ⟨c, k⟩ := d
    dsimp only
    rw [decimalNumeral]
    have hnil := Json.ofNat_ne_nil c
    generalize Text.ofNat c = ds at hnil
    split
    · simp [spelled, spelledFraction, spelledExponent]
    · split
      · simp [spelled, spelledFraction, spelledExponent]
      · split
        · simp [spelled, spelledFraction, spelledExponent]
        · cases ds with
          | nil => exact absurd rfl hnil
          | cons d rest =>
            cases rest with
            | nil => simp [spelled, spelledFraction, spelledExponent]
            | cons d' rest => simp [spelled, spelledFraction, spelledExponent]

section Decimal

variable {negative : Bool} {c : Nat} {k : Int}

theorem isProper_decimalNumeral (hc : c ≠ 0) : (decimalNumeral negative c k).IsProper := by
  obtain ⟨hnil, hdigits⟩ := Json.Numeral.areDigits_ofNat c
  have hhead := Text.head?_ofNat hc
  rw [decimalNumeral]
  generalize Text.ofNat c = ds at hnil hdigits hhead
  have hzero := Json.Numeral.areDigits_zero
  split
  · refine ⟨⟨by simp [hnil], ?_⟩, ?_, by simpa using hzero, by simp⟩
    · intro d hd
      rcases List.mem_append.mp hd with h | h
      · exact hdigits d h
      · exact Json.Numeral.isDigit_of_mem_zeros d h
    · intro h
      rw [List.head?_append_of_ne_nil _ hnil] at h
      exact absurd h hhead
  · split
    · rename_i hk hpoint
      simp only [Bool.and_eq_true, decide_eq_true_eq] at hk hpoint
      have htake : 0 < ((ds.length : Int) + k).toNat := by omega
      have hdrop : ((ds.length : Int) + k).toNat < ds.length := by omega
      refine ⟨⟨?_, fun d hd => hdigits d (List.mem_of_mem_take hd)⟩, ?_, ?_, by simp⟩
      · rw [← List.length_pos_iff, List.length_take]
        omega
      · intro h
        rw [List.head?_take, if_neg (by omega)] at h
        exact absurd h hhead
      · intro f hf
        cases hf
        refine ⟨?_, fun d hd => hdigits d (List.mem_of_mem_drop hd)⟩
        rw [← List.length_pos_iff, List.length_drop]
        omega
    · split
      · refine ⟨hzero, fun _ => rfl, ?_, by simp⟩
        intro f hf
        cases hf
        refine ⟨by simp [hnil], fun d hd => ?_⟩
        rcases List.mem_append.mp hd with h | h
        · exact Json.Numeral.isDigit_of_mem_zeros d h
        · exact hdigits d h
      · have hlength := List.length_pos_iff.mpr hnil
        refine ⟨⟨?_, fun d hd => hdigits d (List.mem_of_mem_take hd)⟩, ?_, ?_, ?_⟩
        · rw [← List.length_pos_iff, List.length_take]
          omega
        · intro h
          rw [List.head?_take, if_neg (by omega)] at h
          exact absurd h hhead
        · intro f hf
          dsimp only at hf
          split at hf
          · cases hf
          · cases hf
            refine ⟨?_, fun d hd => hdigits d (List.mem_of_mem_drop hd)⟩
            rw [← List.length_pos_iff, List.length_drop]
            omega
        · intro e he
          cases he
          exact Json.Numeral.areDigits_ofNat _

theorem magnitude_decimalNumeral : (decimalNumeral negative c k).magnitude = c * 10 ^ k := by
  have hvalue := Text.digitsValue_ofNat c
  have hnil := Json.ofNat_ne_nil c
  have hzero : Text.digitsValue ("0" : Text) = 0 := rfl
  rw [decimalNumeral]
  generalize Text.ofNat c = ds at hvalue hnil
  split
  · rename_i hk
    simp only [Bool.and_eq_true, decide_eq_true_eq] at hk
    obtain ⟨n, rfl⟩ : ∃ n : Nat, k = n := ⟨k.toNat, by omega⟩
    rw [Json.Numeral.magnitude]
    simp only [Option.getD_some, Text.digitsValue_append, Text.digitsValue_replicate_zero, hvalue,
      hzero, exponentValue, List.length_replicate, Int.toNat_natCast]
    norm_num
  · split
    · rename_i hk hpoint
      simp only [Bool.and_eq_true, decide_eq_true_eq] at hk hpoint
      have hlength : (ds.drop ((ds.length : Int) + k).toNat).length = (-k).toNat := by
        rw [List.length_drop]
        omega
      rw [Json.Numeral.magnitude]
      simp only [Option.getD_some, List.take_append_drop, hvalue, hlength, exponentValue]
      congr 2
      omega
    · split
      · rename_i hk hpoint hlow
        simp only [Bool.and_eq_true, decide_eq_true_eq] at hk hpoint hlow
        rw [Json.Numeral.magnitude]
        simp only [Option.getD_some, Text.digitsValue_append, Text.digitsValue_replicate_zero,
          hvalue, hzero, exponentValue, List.length_append, List.length_replicate]
        norm_num
        omega
      · have hexponent : exponentValue (some (decide ((ds.length : Int) + k - 1 < 0),
            Text.ofNat ((ds.length : Int) + k - 1).natAbs)) = ds.length + k - 1 := by
          simp only [exponentValue, Text.digitsValue_ofNat, decide_eq_true_eq]
          split <;> omega
        rw [Json.Numeral.magnitude]
        dsimp only
        rw [hexponent]
        split
        · rename_i hone
          rw [List.take_of_length_le (by omega), hone]
          simp [hvalue]
        · have hdrop : ((ds.drop 1).length : Int) = ds.length - 1 := by
            have hpos := List.length_pos_iff.mpr hnil
            rw [List.length_drop]
            omega
          rw [Option.getD_some, List.take_append_drop, hvalue, hdrop]
          congr 2
          omega

theorem negative_decimalNumeral : (decimalNumeral negative c k).negative = negative := by
  rw [decimalNumeral]
  split <;> [rfl; split <;> [rfl; split <;> rfl]]

theorem strip_value (fuel : Nat) (c : Nat) (k : Int) :
    ((strip fuel (c, k)).1 * 10 ^ (strip fuel (c, k)).2 : ℚ) = c * 10 ^ k := by
  induction fuel generalizing c k with
  | zero => rfl
  | succ fuel ih =>
    rw [strip]
    split
    · rename_i h
      simp only [Bool.and_eq_true, beq_iff_eq] at h
      have htenth : (c : ℚ) = (c / 10 : Nat) * 10 := by
        exact_mod_cast (Nat.div_mul_cancel (Nat.dvd_of_mod_eq_zero h.2)).symm
      rw [ih, zpow_add₀ (by norm_num), htenth]
      ring
    · rfl

end Decimal

section Injective

variable {x y : Binary64}

theorem negative_numeral (x : Binary64) : (numeral x).negative = x.negative := by
  rw [numeral]
  split
  · rfl
  · exact negative_decimalNumeral

theorem magnitude_numeral (hpos : x.significand ≠ 0) :
    (numeral x).magnitude = (digits x).1 * 10 ^ (digits x).2 := by
  rw [numeral, if_neg hpos, magnitude_decimalNumeral, strip_value]

theorem magnitude_numeral_zero (hzero : x.significand = 0) : (numeral x).magnitude = 0 := by
  have hdigits : Text.digitsValue ("00" : Text) = 0 := rfl
  rw [numeral, if_pos hzero, Json.Numeral.magnitude]
  simp only [Option.getD_some]
  show ((Text.digitsValue ("00" : Text) : Nat) : ℚ) * _ = 0
  rw [hdigits, Nat.cast_zero, zero_mul]

theorem covers_numeral (hx : x.IsNormal) (hpos : x.significand ≠ 0) :
    Covers x (numeral x).magnitude := by
  rw [magnitude_numeral hpos]
  exact covers_digits hx hpos

theorem isProper_numeral (hx : x.IsNormal) : (numeral x).IsProper := by
  by_cases hzero : x.significand = 0
  · have hdigits := Json.Numeral.areDigits_zero
    rw [numeral, if_pos hzero]
    exact ⟨hdigits, fun _ => rfl, by simpa using hdigits, by simp⟩
  · have hpos := (covers_numeral hx hzero).pos hzero
    rw [numeral, if_neg hzero, magnitude_decimalNumeral] at hpos
    rw [numeral, if_neg hzero]
    apply isProper_decimalNumeral
    intro hc
    rw [hc, Nat.cast_zero, zero_mul] at hpos
    exact lt_irrefl _ hpos

/-- Different numbers are written differently. -/
theorem text_injective (hx : x.IsNormal) (hy : y.IsNormal) (h : text x = text y) : x = y := by
  have hstops : Json.Stops [] := by simp [Json.Stops]
  have hread := Json.Numeral.numeral?_spelled (isProper_numeral hx) hstops
  rw [spelled_numeral, h, ← spelled_numeral,
    Json.Numeral.numeral?_spelled (isProper_numeral hy) hstops] at hread
  have hnumeral : numeral x = numeral y := (Prod.mk.inj (Option.some.inj hread)).1.symm
  have hnegative : x.negative = y.negative := by
    rw [← negative_numeral x, hnumeral, negative_numeral]
  have hmagnitude : (numeral x).magnitude = (numeral y).magnitude := by rw [hnumeral]
  have hvalue : x.significand = y.significand ∧ x.exponent = y.exponent := by
    by_cases hzero : x.significand = 0
    · by_cases hzero' : y.significand = 0
      · have hexponent : ∀ z : Binary64, z.IsNormal → z.significand = 0 → z.exponent = -1074 :=
          fun z hz hz' => hz.full.resolve_left (by omega)
        rw [hzero, hzero', hexponent x hx hzero, hexponent y hy hzero']
        exact ⟨rfl, rfl⟩
      · have hpos := (covers_numeral hy hzero').pos hzero'
        rw [← hmagnitude, magnitude_numeral_zero hzero] at hpos
        exact absurd hpos (lt_irrefl _)
    · have hcovers := covers_numeral hx hzero
      by_cases hzero' : y.significand = 0
      · have hpos := hcovers.pos hzero
        rw [hmagnitude, magnitude_numeral_zero hzero'] at hpos
        exact absurd hpos (lt_irrefl _)
      · rw [hmagnitude] at hcovers
        exact eq_of_covers hx hy hcovers (covers_numeral hy hzero')
  obtain ⟨negative, significand, exponent⟩ := x
  obtain ⟨negative', significand', exponent'⟩ := y
  simp only [Binary64.mk.injEq]
  exact ⟨hnegative, hvalue⟩

end Injective

end Shortest

namespace Json
namespace Number

/-- Whether a number is one that the reader gives: an integer of 64 bits, with or without a
sign, or a float in its normal spelling. -/
def IsMachine : Number → Prop
  | int i => -2 ^ 63 ≤ i ∧ i < 2 ^ 64
  | float x => x.IsNormal

instance : ∀ n : Number, Decidable n.IsMachine
  | int i => inferInstanceAs (Decidable (-2 ^ 63 ≤ i ∧ i < 2 ^ 64))
  | float x => inferInstanceAs (Decidable x.IsNormal)

/-- The numeral that a number is written as. -/
def numeral : Number → Numeral
  | int i => .ofInt i
  | float x => Shortest.numeral x

theorem spelled_numeral : ∀ n : Number, n.numeral.spelled = n.text
  | int i => Numeral.spelled_ofInt i
  | float x => Shortest.spelled_numeral x

theorem isProper_numeral : ∀ {n : Number}, n.IsMachine → n.numeral.IsProper
  | int i, _ => Numeral.isProper_ofInt i
  | float _, h => Shortest.isProper_numeral h

theorem text_injective {m n : Number} (hm : m.IsMachine) (hn : n.IsMachine)
    (h : m.text = n.text) : m = n := by
  cases m with
  | int i => exact (eq_of_int_text h).symm
  | float x =>
    cases n with
    | int i => exact eq_of_int_text h.symm
    | float y => rw [Shortest.text_injective hm hn h]

end Number
end Json
end TestTransform
