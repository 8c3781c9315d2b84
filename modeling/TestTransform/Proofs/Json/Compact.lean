/-
A compact text can be taken apart in one way only.

What a value is written as never goes on in what may stand behind it, so values that are
written alike have parts that are written alike.  Numbers are the one place where this says
less than that the values are equal: there it is about how they are written.
-/
import TestTransform.Proofs.Json.Strings

namespace TestTransform
namespace Json

/-! ## Numbers -/

/-- The characters that a number can be written with. -/
def isNumberChar (c : Char) : Bool :=
  Text.isDigit c || c == '+' || c == '-' || c == '.' || c == 'e' || c == 'E'

theorem isDigit_of_mem_ofNat {n : Nat} : ∀ c ∈ Text.ofNat n, Text.isDigit c = true := by
  intro c hc
  have hd := Nat.isDigit_of_mem_toDigits (by decide) (by decide) hc
  simp only [Char.isDigit, Bool.and_eq_true, decide_eq_true_eq, UInt32.le_iff_toNat_le] at hd
  simp only [Text.isDigit, Bool.and_eq_true, decide_eq_true_eq]
  exact hd

theorem isNumberChar_of_mem_ofNat {n : Nat} : ∀ c ∈ Text.ofNat n, isNumberChar c = true := by
  intro c hc
  simp [isNumberChar, isDigit_of_mem_ofNat c hc]

theorem ofNat_ne_nil (n : Nat) : Text.ofNat n ≠ [] := Nat.toDigits_ne_nil

/-- Whether a text is not empty and made of characters of numbers. -/
def IsNumberText (t : Text) : Prop := t ≠ [] ∧ ∀ c ∈ t, isNumberChar c = true

theorem isNumberText_ofNat (n : Nat) : IsNumberText (Text.ofNat n) :=
  ⟨ofNat_ne_nil n, isNumberChar_of_mem_ofNat⟩

theorem isNumberText_append {s t : Text} (hs : ∀ c ∈ s, isNumberChar c = true)
    (ht : IsNumberText t) : IsNumberText (s ++ t) := by
  refine ⟨List.append_ne_nil_of_right_ne_nil s ht.1, fun c hc => ?_⟩
  rcases List.mem_append.mp hc with h | h
  · exact hs c h
  · exact ht.2 c h

theorem all_isNumberChar_ofNat (n : Nat) : (Text.ofNat n).all isNumberChar = true :=
  List.all_eq_true.mpr isNumberChar_of_mem_ofNat

/-- Whether a character is found in numbers that are no integers only. -/
def isPointChar (c : Char) : Bool := c == '.' || c == 'e'

/-- A float is written with characters of numbers, and with a point or an exponent. -/
theorem shortest_text_chars (x : Binary64) :
    (Shortest.text x).all isNumberChar = true ∧ (Shortest.text x).any isPointChar = true := by
  have hsign : (if x.negative then ("-" : Text) else "").all isNumberChar = true := by
    split <;> rfl
  have hzeros : ∀ n, (List.replicate n '0').all isNumberChar = true := by
    intro n
    rw [List.all_replicate]
    split <;> rfl
  have hpart : ∀ n (ds : Text), ds.all isNumberChar = true →
      (ds.take n).all isNumberChar = true ∧ (ds.drop n).all isNumberChar = true := by
    intro n ds h
    rw [← List.take_append_drop n ds, List.all_append, Bool.and_eq_true] at h
    exact h
  rw [Shortest.text]
  generalize (if x.negative then ("-" : Text) else "") = sign at hsign
  dsimp only
  split
  · simp only [List.all_append, List.any_append, hsign]
    exact ⟨rfl, by rw [Bool.or_eq_true]; exact .inr rfl⟩
  · generalize Shortest.strip 20 (Shortest.digits x) = d
    obtain ⟨c, k⟩ := d
    dsimp only
    have hds := all_isNumberChar_ofNat c
    have hnil := ofNat_ne_nil c
    generalize Text.ofNat c = ds at hds hnil
    split
    · simp only [List.all_append, List.any_append, hsign, hds, hzeros]
      exact ⟨rfl, by rw [Bool.or_eq_true]; exact .inr rfl⟩
    · split
      · obtain ⟨htake, hdrop⟩ := hpart (ds.length + k).toNat ds hds
        simp only [List.all_append, List.all_cons, hsign, htake, hdrop]
        refine ⟨rfl, List.any_eq_true.mpr ⟨'.', ?_, rfl⟩⟩
        simp
      · split
        · simp only [List.all_append, hsign, hds, hzeros]
          refine ⟨rfl, List.any_eq_true.mpr ⟨'.', ?_, rfl⟩⟩
          simp
        · have hexponent : ∀ e : Int,
              ((if e < 0 then '-' else '+') :: Text.ofNat e.natAbs).all isNumberChar = true := by
            intro e
            rw [List.all_cons, all_isNumberChar_ofNat]
            split <;> rfl
          split
          · rw [List.all_cons, Bool.and_eq_true] at hds
            rw [List.all_append, List.all_cons, List.all_cons, hsign, hds.1, hexponent _]
            refine ⟨rfl, List.any_eq_true.mpr ⟨'e', ?_, rfl⟩⟩
            simp
          · rw [List.all_cons, Bool.and_eq_true] at hds
            rw [List.all_append, List.all_cons, List.all_cons, List.all_append, List.all_cons,
              hsign, hds.1, hds.2, hexponent _]
            refine ⟨rfl, List.any_eq_true.mpr ⟨'e', ?_, rfl⟩⟩
            simp
          · exact absurd rfl hnil

theorem isNumberText_shortest (x : Binary64) : IsNumberText (Shortest.text x) := by
  obtain ⟨hall, hany⟩ := shortest_text_chars x
  refine ⟨?_, List.all_eq_true.mp hall⟩
  intro h
  rw [h] at hany
  cases hany

theorem Number.isNumberText : ∀ n : Number, IsNumberText n.text
  | .int i => by
    rw [Number.text]
    split
    · have hminus : ∀ c ∈ (['-'] : Text), isNumberChar c = true := by
        intro c hc
        rw [List.mem_singleton.mp hc]
        rfl
      exact isNumberText_append hminus (isNumberText_ofNat _)
    · exact isNumberText_ofNat _
  | .float x => isNumberText_shortest x

/-- Whether a text may stand behind a value: it is empty or does not go on with a number. -/
def Stops (r : Text) : Prop := ∀ c ∈ r.head?, isNumberChar c = false

theorem takeWhile_number {t r : Text} (ht : ∀ c ∈ t, isNumberChar c = true) (hr : Stops r) :
    (t ++ r).takeWhile isNumberChar = t := by
  rw [List.takeWhile_append_of_pos ht]
  cases r with
  | nil => simp
  | cons c r => simp [hr c rfl]

/-- A number is written up to where no number can go on. -/
theorem number_append_inj {s t r r' : Text} (hs : IsNumberText s) (ht : IsNumberText t)
    (hr : Stops r) (hr' : Stops r') (h : s ++ r = t ++ r') : s = t ∧ r = r' := by
  have hst : s = t := by
    rw [← takeWhile_number hs.2 hr, h, takeWhile_number ht.2 hr']
  subst hst
  exact ⟨rfl, List.append_cancel_left h⟩

/-! ## Kinds of values -/

/-- The kind of a value, as its first character shows it. -/
def kind : Json → Nat
  | .null => 0
  | .bool _ => 1
  | .num _ => 2
  | .str _ => 3
  | .arr _ => 4
  | .obj _ => 5

def leadKind (c : Char) : Nat :=
  if c == 'n' then 0
  else if c == 't' || c == 'f' then 1
  else if c == '"' then 3
  else if c == '[' then 4
  else if c == '{' then 5
  else if isNumberChar c then 2
  else 6

theorem leadKind_of_number {c : Char} (h : isNumberChar c = true) : leadKind c = 2 := by
  have hne : ∀ d, isNumberChar d = false → (c == d) = false := by
    intro d hd
    rw [beq_eq_false_iff_ne]
    rintro rfl
    rw [h] at hd
    cases hd
  simp [leadKind, h, hne 'n' (by decide), hne 't' (by decide), hne 'f' (by decide),
    hne '"' (by decide), hne '[' (by decide), hne '{' (by decide)]

theorem lead_compact (x : Json) : ∃ c rest, compact x = c :: rest ∧ leadKind c = kind x := by
  cases x with
  | null => exact ⟨'n', _, rfl, rfl⟩
  | bool b => cases b <;> exact ⟨_, _, rfl, rfl⟩
  | num n =>
    obtain ⟨hne, hall⟩ := n.isNumberText
    cases ht : n.text with
    | nil => exact absurd ht hne
    | cons c rest =>
      exact ⟨c, rest, by rw [compact, ht], leadKind_of_number (hall c (by simp [ht]))⟩
  | str t => exact ⟨'"', _, rfl, rfl⟩
  | arr xs => cases xs <;> exact ⟨'[', _, rfl, rfl⟩
  | obj fs =>
    cases fs with
    | nil => exact ⟨'{', _, rfl, rfl⟩
    | cons f fs => exact ⟨'{', _, rfl, rfl⟩

theorem kind_eq_of_append {x y : Json} {r r' : Text} (h : compact x ++ r = compact y ++ r') :
    kind x = kind y := by
  obtain ⟨c, rest, hx, hc⟩ := lead_compact x
  obtain ⟨d, rest', hy, hd⟩ := lead_compact y
  rw [hx, hy, List.cons_append, List.cons_append, List.cons.injEq] at h
  rw [← hc, ← hd, h.1]

section Kinds

variable {y : Json}

theorem eq_null_of_kind (h : kind .null = kind y) : y = .null := by
  cases y <;> first | rfl | cases h

theorem exists_bool_of_kind {b : Bool} (h : kind (.bool b) = kind y) : ∃ b', y = .bool b' := by
  cases y <;> first | exact ⟨_, rfl⟩ | cases h

theorem exists_num_of_kind {n : Number} (h : kind (.num n) = kind y) : ∃ n', y = .num n' := by
  cases y <;> first | exact ⟨_, rfl⟩ | cases h

theorem exists_str_of_kind {t : Text} (h : kind (.str t) = kind y) : ∃ t', y = .str t' := by
  cases y <;> first | exact ⟨_, rfl⟩ | cases h

theorem exists_arr_of_kind {xs : List Json} (h : kind (.arr xs) = kind y) :
    ∃ ys, y = .arr ys := by
  cases y <;> first | exact ⟨_, rfl⟩ | cases h

theorem exists_obj_of_kind {fs : Fields} (h : kind (.obj fs) = kind y) : ∃ gs, y = .obj gs := by
  cases y <;> first | exact ⟨_, rfl⟩ | cases h

end Kinds

/-! ## Taking values apart -/

/-- The fields of an object with their values as written. -/
def spelled (fields : Fields) : List (Text × Text) := fields.map fun f => (f.1, f.2.compact)

/-- What is written behind the bracket that opens an array. -/
def arrayBody : List Json → Text
  | [] => "]"
  | x :: xs => compact x ++ compactItems xs

/-- What is written behind the brace that opens an object. -/
def objectBody : Fields → Text
  | [] => "\x7d"
  | (k, x) :: xs => quoted k ++ ':' :: (compact x ++ compactFields xs)

theorem compact_arr (xs : List Json) : compact (.arr xs) = '[' :: arrayBody xs := by
  cases xs <;> rfl

theorem compact_obj (fs : Fields) : compact (.obj fs) = '{' :: objectBody fs := by
  cases fs <;> rfl

theorem compactItems_cons (x : Json) (xs : List Json) :
    compactItems (x :: xs) = ',' :: arrayBody (x :: xs) := rfl

theorem compactFields_cons (f : Text × Json) (fs : Fields) :
    compactFields (f :: fs) = ',' :: objectBody (f :: fs) := rfl

/-- Items that are written alike make arrays that are. -/
theorem compactItems_congr {xs ys : List Json} (h : xs.map compact = ys.map compact) :
    compactItems xs = compactItems ys := by
  induction xs generalizing ys with
  | nil =>
    cases ys with
    | nil => rfl
    | cons y ys => cases h
  | cons x xs ih =>
    cases ys with
    | nil => cases h
    | cons y ys =>
      simp only [List.map_cons, List.cons.injEq] at h
      rw [compactItems, compactItems, h.1, ih h.2]

theorem arrayBody_congr {xs ys : List Json} (h : xs.map compact = ys.map compact) :
    arrayBody xs = arrayBody ys := by
  cases xs with
  | nil =>
    cases ys with
    | nil => rfl
    | cons y ys => cases h
  | cons x xs =>
    cases ys with
    | nil => cases h
    | cons y ys =>
      simp only [List.map_cons, List.cons.injEq] at h
      rw [arrayBody, arrayBody, h.1, compactItems_congr h.2]

theorem compactFields_congr {fs gs : Fields} (h : spelled fs = spelled gs) :
    compactFields fs = compactFields gs := by
  induction fs generalizing gs with
  | nil =>
    cases gs with
    | nil => rfl
    | cons g gs => cases h
  | cons f fs ih =>
    cases gs with
    | nil => cases h
    | cons g gs =>
      simp only [spelled, List.map_cons, List.cons.injEq, Prod.mk.injEq] at h
      rw [compactFields, compactFields, h.1.1, h.1.2, ih h.2]

theorem objectBody_congr {fs gs : Fields} (h : spelled fs = spelled gs) :
    objectBody fs = objectBody gs := by
  cases fs with
  | nil =>
    cases gs with
    | nil => rfl
    | cons g gs => cases h
  | cons f fs =>
    cases gs with
    | nil => cases h
    | cons g gs =>
      simp only [spelled, List.map_cons, List.cons.injEq, Prod.mk.injEq] at h
      rw [objectBody, objectBody, h.1.1, h.1.2, compactFields_congr h.2]

theorem stops_compactItems (xs : List Json) (r : Text) : Stops (compactItems xs ++ r) := by
  cases xs <;> (intro c hc; cases hc; rfl)

theorem stops_compactFields (fs : Fields) (r : Text) : Stops (compactFields fs ++ r) := by
  cases fs <;> (intro c hc; cases hc; rfl)

/-- No value begins like the end of an array or of an object. -/
theorem compact_append_ne {x : Json} {r : Text} {c : Char} {rest : Text} (hc : leadKind c = 6) :
    compact x ++ r ≠ c :: rest := by
  intro h
  obtain ⟨d, rest', hx, hd⟩ := lead_compact x
  rw [hx, List.cons_append, List.cons.injEq] at h
  rw [h.1, hc] at hd
  cases x <;> cases hd

mutual

/-- Values that are written alike, with something behind them that may stand there, end at
the same place. -/
theorem compact_append_inj : ∀ (x y : Json) (r r' : Text), Stops r → Stops r' →
    compact x ++ r = compact y ++ r' → compact x = compact y ∧ r = r'
  | .null, y, r, r', _, _, h => by
    obtain rfl := eq_null_of_kind (kind_eq_of_append h)
    exact ⟨rfl, List.append_cancel_left h⟩
  | .bool a, y, r, r', _, _, h => by
    obtain ⟨b, rfl⟩ := exists_bool_of_kind (kind_eq_of_append h)
    cases a <;> cases b <;> first
      | exact ⟨rfl, List.append_cancel_left h⟩
      | simp [compact] at h
  | .num m, y, r, r', hr, hr', h => by
    obtain ⟨n, rfl⟩ := exists_num_of_kind (kind_eq_of_append h)
    exact number_append_inj m.isNumberText n.isNumberText hr hr' h
  | .str s, y, r, r', _, _, h => by
    obtain ⟨t, rfl⟩ := exists_str_of_kind (kind_eq_of_append h)
    obtain ⟨rfl, rfl⟩ := quoted_append_inj h
    exact ⟨rfl, rfl⟩
  | .arr xs, y, r, r', _, _, h => by
    obtain ⟨ys, rfl⟩ := exists_arr_of_kind (kind_eq_of_append h)
    rw [compact_arr, compact_arr, List.cons_append, List.cons_append, List.cons.injEq] at h
    obtain ⟨hxs, hr⟩ := arrayBody_append_inj xs ys r r' h.2
    exact ⟨by rw [compact_arr, compact_arr, arrayBody_congr hxs], hr⟩
  | .obj fs, y, r, r', _, _, h => by
    obtain ⟨gs, rfl⟩ := exists_obj_of_kind (kind_eq_of_append h)
    rw [compact_obj, compact_obj, List.cons_append, List.cons_append, List.cons.injEq] at h
    obtain ⟨hfs, hr⟩ := objectBody_append_inj fs gs r r' h.2
    exact ⟨by rw [compact_obj, compact_obj, objectBody_congr hfs], hr⟩

theorem arrayBody_append_inj : ∀ (xs ys : List Json) (r r' : Text),
    arrayBody xs ++ r = arrayBody ys ++ r' → xs.map compact = ys.map compact ∧ r = r'
  | [], [], r, r', h => ⟨rfl, List.append_cancel_left h⟩
  | [], y :: ys, r, r', h => by
    rw [arrayBody, arrayBody, List.append_assoc] at h
    exact absurd h.symm (compact_append_ne rfl)
  | x :: xs, [], r, r', h => by
    rw [arrayBody, arrayBody, List.append_assoc] at h
    exact absurd h (compact_append_ne rfl)
  | x :: xs, y :: ys, r, r', h => by
    rw [arrayBody, arrayBody, List.append_assoc, List.append_assoc] at h
    obtain ⟨hx, hrest⟩ := compact_append_inj x y _ _ (stops_compactItems xs r)
      (stops_compactItems ys r') h
    obtain ⟨hxs, hr⟩ : xs.map compact = ys.map compact ∧ r = r' := by
      cases xs with
      | nil =>
        cases ys with
        | nil => exact ⟨rfl, List.append_cancel_left hrest⟩
        | cons y' ys => cases hrest
      | cons x' xs =>
        cases ys with
        | nil => cases hrest
        | cons y' ys =>
          rw [compactItems_cons, compactItems_cons, List.cons_append, List.cons_append,
            List.cons.injEq] at hrest
          exact arrayBody_append_inj (x' :: xs) (y' :: ys) r r' hrest.2
    exact ⟨by rw [List.map_cons, List.map_cons, hx, hxs], hr⟩

theorem objectBody_append_inj : ∀ (fs gs : Fields) (r r' : Text),
    objectBody fs ++ r = objectBody gs ++ r' → spelled fs = spelled gs ∧ r = r'
  | [], [], r, r', h => ⟨rfl, List.append_cancel_left h⟩
  | [], (l, y) :: gs, r, r', h => by cases h
  | (k, x) :: fs, [], r, r', h => by cases h
  | (k, x) :: fs, (l, y) :: gs, r, r', h => by
    rw [objectBody, objectBody, List.append_assoc, List.append_assoc] at h
    obtain ⟨rfl, hvalue⟩ := quoted_append_inj h
    rw [List.cons_append, List.cons_append, List.append_assoc, List.append_assoc,
      List.cons.injEq] at hvalue
    obtain ⟨hx, hrest⟩ := compact_append_inj x y _ _ (stops_compactFields fs r)
      (stops_compactFields gs r') hvalue.2
    obtain ⟨hfs, hr⟩ : spelled fs = spelled gs ∧ r = r' := by
      cases fs with
      | nil =>
        cases gs with
        | nil => exact ⟨rfl, List.append_cancel_left hrest⟩
        | cons g gs => cases hrest
      | cons f fs =>
        cases gs with
        | nil => cases hrest
        | cons g gs =>
          rw [compactFields_cons, compactFields_cons, List.cons_append, List.cons_append,
            List.cons.injEq] at hrest
          exact objectBody_append_inj (f :: fs) (g :: gs) r r' hrest.2
    rw [spelled, spelled] at hfs ⊢
    exact ⟨by rw [List.map_cons, List.map_cons, hx, hfs], hr⟩

end

/-! ## Values by what they are written as -/

theorem kind_eq_of_compact {x y : Json} (h : compact x = compact y) : kind x = kind y := by
  have happend : compact x ++ [] = compact y ++ [] := by rw [h]
  exact kind_eq_of_append happend

theorem eq_of_compact_null {y : Json} (h : compact .null = compact y) : y = .null :=
  eq_null_of_kind (kind_eq_of_compact h)

theorem eq_of_compact_bool {b : Bool} {y : Json} (h : compact (.bool b) = compact y) :
    y = .bool b := by
  obtain ⟨b', rfl⟩ := exists_bool_of_kind (kind_eq_of_compact h)
  cases b <;> cases b' <;> first | rfl | simp [compact] at h

theorem eq_of_compact_str {t : Text} {y : Json} (h : compact (.str t) = compact y) :
    y = .str t := by
  obtain ⟨t', rfl⟩ := exists_str_of_kind (kind_eq_of_compact h)
  have hq : quoted t ++ [] = quoted t' ++ [] := by simpa [compact] using h
  rw [(quoted_append_inj hq).1]

theorem ofNat_injective {m n : Nat} (h : Text.ofNat m = Text.ofNat n) : m = n := by
  rw [← Nat.ofDigitChars_toDigits (b := 10) (n := m) (by decide) (by decide),
    ← Nat.ofDigitChars_toDigits (b := 10) (n := n) (by decide) (by decide)]
  exact congrArg (Nat.ofDigitChars 10 · 0) h

theorem not_isPointChar_of_digit {c : Char} (h : Text.isDigit c = true) :
    isPointChar c = false := by
  rw [isPointChar, Bool.or_eq_false_iff, beq_eq_false_iff_ne, beq_eq_false_iff_ne]
  constructor <;> (rintro rfl; cases h)

theorem int_text_any (i : Int) : (Number.int i).text.any isPointChar = false := by
  have hofNat : ∀ n, (Text.ofNat n).any isPointChar = false := by
    intro n
    rw [List.any_eq_false]
    intro c hc
    rw [not_isPointChar_of_digit (isDigit_of_mem_ofNat c hc)]
    decide
  rw [Number.text]
  split
  · rw [List.any_cons, hofNat]
    rfl
  · exact hofNat _

/-- An integer is written like no other number. -/
theorem eq_of_int_text {i : Int} {n : Number} (h : (Number.int i).text = n.text) :
    n = .int i := by
  cases n with
  | float x =>
    have hany := int_text_any i
    rw [h, Number.text, (shortest_text_chars x).2] at hany
    cases hany
  | int j =>
    have hminus : ∀ n rest, Text.ofNat n ≠ '-' :: rest := by
      intro n rest hn
      have hd := isDigit_of_mem_ofNat '-' (by rw [hn]; exact List.mem_cons_self)
      cases hd
    simp only [Number.text] at h
    congr 1
    split at h <;> split at h
    · rw [List.cons.injEq] at h
      have := ofNat_injective h.2
      omega
    · exact absurd h.symm (hminus _ _)
    · exact absurd h (hminus _ _)
    · have := ofNat_injective h
      omega

theorem eq_of_compact_int {i : Int} {y : Json} (h : compact (.num (.int i)) = compact y) :
    y = .num (.int i) := by
  obtain ⟨n, rfl⟩ := exists_num_of_kind (kind_eq_of_compact h)
  rw [eq_of_int_text h]

theorem exists_arr_of_compact {xs : List Json} {y : Json}
    (h : compact (.arr xs) = compact y) : ∃ ys, y = .arr ys ∧ xs.map compact = ys.map compact := by
  obtain ⟨ys, rfl⟩ := exists_arr_of_kind (kind_eq_of_compact h)
  rw [compact_arr, compact_arr, List.cons.injEq] at h
  exact ⟨ys, rfl, (arrayBody_append_inj xs ys [] [] (by rw [h.2])).1⟩

theorem exists_obj_of_compact {fs : Fields} {y : Json} (h : compact (.obj fs) = compact y) :
    ∃ gs, y = .obj gs ∧ spelled fs = spelled gs := by
  obtain ⟨gs, rfl⟩ := exists_obj_of_kind (kind_eq_of_compact h)
  rw [compact_obj, compact_obj, List.cons.injEq] at h
  exact ⟨gs, rfl, (objectBody_append_inj fs gs [] [] (by rw [h.2])).1⟩

end Json
end TestTransform
