/-
Reading Base64.

The reader takes four letters at a time and wants the padding that the writer puts, with no bits
set that stand for nothing.  It gives back the bytes that were written.
-/
import TestTransform.Text.Base64

namespace TestTransform
namespace Base64

/-! ## Letters -/

/-- The six-bit value of a letter. -/
def value? (c : Char) : Option Nat :=
  let n := c.toNat
  if 65 ≤ n && n ≤ 90 then some (n - 65)
  else if 97 ≤ n && n ≤ 122 then some (n - 71)
  else if 48 ≤ n && n ≤ 57 then some (n + 4)
  else if c == '+' then some 62
  else if c == '/' then some 63
  else none

theorem value?_letter_all : ∀ n < 64, value? (letter n) = some n := by decide

theorem value?_letter {n : Nat} (h : n < 64) : value? (letter n) = some n := value?_letter_all n h

theorem value?_padding : value? '=' = none := rfl

/-! ## Reading -/

/-- The three bytes of four letters. -/
def bytes (a b c d : Nat) : List UInt8 :=
  [UInt8.ofNat (a * 4 + b / 16), UInt8.ofNat (b % 16 * 16 + c / 4), UInt8.ofNat (c % 4 * 64 + d)]

/-- The bytes of a text.  Padding stands only at the end, and the letter in front of it has no
bits beyond those of the last byte. -/
def decode? : Text → Option (List UInt8)
  | [] => some []
  | a :: b :: c :: d :: rest =>
    match value? a, value? b, value? c, value? d with
    | some a, some b, some c, some d => (decode? rest).map (bytes a b c d ++ ·)
    | some a, some b, some c, none =>
      if d == '=' && rest == [] && c % 4 == 0 then some ((bytes a b c 0).take 2) else none
    | some a, some b, none, none =>
      if c == '=' && d == '=' && rest == [] && b % 16 == 0 then some ((bytes a b 0 0).take 1)
      else none
    | _, _, _, _ => none
  | _ => none

theorem bytes_eq {a b c d : Nat} {x y z : UInt8} (hx : a * 4 + b / 16 = x.toNat)
    (hy : b % 16 * 16 + c / 4 = y.toNat) (hz : c % 4 * 64 + d = z.toNat) :
    bytes a b c d = [x, y, z] := by
  rw [bytes, hx, hy, hz, UInt8.ofNat_toNat, UInt8.ofNat_toNat, UInt8.ofNat_toNat]

/-- The bytes that were written are read. -/
theorem decode?_encode : ∀ bs : List UInt8, decode? (encode bs) = some bs
  | [] => rfl
  | [a] => by
    have ha := a.toNat_lt
    have hzero : a.toNat * 16 % 64 % 16 = 0 := by omega
    have hbytes : bytes (a.toNat * 16 / 64) (a.toNat * 16 % 64) 0 0 = [a, 0, 0] :=
      bytes_eq (by omega) (by simp [hzero]) rfl
    rw [encode, decode?, value?_letter (by omega), value?_letter (by omega), value?_padding]
    simp [hzero, hbytes]
  | [a, b] => by
    have ha := a.toNat_lt
    have hb := b.toNat_lt
    rw [encode, decode?, value?_letter (by omega), value?_letter (by omega),
      value?_letter (by omega), value?_padding]
    generalize hn : (a.toNat * 256 + b.toNat) * 4 = n
    have hzero : n % 64 % 4 = 0 := by omega
    have hbytes : bytes (n / 4096) (n / 64 % 64) (n % 64) 0 = [a, b, 0] :=
      bytes_eq (by omega) (by omega) (by simp [hzero])
    simp [hzero, hbytes]
  | a :: b :: c :: rest => by
    have ha := a.toNat_lt
    have hb := b.toNat_lt
    have hc := c.toNat_lt
    rw [encode, decode?, value?_letter (by omega), value?_letter (by omega),
      value?_letter (by omega), value?_letter (by omega), decode?_encode rest]
    generalize hn : (a.toNat * 256 + b.toNat) * 256 + c.toNat = n
    have hbytes : bytes (n / 262144) (n / 4096 % 64) (n / 64 % 64) (n % 64) = [a, b, c] :=
      bytes_eq (by omega) (by omega) (by omega)
    simp [hbytes]

/-! ## What is written -/

/-- Whether a character is written for some bytes: a letter or padding. -/
def IsWritten (c : Char) : Prop := (value? c).isSome ∨ c = '='

instance (c : Char) : Decidable (IsWritten c) := inferInstanceAs (Decidable (_ ∨ _))

theorem isWritten_letter {n : Nat} (h : n < 64) : IsWritten (letter n) :=
  .inl (by rw [value?_letter h]; rfl)

theorem isWritten_of_mem_encode : ∀ bs : List UInt8, ∀ c ∈ encode bs, IsWritten c
  | [] => by
    intro c hc
    cases hc
  | [a] => by
    have ha := a.toNat_lt
    simp only [encode, List.forall_mem_cons]
    exact ⟨isWritten_letter (by omega), isWritten_letter (by omega), .inr rfl, .inr rfl,
      fun c hc => by cases hc⟩
  | [a, b] => by
    have ha := a.toNat_lt
    have hb := b.toNat_lt
    simp only [encode, List.forall_mem_cons]
    exact ⟨isWritten_letter (by omega), isWritten_letter (by omega), isWritten_letter (by omega),
      .inr rfl, fun c hc => by cases hc⟩
  | a :: b :: c :: rest => by
    have ha := a.toNat_lt
    have hb := b.toNat_lt
    have hc := c.toNat_lt
    simp only [encode, List.forall_mem_cons]
    exact ⟨isWritten_letter (by omega), isWritten_letter (by omega), isWritten_letter (by omega),
      isWritten_letter (by omega), isWritten_of_mem_encode rest⟩

/-- A character that is neither letter nor padding is not written. -/
theorem not_mem_encode {c : Char} (h : ¬ IsWritten c) (bs : List UInt8) : c ∉ encode bs :=
  fun hc => h (isWritten_of_mem_encode bs c hc)

end Base64
end TestTransform
