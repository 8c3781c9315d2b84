/-
The bytes of a text determine it, and its ASCII characters can be seen in them.

A character of ASCII is one byte, its own number.  All bytes of any other character are above
ASCII, so an ASCII byte among the bytes of a text is a character of it, and a text with as many
bytes as characters is one of ASCII.
-/
import Mathlib.Algebra.Group.Nat.Defs
import TestTransform.Text.Utf8

namespace TestTransform
namespace Text

theorem utf8_injective {s t : Text} (h : s.utf8 = t.utf8) : s = t := by
  have hs : (String.ofList s).toByteArray = (String.ofList t).toByteArray := by
    simp only [String.toByteArray_ofList, List.utf8Encode]
    show (s.utf8).toByteArray = (t.utf8).toByteArray
    rw [h]
  exact String.ofList_injective (String.toByteArray_inj.mp hs)

theorem utf8EncodeChar_ascii {c : Char} (h : c.toNat < 128) :
    String.utf8EncodeChar c = [UInt8.ofNat c.toNat] := by
  have hle : c.toNat ≤ 127 := Nat.le_of_lt_succ h
  simp [String.utf8EncodeChar, hle]

/-- Each byte of a character beyond ASCII carries a mark of 128 at least. -/
theorem le_of_mem_utf8EncodeChar {c : Char} (h : 128 ≤ c.toNat) {b : UInt8}
    (hb : b ∈ String.utf8EncodeChar c) : 128 ≤ b.toNat := by
  have hmark : ∀ n width mark : Nat, 0 < width → 128 ≤ mark → width + mark ≤ 256 →
      128 ≤ (UInt8.ofNat (n % width + mark)).toNat := by
    intro n width mark hwidth hmark hle
    have hlt := Nat.mod_lt n hwidth
    rw [UInt8.toNat_ofNat', Nat.mod_eq_of_lt (by omega)]
    omega
  have hlarge : ¬ c.toNat ≤ 127 := by omega
  simp only [String.utf8EncodeChar, Char.toNat_val, hlarge, if_false] at hb
  split at hb
  · simp only [List.mem_cons, List.not_mem_nil, or_false] at hb
    rcases hb with rfl | rfl <;> exact hmark _ _ _ (by decide) (by decide) (by decide)
  · split at hb
    · simp only [List.mem_cons, List.not_mem_nil, or_false] at hb
      rcases hb with rfl | rfl | rfl <;> exact hmark _ _ _ (by decide) (by decide) (by decide)
    · simp only [List.mem_cons, List.not_mem_nil, or_false] at hb
      rcases hb with rfl | rfl | rfl | rfl <;>
        exact hmark _ _ _ (by decide) (by decide) (by decide)

/-! ## How many bytes there are -/

/-- Whether all characters of a text are ones of ASCII. -/
def IsAscii (t : Text) : Prop := ∀ c ∈ t, c.toNat < 128

instance (t : Text) : Decidable t.IsAscii := inferInstanceAs (Decidable (∀ c ∈ t, c.toNat < 128))

theorem byteLength_cons (c : Char) (t : Text) :
    byteLength (c :: t) = c.utf8Size + byteLength t := by
  simp only [byteLength, utf8, List.flatMap_cons, List.length_append,
    String.length_utf8EncodeChar]

theorem byteLength_append (s t : Text) : byteLength (s ++ t) = byteLength s + byteLength t := by
  rw [byteLength, utf8, List.flatMap_append, List.length_append]
  rfl

theorem length_le_byteLength (t : Text) : t.length ≤ byteLength t := by
  induction t with
  | nil => exact Nat.zero_le _
  | cons c t ih =>
    have hpos := c.utf8Size_pos
    rw [byteLength_cons, List.length_cons]
    omega

/-- A text has as many bytes as characters only if it is one of ASCII. -/
theorem byteLength_eq_length_iff {t : Text} : byteLength t = t.length ↔ t.IsAscii := by
  induction t with
  | nil => exact iff_of_true rfl fun c hc => by cases hc
  | cons c t ih =>
    have hpos := c.utf8Size_pos
    have hle := length_le_byteLength t
    have hone : c.utf8Size = 1 ↔ c.toNat < 128 :=
      Char.utf8Size_eq_one_iff.trans (UInt32.le_iff_toNat_le.trans Nat.lt_succ_iff.symm)
    have hsum : c.utf8Size + byteLength t = t.length + 1 ↔
        c.utf8Size = 1 ∧ byteLength t = t.length := by omega
    rw [byteLength_cons, List.length_cons, hsum, hone, ih]
    exact (List.forall_mem_cons (p := fun c : Char => c.toNat < 128)).symm

end Text
end TestTransform
