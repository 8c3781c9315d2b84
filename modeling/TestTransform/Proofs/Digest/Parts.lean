/-
What a sequence of parts is hashed as determines the parts.

Behind its length in eight bytes each part can be cut off the front again, as long as its
length fits eight bytes.  So there is one way only to read the bytes as a sequence of parts.
-/
import Mathlib.Algebra.Group.Nat.Defs
import TestTransform.Digest.Parts
import TestTransform.Proofs.Text.Utf8

namespace TestTransform

/-- Whether two inputs have the same hash only if they are the same. -/
def Blake3.TellsApart (x y : List UInt8) : Prop := hexDigest x = hexDigest y → x = y

namespace Digest

theorem length_littleEndian (count n : Nat) : (littleEndian count n).length = count := by
  induction count generalizing n with
  | zero => rfl
  | succ count ih => rw [littleEndian, List.length_cons, ih]

theorem littleEndian_injective {count m n : Nat} (hm : m < 256 ^ count) (hn : n < 256 ^ count)
    (h : littleEndian count m = littleEndian count n) : m = n := by
  induction count generalizing m n with
  | zero => omega
  | succ count ih =>
    rw [littleEndian, littleEndian, List.cons.injEq] at h
    have hlow : m % 256 = n % 256 := by
      have hbyte := congrArg UInt8.toNat h.1
      simpa using hbyte
    have hhigh : m / 256 = n / 256 := by
      apply ih
      · rw [Nat.pow_succ] at hm
        exact Nat.div_lt_of_lt_mul (by omega)
      · rw [Nat.pow_succ] at hn
        exact Nat.div_lt_of_lt_mul (by omega)
      · exact h.2
    omega

/-- Whether the length of a part can be written in eight bytes. -/
def Fits (part : List UInt8) : Prop := part.length < 2 ^ 64

theorem framed_append_inj {a b r r' : List UInt8} (ha : Fits a) (hb : Fits b)
    (h : framed a ++ r = framed b ++ r') : a = b ∧ r = r' := by
  rw [framed, framed, List.append_assoc, List.append_assoc] at h
  have hlengths := List.append_inj h (by rw [length_littleEndian, length_littleEndian])
  have hlength : a.length = b.length := by
    apply littleEndian_injective _ _ hlengths.1
    · exact ha
    · exact hb
  exact List.append_inj hlengths.2 hlength

theorem framed_ne_nil (a : List UInt8) : framed a ≠ [] := by
  intro h
  have hlength := congrArg List.length h
  rw [framed, List.length_append, length_littleEndian, List.length_nil] at hlength
  omega

/-- Two sequences that are hashed alike are the same sequence. -/
theorem encodeParts_injective {ps qs : List (List UInt8)} (hp : ∀ p ∈ ps, Fits p)
    (hq : ∀ q ∈ qs, Fits q) (h : encodeParts ps = encodeParts qs) : ps = qs := by
  induction ps generalizing qs with
  | nil =>
    cases qs with
    | nil => rfl
    | cons q qs =>
      rw [encodeParts, encodeParts, List.flatMap_nil, List.flatMap_cons] at h
      exact absurd (List.append_eq_nil_iff.mp h.symm).1 (framed_ne_nil q)
  | cons p ps ih =>
    cases qs with
    | nil =>
      rw [encodeParts, encodeParts, List.flatMap_nil, List.flatMap_cons] at h
      exact absurd (List.append_eq_nil_iff.mp h).1 (framed_ne_nil p)
    | cons q qs =>
      rw [encodeParts, encodeParts, List.flatMap_cons, List.flatMap_cons] at h
      have hsplit := framed_append_inj (hp p List.mem_cons_self) (hq q List.mem_cons_self) h
      have hrest : ps = qs := ih (fun p' h' => hp p' (List.mem_cons_of_mem _ h'))
        (fun q' h' => hq q' (List.mem_cons_of_mem _ h')) hsplit.2
      rw [hsplit.1, hrest]

theorem map_utf8_injective {ss ts : List Text} (h : ss.map Text.utf8 = ts.map Text.utf8) :
    ss = ts :=
  (List.map_inj_right fun _ _ => Text.utf8_injective).mp h

end Digest
end TestTransform
