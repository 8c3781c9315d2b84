/-
How long a digest is.

Every step of the compression keeps the four columns of its state, so a node hands on eight
words, and a digest is 64 digits of one byte each.
-/
import TestTransform.Proofs.Digest.Parts

namespace TestTransform

namespace Blake3

theorem length_mixAll : ∀ (vs : List Column) (m : List UInt32),
    (mixAll vs m).1.length = vs.length
  | [], m => by cases m <;> rfl
  | _ :: _, [] => rfl
  | _ :: _, [_] => rfl
  | v :: vs, x :: y :: m => by
    rw [mixAll]
    simp [length_mixAll vs m]

theorem length_toDiagonals (vs : List Column) : (toDiagonals vs).length = vs.length := by
  unfold toDiagonals
  split <;> rfl

theorem length_ofDiagonals (vs : List Column) : (ofDiagonals vs).length = vs.length := by
  unfold ofDiagonals
  split <;> rfl

theorem length_round (vs : List Column) (m : List UInt32) : (round vs m).length = vs.length := by
  simp only [round, length_ofDiagonals, length_mixAll, length_toDiagonals]

theorem length_rounds (n : Nat) (vs : List Column) (m : List UInt32) :
    (rounds n vs m).length = vs.length := by
  induction n generalizing vs m with
  | zero => rfl
  | succ n ih => rw [rounds, ih, length_round]

theorem length_compress (n : Node) : n.compress.length = 8 := by
  simp [Node.compress, length_rounds]

theorem length_flatMap_bytesOfWord (ws : List UInt32) :
    (ws.flatMap bytesOfWord).length = 4 * ws.length := by
  induction ws with
  | nil => rfl
  | cons w ws ih =>
    rw [List.flatMap_cons, List.length_append, ih]
    simp [bytesOfWord]
    omega

theorem length_hex (bytes : List UInt8) : (hex bytes).length = 2 * bytes.length := by
  induction bytes with
  | nil => rfl
  | cons b bytes ih =>
    rw [hex, List.flatMap_cons, List.length_append, ← hex, ih]
    simp
    omega

/-- A digest has 64 digits. -/
theorem length_hexDigest (bytes : List UInt8) : (hexDigest bytes).length = 64 := by
  rw [hexDigest, length_hex, digest, length_flatMap_bytesOfWord, length_compress]

end Blake3

namespace Digest

theorem length_utf8_le (t : Text) : t.utf8.length ≤ 4 * t.length := by
  induction t with
  | nil => exact Nat.le_refl _
  | cons c t ih =>
    have hchar : (String.utf8EncodeChar c).length ≤ 4 := by
      rw [String.length_utf8EncodeChar]
      exact Char.utf8Size_le_four c
    rw [Text.utf8, List.flatMap_cons, List.length_append, ← Text.utf8, List.length_cons]
    omega

theorem fits_of_length {t : Text} (h : t.length < 2 ^ 62) : Fits t.utf8 := by
  have hle := length_utf8_le t
  unfold Fits
  omega

theorem fits_hexDigest (bytes : List UInt8) : Fits (Blake3.hexDigest bytes).utf8 := by
  apply fits_of_length
  rw [Blake3.length_hexDigest]
  omega

end Digest
end TestTransform
