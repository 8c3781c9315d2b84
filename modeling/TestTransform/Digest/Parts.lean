/-
Digests over a sequence of parts.

Each part is fed to the hash behind its length in eight bytes, so the boundaries
between parts are part of what is hashed whatever bytes the parts hold.
-/
import TestTransform.Digest.Blake3

namespace TestTransform
namespace Digest

/-- A number in `count` bytes, the lowest first; higher digits are dropped. -/
def littleEndian : (count : Nat) → Nat → List UInt8
  | 0, _ => []
  | count + 1, n => n.toUInt8 :: littleEndian count (n / 256)

/-- A part behind its length. -/
def framed (part : List UInt8) : List UInt8 := littleEndian 8 part.length ++ part

/-- The bytes hashed for a sequence of parts. -/
def encodeParts (parts : List (List UInt8)) : List UInt8 := parts.flatMap framed

/-- The digest of a sequence of parts. -/
def ofParts (parts : List (List UInt8)) : Text := Blake3.hexDigest (encodeParts parts)

/-- The digest of a text. -/
def ofText (t : Text) : Text := Blake3.hexDigest t.utf8

end Digest
end TestTransform
