/-
The UTF-8 form of a text, for everything that counts or hashes bytes.
-/
import TestTransform.Text.Basic

namespace TestTransform
namespace Text

/-- The bytes of a text, character after character. -/
def utf8 (t : Text) : List UInt8 := t.flatMap String.utf8EncodeChar

/-- The number of bytes of `utf8`. -/
def byteLength (t : Text) : Nat := t.utf8.length

end Text
end TestTransform
