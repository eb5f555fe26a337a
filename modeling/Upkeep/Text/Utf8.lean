import Upkeep.Text.Basic

/-!
Texts as bytes.  Decoding is exact: `decode?_encode` reads back every text, and
bytes that no text encodes to are refused.  Where any bytes have to be worked on
as characters, each byte counts as the character of its number.
-/

namespace Upkeep

def encode (text : Text) : ByteArray :=
  (String.ofList text).toByteArray

/-- The text that bytes encode, if they are valid UTF-8. -/
def decode? (bytes : ByteArray) : Option Text :=
  (String.fromUTF8? bytes).map String.toList

/-- Bytes, each as the character of its number. -/
def byteChars (bytes : ByteArray) : Text :=
  bytes.toList.map fun byte => Char.ofNat byte.toNat

/-- The bytes whose numbers the characters have. -/
def ofByteChars (chars : Text) : ByteArray :=
  ⟨(chars.map fun c => UInt8.ofNat c.toNat).toArray⟩

/-- The bytes of a text, each as the character of its number. -/
def byteText (text : Text) : Text :=
  byteChars (encode text)

theorem fromUTF8?_toByteArray (s : String) : String.fromUTF8? s.toByteArray = some s := by
  unfold String.fromUTF8?
  rw [dif_pos s.isValidUTF8]
  rfl

@[simp]
theorem decode?_encode (text : Text) : decode? (encode text) = some text := by
  rw [decode?, encode, fromUTF8?_toByteArray, Option.map_some, String.toList_ofList]

theorem encode_append (first second : Text) :
    encode (first ++ second) = encode first ++ encode second := by
  simp [encode]

end Upkeep
