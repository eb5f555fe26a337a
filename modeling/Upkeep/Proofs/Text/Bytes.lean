import Upkeep.Text.Utf8

/-!
The bytes of a text, and its places counted in bytes.  Only a character that is a single byte has
a byte below 128, and the place behind some first characters of a text is a place between
characters.
-/

namespace Upkeep

/-- The bytes of a text, one after the other. -/
def bytesOf (text : Text) : List UInt8 :=
  (encode text).data.toList

/-- The characters in front of a place that is counted in bytes, if no character lies across it. -/
def textBefore? (text : Text) (place : Nat) : Option Text :=
  if place ≤ (bytesOf text).length then decode? ((encode text).extract 0 place) else none

@[simp]
theorem bytesOf_nil : bytesOf [] = [] := by
  simp [bytesOf, encode]

@[simp]
theorem bytesOf_append (first second : Text) :
    bytesOf (first ++ second) = bytesOf first ++ bytesOf second := by
  rw [bytesOf, encode_append, ByteArray.data_append, Array.toList_append]
  rfl

@[simp]
theorem bytesOf_cons (c : Char) (rest : Text) :
    bytesOf (c :: rest) = String.utf8EncodeChar c ++ bytesOf rest := by
  have single : bytesOf [c] = String.utf8EncodeChar c := by
    simp [bytesOf, encode, List.utf8Encode_singleton, List.data_toByteArray]
  rw [← List.singleton_append, bytesOf_append, single]

theorem length_bytesOf (text : Text) : (bytesOf text).length = (encode text).size := by
  rw [bytesOf, Array.length_toList]
  rfl

theorem eq_toUInt8_iff
    {byte : UInt8} {d : Char}
    (ascii : d.toNat < 128) :
    byte = d.toUInt8 ↔ byte.toNat = d.toNat := by
  have same : d.toUInt8.toNat = d.toNat := Nat.mod_eq_of_lt (Nat.lt_trans ascii (by decide))
  rw [← UInt8.toNat_inj, same]

/-- The first byte of a character tells it from each character that is a single byte, and no
other byte of it is one. -/
theorem utf8EncodeChar_eq_cons (c : Char) :
    ∃ first others, String.utf8EncodeChar c = first :: others ∧
      (∀ byte ∈ others, 128 ≤ byte.toNat) ∧
      ∀ d : Char, d.toNat < 128 → (first = d.toUInt8 ↔ c = d) := by
  by_cases ascii : c.toNat < 128
  · have single : c.utf8Size = 1 := by
      rw [Char.utf8Size_eq_one_iff, UInt32.le_iff_toNat_le]
      exact Nat.le_of_lt_succ ascii
    refine ⟨c.toUInt8, [], String.utf8EncodeChar_eq_singleton single, by simp, ?_⟩
    intro d small
    rw [eq_toUInt8_iff small, ← Char.toNat_inj, (eq_toUInt8_iff ascii).1 rfl]
  · have wide : ∀ byte ∈ String.utf8EncodeChar c, 128 ≤ byte.toNat := by
      have large : ¬ c.val.toNat ≤ 127 := fun small => ascii (Nat.lt_succ_of_le small)
      simp only [String.utf8EncodeChar, if_neg large]
      split
      · simp; omega
      · split <;> simp <;> omega
    cases bytes : String.utf8EncodeChar c with
    | nil =>
        have size := String.length_utf8EncodeChar c
        rw [bytes, List.length_nil] at size
        exact absurd size.symm (Nat.ne_of_gt c.utf8Size_pos)
    | cons first others =>
        rw [bytes, List.forall_mem_cons] at wide
        refine ⟨first, others, rfl, wide.2, ?_⟩
        intro d small
        rw [eq_toUInt8_iff small, ← Char.toNat_inj]
        omega

/-- In front of the place behind some first characters are these characters. -/
theorem textBefore?_append (front back : Text) :
    textBefore? (front ++ back) (bytesOf front).length = some front := by
  rw [textBefore?, if_pos (by simp), length_bytesOf, encode_append,
    ByteArray.extract_append_eq_left rfl, decode?_encode]

theorem isValid_append (front back : Text) :
    String.Pos.Raw.IsValid (String.ofList (front ++ back)) ⟨(bytesOf front).length⟩ := by
  rw [String.Pos.Raw.isValid_iff_exists_append]
  refine ⟨String.ofList front, String.ofList back, String.ofList_append, ?_⟩
  rw [length_bytesOf]
  rfl

end Upkeep
