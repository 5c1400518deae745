import FlowCalibration.Text.Utf8

/-!
# Texts in UTF-8

The bytes of a text read as the text, and those of a text in ASCII are ASCII.
-/

namespace FlowCalibration

namespace Utf8

theorem decode?_encode (text : String) : decode? (encode text) = some text := by
  have valid : text.toUTF8.IsValidUTF8 := text.isValidUTF8
  have read : String.fromUTF8? text.toUTF8 = some text := by
    rw [String.fromUTF8?, dif_pos valid]
    rfl
  simpa [decode?, encode] using read

theorem encode_eq_flatMap (text : String) :
    encode text = text.toList.flatMap String.utf8EncodeChar := by
  have bytes_eq : text.toUTF8 = text.toList.utf8Encode := String.utf8Encode_toList.symm
  rw [encode, bytes_eq, List.utf8Encode, List.toList_data_toByteArray]

theorem lt_of_mem_encode {text : String} (ascii : ∀ c ∈ text.toList, c.toNat < 0x80)
    {byte : UInt8} (member : byte ∈ encode text) : byte < 0x80 := by
  rw [encode_eq_flatMap] at member
  obtain ⟨c, inside, member⟩ := List.mem_flatMap.mp member
  have small : c.toNat < 0x80 := ascii c inside
  have short : c.utf8Size = 1 := by
    rw [Char.utf8Size_eq_one_iff, UInt32.le_iff_toNat_le]
    exact Nat.le_of_lt_succ small
  rw [String.utf8EncodeChar_eq_singleton short, List.mem_singleton] at member
  rw [member, UInt8.lt_iff_toNat_lt, UInt32.toNat_toUInt8]
  exact Nat.lt_of_le_of_lt (Nat.mod_le _ _) small

end Utf8

end FlowCalibration
