import Mathlib.Data.List.Basic

set_option autoImplicit false

namespace MediaplayerServer.Utf8

/-- The bytes encode some text. -/
def Valid (bytes : List UInt8) : Prop := bytes.toByteArray.IsValidUTF8

theorem valid_encode (chars : List Char) : Valid (chars.flatMap String.utf8EncodeChar) :=
  ⟨chars, rfl⟩

theorem Valid.append {first second : List UInt8} (valid : Valid first) (next : Valid second) :
    Valid (first ++ second) := by
  rw [Valid, List.toByteArray_append]
  exact ByteArray.IsValidUTF8.append valid next

theorem valid_replicate (byte : UInt8) (valid : Valid [byte]) (count : Nat) :
    Valid (List.replicate count byte) := by
  induction count with
  | zero => exact valid_encode []
  | succ count ih => exact valid.append ih

theorem toByteArray_take (bytes : List UInt8) (count : Nat) :
    (bytes.take count).toByteArray = bytes.toByteArray.extract 0 count := by
  apply ByteArray.ext
  rw [List.data_toByteArray, ByteArray.data_extract, List.data_toByteArray]
  apply Array.toList_inj.mp
  simp

/-- The text that a valid byte string encodes. -/
def text (bytes : List UInt8) (valid : Valid bytes) : String :=
  String.ofByteArray bytes.toByteArray valid

theorem text_size (bytes : List UInt8) (valid : Valid bytes) :
    (text bytes valid).utf8ByteSize = bytes.length := by
  rw [← String.size_toByteArray]
  exact List.size_toByteArray

theorem valid_take_iff_position (bytes : List UInt8) (valid : Valid bytes) (count : Nat)
    (inside : count ≤ bytes.length) :
    Valid (bytes.take count) ↔ (⟨count⟩ : String.Pos.Raw).IsValid (text bytes valid) := by
  have within : (⟨count⟩ : String.Pos.Raw) ≤ (text bytes valid).rawEndPos := by
    rw [String.Pos.Raw.le_iff, String.byteIdx_rawEndPos, text_size]
    exact inside
  rw [String.Pos.Raw.isValid_iff_isValidUTF8_extract_zero, Valid, toByteArray_take]
  exact (and_iff_right within).symm

/-- A valid text can be cut off at its end and in front of the first byte of a
character, and nowhere else. -/
theorem valid_take_iff (bytes : List UInt8) (valid : Valid bytes) (count : Nat) :
    Valid (bytes.take count) ↔
      bytes.length ≤ count ∨ ∃ byte, bytes[count]? = some byte ∧ byte.IsUTF8FirstByte := by
  by_cases whole : bytes.length ≤ count
  · rw [List.take_of_length_le whole]
    exact iff_of_true valid (Or.inl whole)
  · rw [Nat.not_le] at whole
    have inside : (⟨count⟩ : String.Pos.Raw) < (text bytes valid).rawEndPos := by
      rw [String.Pos.Raw.lt_iff, String.byteIdx_rawEndPos, text_size]
      exact whole
    have byte : (text bytes valid).getUTF8Byte ⟨count⟩ inside = bytes[count] := by
      rw [String.getUTF8Byte_eq_getElem]
      exact List.getElem_toByteArray
    have notEnd : (⟨count⟩ : String.Pos.Raw) ≠ (text bytes valid).rawEndPos :=
      fun same => absurd (same ▸ inside) (Nat.lt_irrefl _)
    rw [valid_take_iff_position bytes valid count (Nat.le_of_lt whole),
      String.Pos.Raw.isValid_iff_isUTF8FirstByte, List.getElem?_eq_getElem whole,
      or_iff_right notEnd, or_iff_right (Nat.not_le.mpr whole)]
    constructor
    · rintro ⟨bound, first⟩
      exact ⟨_, rfl, byte ▸ first⟩
    · rintro ⟨first, same, isFirst⟩
      cases same
      exact ⟨inside, byte.symm ▸ isFirst⟩

end MediaplayerServer.Utf8
