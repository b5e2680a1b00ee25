/-
  DeskCalc.Proofs.Text.Encoding — texts as bytes.

  Every character is encoded by bytes of its own. A byte of ASCII stands for its character
  and is no part of any other, so a line feed and a carriage return are found in the
  bytes of a text where they are in the text, and nowhere else.

  Proved:
  - `mem_encodeChar_iff`: a byte of ASCII encodes its character and no other.
  - `mem_encode_iff` / `getLast?_encode_iff`: where it is found in the bytes of a text.
  - `Session.text?_eq_some_iff`: bytes are a text exactly if they encode it.
-/

import DeskCalc.Session

namespace DeskCalc.Text

/-- The bytes of a text in UTF-8. -/
def encode (cs : List Char) : List UInt8 := cs.flatMap String.utf8EncodeChar

theorem encode_append (cs ds : List Char) : encode (cs ++ ds) = encode cs ++ encode ds := List.flatMap_append

theorem encode_eq_nil_iff {cs : List Char} : encode cs = [] ↔ cs = [] := by
  cases cs with
  | nil => exact ⟨fun _ => rfl, fun _ => rfl⟩
  | cons c cs => simp [encode, String.utf8EncodeChar_ne_nil]

/-! ## Bytes of ASCII -/

def IsAscii (c : Char) : Prop := c.val ≤ 127

theorem encodeChar_ascii {c : Char} (h : IsAscii c) : String.utf8EncodeChar c = [c.toUInt8] :=
  String.utf8EncodeChar_eq_singleton (Char.utf8Size_eq_one_iff.mpr h)

theorem toNat_toUInt8 {c : Char} (h : IsAscii c) : c.toUInt8.toNat = c.val.toNat := by
  have small : c.val.toNat ≤ 127 := UInt32.le_iff_toNat_le.mp h
  rw [Char.toUInt8, UInt32.toNat_toUInt8]
  omega

theorem le_toNat_ofNat {n : Nat} (low : 128 ≤ n) (high : n < 256) : 128 ≤ (UInt8.ofNat n).toNat := by
  rw [UInt8.toNat_ofNat']
  omega

/-- The bytes of a character beyond ASCII are beyond it too. -/
theorem le_of_mem_encodeChar {c : Char} (h : ¬IsAscii c) : ∀ b ∈ String.utf8EncodeChar c, 128 ≤ b.toNat := by
  have large : ¬c.val.toNat ≤ 127 := fun small => h (UInt32.le_iff_toNat_le.mpr small)
  intro b hb
  unfold String.utf8EncodeChar at hb
  simp only [if_neg large] at hb
  -- two, three or four bytes, each with its high bit set
  split at hb
  · simp only [List.mem_cons, List.not_mem_nil, or_false] at hb
    rcases hb with rfl | rfl <;> exact le_toNat_ofNat (by omega) (by omega)
  split at hb
  · simp only [List.mem_cons, List.not_mem_nil, or_false] at hb
    rcases hb with rfl | rfl | rfl <;> exact le_toNat_ofNat (by omega) (by omega)
  · simp only [List.mem_cons, List.not_mem_nil, or_false] at hb
    rcases hb with rfl | rfl | rfl | rfl <;> exact le_toNat_ofNat (by omega) (by omega)

theorem mem_encodeChar_iff {c d : Char} (hd : IsAscii d) : d.toUInt8 ∈ String.utf8EncodeChar c ↔ c = d := by
  constructor
  · intro h
    by_cases hc : IsAscii c
    · rw [encodeChar_ascii hc, List.mem_singleton] at h
      have number := congrArg UInt8.toNat h
      rw [toNat_toUInt8 hd, toNat_toUInt8 hc] at number
      exact Char.ext (UInt32.toNat_inj.mp number.symm)
    · have low := le_of_mem_encodeChar hc _ h
      have high : d.val.toNat ≤ 127 := UInt32.le_iff_toNat_le.mp hd
      rw [toNat_toUInt8 hd] at low
      omega
  · rintro rfl
    rw [encodeChar_ascii hd]
    exact List.mem_singleton_self _

theorem mem_encode_iff {d : Char} (hd : IsAscii d) {cs : List Char} : d.toUInt8 ∈ encode cs ↔ d ∈ cs := by
  rw [encode, List.mem_flatMap]
  constructor
  · rintro ⟨c, hc, h⟩
    rwa [(mem_encodeChar_iff hd).mp h] at hc
  · exact fun h => ⟨d, h, (mem_encodeChar_iff hd).mpr rfl⟩

/-- A text ends in a character of ASCII if its bytes do. -/
theorem getLast?_encode_iff {d : Char} (hd : IsAscii d) {cs : List Char} :
    (encode cs).getLast? = some d.toUInt8 ↔ cs.getLast? = some d := by
  rcases List.eq_nil_or_concat cs with rfl | ⟨front, c, rfl⟩
  · simp [encode]
  have bytes : (String.utf8EncodeChar c).getLast? ≠ none := by
    rw [Ne, List.getLast?_eq_none_iff]
    exact String.utf8EncodeChar_ne_nil
  have last : (encode (front ++ [c])).getLast? = (String.utf8EncodeChar c).getLast? := by
    rw [encode_append, List.getLast?_append, encode, List.flatMap_singleton]
    exact Option.or_of_isSome (Option.isSome_iff_ne_none.mpr bytes)
  rw [List.concat_eq_append, last, List.getLast?_append]
  constructor
  · intro h
    obtain rfl := (mem_encodeChar_iff hd).mp (List.mem_of_getLast? h)
    rfl
  · intro h
    obtain rfl : c = d := Option.some.inj h
    rw [encodeChar_ascii hd]
    rfl

end DeskCalc.Text

namespace DeskCalc.Session

theorem text?_eq_some_iff {line : List UInt8} {text : String} :
    text? line = some text ↔ line = Text.encode text.toList := by
  have bytes : text.toByteArray = (Text.encode text.toList).toByteArray := String.utf8Encode_toList.symm
  have array : (⟨line.toArray⟩ : ByteArray) = line.toByteArray := ByteArray.ext List.data_toByteArray.symm
  rw [text?, array, ← List.toByteArray_inj, ← bytes, String.fromUTF8?]
  constructor
  · intro h
    split at h
    · cases h
      rfl
    · cases h
  · intro h
    rw [dif_pos (h ▸ text.isValidUTF8)]
    exact congrArg some (String.toByteArray_inj.mp h)

end DeskCalc.Session
