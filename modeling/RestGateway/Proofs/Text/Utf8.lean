import RestGateway.Text.Utf8

/-!
# Texts as bytes, character by character

The bytes of a text are the bytes of its characters one after the other. An ASCII character is a
single byte, and no byte of another character is an ASCII byte.
-/

namespace RestGateway.Utf8

/-- Different texts have different bytes. -/
theorem encode_injective {s t : String} (h : encode s = encode t) : s = t := by
  have hdecode : decode (encode s) = decode (encode t) := congrArg decode h
  rw [decode_encode, decode_encode] at hdecode
  exact Except.ok.inj hdecode

theorem encode_eq_flatMap (s : String) : encode s = s.toList.flatMap encodeChar := by
  have h : s.toByteArray = s.toList.utf8Encode := String.utf8Encode_toList.symm
  rw [encode, h, List.utf8Encode, List.data_toByteArray]
  rfl

theorem encode_append (s t : String) : encode (s ++ t) = encode s ++ encode t := by
  rw [encode_eq_flatMap, encode_eq_flatMap, encode_eq_flatMap, String.toList_append,
    List.flatMap_append]

/-- The byte of an ASCII character has its number. -/
theorem toNat_byte {c : Char} (h : c.toNat < 0x80) : (UInt8.ofNat c.toNat).toNat = c.toNat :=
  UInt8.toNat_ofNat_of_lt' (Nat.lt_trans h (by decide))

theorem byte_lt {c : Char} (h : c.toNat < 0x80) : UInt8.ofNat c.toNat < 0x80 := by
  rw [UInt8.lt_iff_toNat_lt, toNat_byte h]
  exact h

theorem encodeChar_of_lt {c : Char} (h : c.toNat < 0x80) :
    encodeChar c = [UInt8.ofNat c.toNat] := by
  have hle : c.val.toNat ≤ 0x7F := Nat.le_of_lt_succ h
  simp only [encodeChar, String.utf8EncodeChar, if_pos hle]
  rfl

/-- Characters beyond ASCII have bytes beyond ASCII only. -/
theorem le_of_mem_encodeChar {c : Char} (h : 0x80 ≤ c.toNat) {b : UInt8}
    (hb : b ∈ encodeChar c) : 0x80 ≤ b := by
  have hlt : ¬ c.val.toNat ≤ 0x7F := Nat.not_le.mpr h
  have hhigh : ∀ n, 0x80 ≤ n → n < 0x100 → (0x80 : UInt8) ≤ UInt8.ofNat n := by
    intro n hle hn
    rw [UInt8.le_iff_toNat_le, UInt8.toNat_ofNat_of_lt' hn]
    exact hle
  simp only [encodeChar, String.utf8EncodeChar, if_neg hlt] at hb
  split at hb
  · simp only [List.mem_cons, List.not_mem_nil, or_false] at hb
    rcases hb with rfl | rfl <;> exact hhigh _ (by omega) (by omega)
  · split at hb
    · simp only [List.mem_cons, List.not_mem_nil, or_false] at hb
      rcases hb with rfl | rfl | rfl <;> exact hhigh _ (by omega) (by omega)
    · simp only [List.mem_cons, List.not_mem_nil, or_false] at hb
      rcases hb with rfl | rfl | rfl | rfl <;> exact hhigh _ (by omega) (by omega)

/-- An ASCII byte is of an ASCII character. -/
theorem lt_of_mem_encodeChar {c : Char} {b : UInt8} (hb : b ∈ encodeChar c) (h : b < 0x80) :
    c.toNat < 0x80 :=
  Nat.lt_of_not_le fun hge => UInt8.not_le.mpr h (le_of_mem_encodeChar hge hb)

/-- The bytes of a text are all ASCII exactly if its characters are. -/
theorem forall_mem_encode_lt_iff {s : String} :
    (∀ b ∈ encode s, b < 0x80) ↔ ∀ c ∈ s.toList, c.toNat < 0x80 := by
  simp only [encode_eq_flatMap, List.mem_flatMap]
  constructor
  · intro h c hc
    obtain ⟨b, hb⟩ := List.exists_mem_of_ne_nil (encodeChar c) String.utf8EncodeChar_ne_nil
    exact lt_of_mem_encodeChar hb (h b ⟨c, hc, hb⟩)
  · rintro h b ⟨c, hc, hb⟩
    rw [encodeChar_of_lt (h c hc), List.mem_singleton] at hb
    rw [hb]
    exact byte_lt (h c hc)

/-- A text of ASCII characters has one byte for each. -/
theorem encode_of_forall_lt {s : String} (h : ∀ c ∈ s.toList, c.toNat < 0x80) :
    encode s = s.toList.map fun c => UInt8.ofNat c.toNat := by
  have hchars : s.toList.map encodeChar = s.toList.map fun c => [UInt8.ofNat c.toNat] :=
    List.map_congr_left fun c hc => encodeChar_of_lt (h c hc)
  rw [encode_eq_flatMap, List.map_eq_flatMap, List.flatMap_def, List.flatMap_def, hchars]

end RestGateway.Utf8
