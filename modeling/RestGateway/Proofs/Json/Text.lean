import Mathlib.Tactic.SplitIfs
import RestGateway.Json.Text
import RestGateway.Proofs.Text.Utf8

/-!
# Reading back strings

What is written of a character inside a string puts the bytes of this character among those that
were read, so what is written of a text is read as the bytes of the text.
-/

namespace RestGateway.Json

/-- Bytes that stand for themselves inside a string. -/
def IsPlain (b : UInt8) : Prop := b ≠ 0x22 ∧ b ≠ 0x5C ∧ ¬ b < 0x20

section

variable (done s : Bytes)

theorem readStringOnto_quote : readStringOnto done (0x22 :: s) = closeString done s := by
  rw [readStringOnto.eq_def]
  rfl

theorem readStringOnto_plain {b : UInt8} (h : IsPlain b) :
    readStringOnto done (b :: s) = readStringOnto (b :: done) s := by
  obtain ⟨hquote, hslash, hcontrol⟩ := h
  rw [readStringOnto.eq_def]
  simp [hquote, hslash, hcontrol]

theorem readStringOnto_letter {letter : UInt8} {c : Char} (h : shortEscape? letter = some c) :
    readStringOnto done (0x5C :: letter :: s) = readStringOnto (putChar done c) s := by
  have hletter : letter ≠ 0x75 := by
    rintro rfl
    cases h
  rw [readStringOnto.eq_def]
  simp [hletter, h]

theorem readStringOnto_digits {a b c d : UInt8} {n : Nat} (h : hexNumber? a b c d = some n)
    (hn : n < 0xD800) :
    readStringOnto done (0x5C :: 0x75 :: a :: b :: c :: d :: s) =
      readStringOnto (putChar done (Char.ofNat n)) s := by
  have hlow : ¬ 0xDC00 ≤ n := by omega
  have hhigh : ¬ 0xD800 ≤ n := by omega
  rw [readStringOnto.eq_def]
  simp [h, isLowSurrogate, isHighSurrogate, hlow, hhigh]

end

/-- A character is written by a letter, by its number, or as it is. -/
theorem writeChar_cases (c : Char) :
    (∃ letter, shortEscape? letter = some c ∧ writeChar c = [0x5C, letter]) ∨
      (c.toNat < 0x20 ∧ writeChar c =
        [0x5C, 0x75, 0x30, 0x30, 0x30 + UInt8.ofNat (c.toNat / 16),
          UInt8.ofNat (Ascii.lowerHexDigit (c.toNat % 16)).toNat]) ∨
      (c ≠ '"' ∧ c ≠ '\\' ∧ 0x20 ≤ c.toNat ∧ writeChar c = Utf8.encodeChar c) := by
  unfold writeChar
  split_ifs with hquote hslash hback hfeed hline hreturn htab hcontrol
  · exact Or.inl ⟨0x22, hquote ▸ rfl, rfl⟩
  · exact Or.inl ⟨0x5C, hslash ▸ rfl, rfl⟩
  · exact Or.inl ⟨0x62, hback ▸ rfl, rfl⟩
  · exact Or.inl ⟨0x66, hfeed ▸ rfl, rfl⟩
  · exact Or.inl ⟨0x6E, hline ▸ rfl, rfl⟩
  · exact Or.inl ⟨0x72, hreturn ▸ rfl, rfl⟩
  · exact Or.inl ⟨0x74, htab ▸ rfl, rfl⟩
  · exact Or.inr (Or.inl ⟨hcontrol, rfl⟩)
  · exact Or.inr (Or.inr ⟨hquote, hslash, Nat.le_of_not_lt hcontrol, rfl⟩)

/-- The digits of a control character stand for its number. -/
theorem hexNumber?_of_lt {n : Nat} (h : n < 0x20) :
    hexNumber? 0x30 0x30 (0x30 + UInt8.ofNat (n / 16))
      (UInt8.ofNat (Ascii.lowerHexDigit (n % 16)).toNat) = some n := by
  have hall : ∀ n < 0x20, hexNumber? 0x30 0x30 (0x30 + UInt8.ofNat (n / 16))
      (UInt8.ofNat (Ascii.lowerHexDigit (n % 16)).toNat) = some n := by decide
  exact hall n h

/-- A character that is not escaped has plain bytes only. -/
theorem isPlain_of_mem_encodeChar {c : Char} (hquote : c ≠ '"') (hslash : c ≠ '\\')
    (hcontrol : 0x20 ≤ c.toNat) {b : UInt8} (hb : b ∈ Utf8.encodeChar c) : IsPlain b := by
  by_cases hascii : c.toNat < 0x80
  · rw [Utf8.encodeChar_of_lt hascii, List.mem_singleton] at hb
    have hnat : b.toNat = c.toNat := hb ▸ Utf8.toNat_byte hascii
    refine ⟨?_, ?_, ?_⟩
    · rintro rfl
      exact hquote (Char.toNat_inj.mp hnat.symm)
    · rintro rfl
      exact hslash (Char.toNat_inj.mp hnat.symm)
    · rw [UInt8.lt_iff_toNat_lt, hnat]
      exact Nat.not_lt.mpr hcontrol
  · have hle : 0x80 ≤ b.toNat :=
      UInt8.le_iff_toNat_le.mp (Utf8.le_of_mem_encodeChar (Nat.le_of_not_lt hascii) hb)
    refine ⟨?_, ?_, ?_⟩
    · rintro rfl
      exact absurd hle (by decide)
    · rintro rfl
      exact absurd hle (by decide)
    · rw [UInt8.lt_iff_toNat_lt]
      exact Nat.not_lt.mpr (Nat.le_trans (by decide) hle)

/-- Plain bytes are read as they are. -/
theorem readStringOnto_append {bs : Bytes} (h : ∀ b ∈ bs, IsPlain b) (done s : Bytes) :
    readStringOnto done (bs ++ s) = readStringOnto (bs.reverse ++ done) s := by
  induction bs generalizing done with
  | nil => rfl
  | cons b bs ih =>
      rw [List.cons_append, readStringOnto_plain done _ (h b List.mem_cons_self),
        ih fun b hb => h b (List.mem_cons_of_mem _ hb)]
      simp

/-- What is written of a character is read as this character. -/
theorem readStringOnto_writeChar (c : Char) (done s : Bytes) :
    readStringOnto done (writeChar c ++ s) = readStringOnto (putChar done c) s := by
  rcases writeChar_cases c with ⟨letter, hletter, hw⟩ | ⟨hcontrol, hw⟩ | ⟨hquote, hslash, hle, hw⟩
  · rw [hw]
    exact readStringOnto_letter done s hletter
  · have hdigits := readStringOnto_digits done s (hexNumber?_of_lt hcontrol) (by omega)
    rw [Char.ofNat_toNat] at hdigits
    rw [hw]
    exact hdigits
  · rw [hw]
    exact readStringOnto_append (fun b hb => isPlain_of_mem_encodeChar hquote hslash hle hb) done s

/-- What is written of characters is read as their bytes, up to the closing quote. -/
theorem readStringOnto_writeChars (cs : List Char) (done s : Bytes) :
    readStringOnto done (cs.flatMap writeChar ++ 0x22 :: s) =
      closeString ((cs.flatMap Utf8.encodeChar).reverse ++ done) s := by
  induction cs generalizing done with
  | nil => exact readStringOnto_quote done s
  | cons c cs ih =>
      rw [List.flatMap_cons, List.append_assoc, readStringOnto_writeChar, ih]
      simp [putChar]

/-- A text is read back from what is written between its quotes. -/
theorem readString_writeChars (text : String) (rest : Bytes) :
    readString (text.toList.flatMap writeChar ++ 0x22 :: rest) = .ok (text, rest) := by
  rw [readString, readStringOnto_writeChars, ← Utf8.encode_eq_flatMap, closeString]
  simp [Utf8.decode_encode]

end RestGateway.Json
