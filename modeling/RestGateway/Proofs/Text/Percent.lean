import RestGateway.Proofs.Text.Utf8
import RestGateway.Text.Percent

/-!
# Undoing percent escapes

If percent signs are escaped, decoding what was encoded gives the bytes back, and every percent sign
starts an escape. A text that was written has no bytes that mean something else in a target.
-/

namespace RestGateway

theorem Ascii.hexValue?_upperHexByte : ∀ n < 16, hexValue? (upperHexByte n) = some n := by
  decide

namespace Percent

/-- The two digits of an escape stand for its byte. -/
theorem pair?_upperHexByte (b : UInt8) :
    pair? (Ascii.upperHexByte (b.toNat / 16)) (Ascii.upperHexByte (b.toNat % 16)) = some b := by
  have hlt := b.toNat_lt
  have hhigh := Ascii.hexValue?_upperHexByte (b.toNat / 16) (by omega)
  have hlow := Ascii.hexValue?_upperHexByte (b.toNat % 16) (by omega)
  rw [pair?, hhigh, hlow]
  simp only [Nat.div_add_mod', UInt8.ofNat_toNat]

/-- A byte outside an escape is taken as it is. -/
theorem decodeOnto_cons_of_ne {plain : UInt8 → UInt8} {done s : Bytes} {b : UInt8}
    (hb : b ≠ 0x25) : decodeOnto plain done (b :: s) = decodeOnto plain (plain b :: done) s := by
  have hne : (b == 0x25) = false := beq_false_of_ne hb
  match s with
  | [] | [_] | _ :: _ :: _ => simp [decodeOnto, hne]

/-- What was encoded is decoded behind what was decoded before, if bytes that are not escaped stand
for themselves. -/
theorem decodeOnto_encode {plain : UInt8 → UInt8} {special : UInt8 → Bool}
    (hs : special 0x25 = true) (hplain : ∀ b, special b = false → plain b = b) (s done : Bytes) :
    decodeOnto plain done (encode special s) = done.reverse ++ s := by
  induction s generalizing done with
  | nil => simp [encode, decodeOnto]
  | cons b s ih =>
      have hcons : encode special (b :: s) =
          (if special b then escape b else [b]) ++ encode special s := rfl
      rw [hcons]
      by_cases hb : special b = true
      · rw [if_pos hb]
        simp only [escape, List.cons_append, List.nil_append, decodeOnto, beq_self_eq_true, if_true,
          pair?_upperHexByte, ih]
        simp
      · have hne : b ≠ 0x25 := fun heq => hb (heq ▸ hs)
        rw [if_neg hb, List.cons_append, List.nil_append, decodeOnto_cons_of_ne hne, ih,
          hplain b (Bool.eq_false_iff.mpr hb)]
        simp

/-- Escaped bytes are read back. -/
theorem decode_encode {special : UInt8 → Bool} (hs : special 0x25 = true) (s : Bytes) :
    decode (encode special s) = s := by
  rw [decode, @decodeOnto_encode id special hs (fun _ _ => rfl), List.reverse_nil, List.nil_append]

/-- Escaped bytes of a form are read back if plus signs are escaped as well. -/
theorem decodeForm_encode {special : UInt8 → Bool} (hs : special 0x25 = true)
    (hplus : special 0x2B = true) (s : Bytes) : decodeForm (encode special s) = s := by
  have hplain : ∀ b, special b = false → (if b == 0x2B then (0x20 : UInt8) else b) = b := by
    intro b hb
    apply if_neg
    intro heq
    rw [beq_iff_eq.mp heq, hplus] at hb
    cases hb
  rw [decodeForm, decodeOnto_encode hs hplain, List.reverse_nil, List.nil_append]

/-- A byte that has no part in escapes and stands for itself is there after decoding as well. -/
theorem mem_decodeOnto {plain : UInt8 → UInt8} {b : UInt8} (hb : b ≠ 0x25)
    (hdigit : Ascii.hexValue? b = none) (hplain : plain b = b) {done s : Bytes}
    (h : b ∈ done ∨ b ∈ s) : b ∈ decodeOnto plain done s := by
  fun_induction decodeOnto plain done s with
  | case1 done =>
      simpa using h
  | case2 done a ha high low rest byte hpair ih =>
      apply ih
      rcases h with h | h
      · exact Or.inl (List.mem_cons_of_mem byte h)
      · -- The three bytes of an escape are a percent sign and two digits.
        have hhigh : b ≠ high := by
          rintro rfl
          rw [pair?, hdigit] at hpair
          cases hpair
        have hlow : b ≠ low := by
          rintro rfl
          rw [pair?, hdigit] at hpair
          split at hpair <;> simp_all
        simp only [List.mem_cons, hhigh, hlow, false_or] at h
        rcases h with rfl | h
        · exact absurd (beq_iff_eq.mp ha) hb
        · exact Or.inr h
  | case3 done a ha high low rest hpair ih =>
      apply ih
      rcases h with h | h
      · exact Or.inl (List.mem_cons_of_mem a h)
      · rcases List.mem_cons.mp h with rfl | h
        · exact Or.inl List.mem_cons_self
        · exact Or.inr h
  | case4 done a ha short hshort =>
      rw [List.mem_append, List.mem_reverse]
      apply h.imp_right
      intro h
      rcases List.mem_cons.mp h with rfl | h
      · exact List.mem_cons_self
      · exact List.mem_cons_of_mem a (List.mem_map.mpr ⟨b, h, hplain⟩)
  | case5 done a s ha ih =>
      apply ih
      rcases h with h | h
      · exact Or.inl (List.mem_cons_of_mem _ h)
      · rcases List.mem_cons.mp h with rfl | h
        · exact Or.inl (by rw [hplain]; exact List.mem_cons_self)
        · exact Or.inr h

/-- A text without percent signs is decoded byte by byte. -/
theorem decodeOnto_of_not_mem {plain : UInt8 → UInt8} {s : Bytes} (h : 0x25 ∉ s) (done : Bytes) :
    decodeOnto plain done s = done.reverse ++ s.map plain := by
  induction s generalizing done with
  | nil => simp [decodeOnto]
  | cons b s ih =>
      obtain ⟨hb, hs⟩ := List.ne_and_not_mem_of_not_mem_cons h
      rw [decodeOnto_cons_of_ne hb.symm, ih hs]
      simp

/-- Nothing is escaped where no byte is special. -/
theorem encode_eq_self {special : UInt8 → Bool} {s : Bytes} (h : ∀ b ∈ s, special b = false) :
    encode special s = s := by
  induction s with
  | nil => rfl
  | cons b s ih =>
      have hrest := ih fun a ha => h a (List.mem_cons_of_mem b ha)
      have hb := h b List.mem_cons_self
      rw [encode, List.flatMap_cons, hb]
      exact congrArg (b :: ·) hrest

/-- A byte in front that is no percent sign starts no escape. -/
theorem badEscape?_cons_of_ne {b : UInt8} (hb : b ≠ 0x25) (s : Bytes) :
    badEscape? (b :: s) = badEscape? s := by
  have hne : (b == 0x25) = false := beq_false_of_ne hb
  match s with
  | [] | [_] | _ :: _ :: _ => simp [badEscape?, hne]

theorem badEscape?_of_not_mem {s : Bytes} (h : 0x25 ∉ s) : badEscape? s = none := by
  induction s with
  | nil => rfl
  | cons b s ih =>
      obtain ⟨hb, hs⟩ := List.ne_and_not_mem_of_not_mem_cons h
      rw [badEscape?_cons_of_ne hb.symm, ih hs]

/-- Good escapes in front hide no bad one. -/
theorem badEscape?_append {s : Bytes} (h : badEscape? s = none) (rest : Bytes) :
    badEscape? (s ++ rest) = badEscape? rest := by
  fun_induction badEscape? s with
  | case1 => rfl
  | case2 a ha b c s hdigits ih =>
      simp only [List.cons_append, badEscape?, ha, hdigits, if_true]
      exact ih h
  | case3 => cases h
  | case4 => cases h
  | case5 a s ha ih =>
      rw [List.cons_append, badEscape?_cons_of_ne (by simpa using ha)]
      exact ih h

theorem isHexDigit_upperHexByte (n : Nat) (h : n < 16) :
    Ascii.isHexDigit (Ascii.upperHexByte n) = true := by
  rw [Ascii.isHexDigit, Ascii.hexValue?_upperHexByte n h]
  rfl

/-- Every percent sign that was written starts an escape. -/
theorem badEscape?_encode {special : UInt8 → Bool} (hs : special 0x25 = true) (s : Bytes) :
    badEscape? (encode special s) = none := by
  induction s with
  | nil => rfl
  | cons b s ih =>
      have hcons : encode special (b :: s) =
          (if special b then escape b else [b]) ++ encode special s := rfl
      rw [hcons]
      by_cases hb : special b = true
      · have hlt := b.toNat_lt
        have hhigh := isHexDigit_upperHexByte (b.toNat / 16) (by omega)
        have hlow := isHexDigit_upperHexByte (b.toNat % 16) (by omega)
        rw [if_pos hb]
        simp only [escape, List.cons_append, List.nil_append, badEscape?, beq_self_eq_true, if_true,
          hhigh, hlow, Bool.and_self, ih]
      · have hne : b ≠ 0x25 := fun heq => hb (heq ▸ hs)
        rw [if_neg hb, List.cons_append, List.nil_append, badEscape?_cons_of_ne hne, ih]

theorem isUnreserved_upperHexByte : ∀ n < 16, isUnreserved (Ascii.upperHexByte n) = true := by
  decide

/-- A text is written with percent signs and unreserved bytes. -/
theorem of_mem_encodeText {s : String} {b : UInt8} (h : b ∈ encodeText s) :
    b = 0x25 ∨ isUnreserved b = true := by
  obtain ⟨a, _, hb⟩ := List.mem_flatMap.mp h
  split at hb
  · have hlt := a.toNat_lt
    simp only [escape, List.mem_cons, List.not_mem_nil, or_false] at hb
    rcases hb with rfl | rfl | rfl
    · exact Or.inl rfl
    · exact Or.inr (isUnreserved_upperHexByte _ (by omega))
    · exact Or.inr (isUnreserved_upperHexByte _ (by omega))
  · rename_i ha
    rw [List.mem_singleton.mp hb]
    exact Or.inr (by simpa using ha)

/-- A byte with a meaning of its own does not stand in a text that was written. -/
theorem not_mem_encodeText {b : UInt8} (hne : b ≠ 0x25) (hb : isUnreserved b = false) (s : String) :
    b ∉ encodeText s := by
  intro h
  rcases of_mem_encodeText h with heq | hun
  · exact hne heq
  · rw [hb] at hun
    cases hun

theorem decode_encodeText (s : String) : decode (encodeText s) = Utf8.encode s :=
  decode_encode (by decide) _

theorem decodeForm_encodeText (s : String) : decodeForm (encodeText s) = Utf8.encode s :=
  decodeForm_encode (by decide) (by decide) _

theorem badEscape?_encodeText (s : String) : badEscape? (encodeText s) = none :=
  badEscape?_encode (by decide) _

/-- Only the empty text is written as nothing. -/
theorem encodeText_eq_nil_iff {s : String} : encodeText s = [] ↔ s = "" := by
  constructor
  · intro hnil
    apply Utf8.encode_injective
    rw [← decode_encodeText, hnil]
    rfl
  · rintro rfl
    rfl

end Percent

end RestGateway
