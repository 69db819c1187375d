import Mathlib.Data.List.Basic
import RestGateway.Deadline.Words
import RestGateway.Proofs.Deadline.RoundTrip
import RestGateway.Proofs.Number.Integer

/-!
# Limits byte by byte

A limit is one to eight digits and the letter of a unit, and the bytes of a text say so as well as
its characters. A text with other bytes than ASCII is refused before it is cut, so the cut in front
of the last byte is one in front of the last character. An amount of eight digits is so far below
the end of a word that even the seconds in that many hours are.
-/

namespace RestGateway

namespace Ascii

theorem isDigit_byte {c : Char} (h : c.toNat < 0x80) :
    isDigit (UInt8.ofNat c.toNat) = c.isDigit := by
  rw [Bool.eq_iff_iff, Char.isDigit_iff_toNat]
  simp only [isDigit, Bool.and_eq_true, decide_eq_true_eq, UInt8.le_iff_toNat_le,
    Utf8.toNat_byte h]
  rfl

theorem lt_of_isDigit {c : Char} (h : c.isDigit = true) : c.toNat < 0x80 :=
  Nat.lt_of_le_of_lt (Char.isDigit_iff_toNat.mp h).2 (by decide)

theorem digitValue_byte {c : Char} (h : c.isDigit = true) :
    digitValue (UInt8.ofNat c.toNat) = c.toNat - 48 := by
  have hle : (0x30 : UInt8) ≤ UInt8.ofNat c.toNat := by
    rw [UInt8.le_iff_toNat_le, Utf8.toNat_byte (lt_of_isDigit h)]
    exact (Char.isDigit_iff_toNat.mp h).1
  rw [digitValue, UInt8.toNat_sub_of_le _ _ hle, Utf8.toNat_byte (lt_of_isDigit h)]
  rfl

/-- The bytes of digits stand for the number that the digits stand for. -/
theorem number_bytes {digits : List Char} (h : ∀ c ∈ digits, c.isDigit = true) :
    number (digits.map fun c => UInt8.ofNat c.toNat) = Digits.value digits := by
  rw [number, Digits.value, List.foldl_map]
  exact List.foldl_ext _ _ _ fun n c hc => by rw [digitValue_byte (h c hc)]

end Ascii

namespace Utf8

theorem encode_singleton (c : Char) : encode (String.singleton c) = encodeChar c := by
  rw [encode_eq_flatMap, String.toList_singleton, List.flatMap_singleton]

theorem encodeChar_inj {c d : Char} : encodeChar c = encodeChar d ↔ c = d := by
  refine ⟨fun h => ?_, congrArg _⟩
  rw [← encode_singleton, ← encode_singleton] at h
  exact String.singleton_inj.mp (encode_injective h)

/-- An ASCII byte follows a whole character. -/
theorem splitLast?_concat {front : Bytes} {last : UInt8} (h : last < 0x80) :
    splitLast? (front ++ [last]) = some (front, [last]) := by
  have htail : isTail last = false := by
    rw [isTail, decide_eq_false (UInt8.not_le.mpr h), Bool.false_and]
  simp [splitLast?, isBoundary, htail]

/-- A text of ASCII characters is cut in front of the last of them. -/
theorem splitLast?_encode {s : String} {front : List Char} {last : Char}
    (hs : s.toList = front ++ [last]) (hascii : ∀ c ∈ s.toList, c.toNat < 0x80) :
    splitLast? (encode s) = some (front.map fun c => UInt8.ofNat c.toNat, encodeChar last) := by
  have hlast : last.toNat < 0x80 := hascii last (by simp [hs])
  rw [encode_of_forall_lt hascii, hs, List.map_append, List.map_singleton,
    splitLast?_concat (byte_lt hlast), encodeChar_of_lt hlast]

end Utf8

namespace Deadline

/-- A letter is known by its bytes. -/
theorem Unit.ofBytes?_encodeChar (c : Char) : ofBytes? (Utf8.encodeChar c) = ofLetter? c := by
  simp only [ofBytes?, ofLetter?, Utf8.encodeChar_inj]

namespace Span

/-- A span of two words is a span of time, in whole seconds and the nanoseconds beyond them. -/
structure Measures (span : Span) (d : Duration) : Prop where
  seconds : span.seconds.toNat = d.seconds
  subsecond : span.subsecond.toNat = d.subsecond

theorem times?_of_lt {a b : UInt64} (h : a.toNat * b.toNat < UInt64.size) :
    ∃ c, times? a b = some c ∧ c.toNat = a.toNat * b.toNat :=
  ⟨a * b, if_pos h, by rw [UInt64.toNat_mul, Nat.mod_eq_of_lt h]⟩

theorem timesShort?_of_lt {a b : UInt32} (h : a.toNat * b.toNat < UInt32.size) :
    ∃ c, timesShort? a b = some c ∧ c.toNat = a.toNat * b.toNat :=
  ⟨a * b, if_pos h, by rw [UInt32.toNat_mul, Nat.mod_eq_of_lt h]⟩

theorem measures_whole {seconds : UInt64} {n : Nat} (h : n = seconds.toNat * 1000000000) :
    Measures ⟨seconds, 0⟩ ⟨n⟩ where
  seconds := by rw [h, Duration.seconds, Nat.mul_div_cancel _ (by decide)]
  subsecond := by rw [h, Duration.subsecond, Nat.mul_mod_left]; rfl

/-- Parts of a second never leave their words, however many there are. -/
theorem ofParts?_measures (amount : UInt64) {perSecond : UInt64} {nanos : UInt32}
    (h : perSecond.toNat * nanos.toNat = 1000000000) :
    ∃ span, ofParts? amount perSecond nanos = some span ∧
      span.Measures ⟨amount.toNat * nanos.toNat⟩ := by
  have hnanos : 0 < nanos.toNat := Nat.pos_of_ne_zero fun h0 => by simp [h0] at h
  have hper : 0 < perSecond.toNat := Nat.pos_of_ne_zero fun h0 => by simp [h0] at h
  have hle : perSecond.toNat ≤ 1000000000 := h ▸ Nat.le_mul_of_pos_right _ hnanos
  have hlt : amount.toNat % perSecond.toNat < perSecond.toNat := Nat.mod_lt _ hper
  have hrest : (amount % perSecond).toUInt32.toNat = amount.toNat % perSecond.toNat := by
    rw [UInt64.toNat_toUInt32, UInt64.toNat_mod, Nat.mod_eq_of_lt (by omega)]
  -- The parts that are left make less than a second.
  have hfits : (amount % perSecond).toUInt32.toNat * nanos.toNat < UInt32.size := by
    have hbound := (Nat.mul_lt_mul_right hnanos).mpr hlt
    rw [hrest]
    exact Nat.lt_trans (h ▸ hbound) (by decide)
  obtain ⟨subsecond, heq, hsub⟩ := timesShort?_of_lt hfits
  refine ⟨⟨amount / perSecond, subsecond⟩, by rw [ofParts?, heq, Option.map_some], ?_, ?_⟩
  · rw [UInt64.toNat_div, Duration.seconds, ← h, Nat.mul_div_mul_right _ _ hnanos]
  · rw [hsub, hrest, Duration.subsecond, ← h, Nat.mul_mod_mul_right]

/-- An amount of eight digits is measured in every unit. -/
theorem ofAmount?_measures {amount : UInt64} (h : amount.toNat < 10 ^ digitLimit) (u : Unit) :
    ∃ span, ofAmount? amount u = some span ∧ span.Measures ⟨amount.toNat * u.nanos⟩ := by
  have hamount : amount.toNat < 100000000 := h
  have hfits : amount.toNat * (60 : UInt64).toNat < UInt64.size := calc
    amount.toNat * 60 < 100000000 * 60 := Nat.mul_lt_mul_of_pos_right hamount (by decide)
    _ < UInt64.size := by decide
  obtain ⟨minutes, hminute, hminutes⟩ := times?_of_lt hfits
  cases u with
  | nanosecond => exact ofParts?_measures amount rfl
  | microsecond => exact ofParts?_measures amount rfl
  | millisecond => exact ofParts?_measures amount rfl
  | second => exact ⟨_, rfl, measures_whole rfl⟩
  | minute =>
      refine ⟨⟨minutes, 0⟩, by rw [ofAmount?, hminute, Option.map_some], measures_whole ?_⟩
      rw [hminutes, Nat.mul_assoc, Unit.nanos]
      rfl
  | hour =>
      -- The first product has left room for the second one.
      have hfits' : minutes.toNat * (60 : UInt64).toNat < UInt64.size := calc
        minutes.toNat * 60 = amount.toNat * 60 * 60 := by rw [hminutes]; rfl
        _ < 100000000 * 60 * 60 := by omega
        _ < UInt64.size := by decide
      obtain ⟨hours, hhour, hhours⟩ := times?_of_lt hfits'
      refine ⟨⟨hours, 0⟩, by simp [ofAmount?, hminute, hhour], measures_whole ?_⟩
      rw [hhours, hminutes, Unit.nanos, Nat.mul_assoc, Nat.mul_assoc]
      rfl

end Span

/-- A text is one to eight digits and the letter of a unit. -/
structure IsLimit (s : String) (digits : List Char) (u : Unit) : Prop where
  text : s.toList = digits ++ [u.letter]
  digit : ∀ c ∈ digits, c.isDigit = true
  nonempty : 1 ≤ digits.length
  short : digits.length ≤ 8

section Reading

variable {s : String} {front : List Char} {last : Char} {u : Unit} {d : Duration}

theorem Unit.letter_lt (u : Unit) : u.letter.toNat < 0x80 := by cases u <;> decide

theorem Unit.letter_of_ofLetter? (h : ofLetter? last = some u) : u.letter = last := by
  simpa using List.find?_some h

theorem IsLimit.ascii (h : IsLimit s front u) : ∀ c ∈ s.toList, c.toNat < 0x80 := by
  intro c hc
  rw [h.text, List.mem_append, List.mem_singleton] at hc
  rcases hc with hc | rfl
  · exact Ascii.lt_of_isDigit (h.digit c hc)
  · exact u.letter_lt

theorem IsLimit.value_lt (h : IsLimit s front u) : Digits.value front < 10 ^ digitLimit :=
  Nat.lt_of_lt_of_le (Digits.value_lt h.digit) (Nat.pow_le_pow_right (by decide) h.short)

/-- One to eight digits and the letter of a unit are read. -/
theorem IsLimit.parse?_eq (h : IsLimit s front u) :
    parse? s = some ⟨Digits.value front * u.nanos⟩ := by
  have hne : front.isEmpty = false :=
    List.isEmpty_eq_false_iff.mpr (List.length_pos_iff.mp h.nonempty)
  have hdigits : front.all Char.isDigit = true := List.all_eq_true.mpr h.digit
  have hshort : front.length ≤ digitLimit := h.short
  simp [parse?, h.text, hne, hdigits, hshort, Unit.ofLetter?_letter]

/-- Nothing else is read. -/
theorem exists_isLimit_of_parse? (h : parse? s = some d) : ∃ digits u, IsLimit s digits u := by
  unfold parse? at h
  simp only at h
  split at h
  case isFalse => cases h
  case isTrue hs =>
    simp only [bind, Option.bind_eq_some_iff] at h
    obtain ⟨c, hlast, u, hletter, -⟩ := h
    obtain ⟨digits, htext⟩ := List.getLast?_eq_some_iff.mp hlast
    rw [htext, List.dropLast_concat] at hs
    simp only [Bool.and_eq_true, Bool.not_eq_true', List.isEmpty_eq_false_iff, decide_eq_true_eq,
      List.all_eq_true] at hs
    exact ⟨digits, u, Unit.letter_of_ofLetter? hletter ▸ htext, hs.2,
      List.length_pos_iff.mpr hs.1.1, hs.1.2⟩

/-- A text of ASCII characters is cut in front of the last one. -/
theorem measure_of_ascii (hs : s.toList = front ++ [last]) (hne : front ≠ [])
    (hascii : ∀ c ∈ s.toList, c.toNat < 0x80) :
    measure s =
      measureParts (front.map fun c => UInt8.ofNat c.toNat) (Utf8.encodeChar last) := by
  have hlong : ¬ (Utf8.encode s).length < 2 := by
    have hpos := List.length_pos_iff.mpr hne
    rw [Utf8.encode_of_forall_lt hascii, hs, List.length_map, List.length_append,
      List.length_singleton]
    omega
  have hall : (Utf8.encode s).all (· < 0x80) = true := by
    simpa using Utf8.forall_mem_encode_lt_iff.mpr hascii
  simp only [measure, hlong, hall, Utf8.splitLast?_encode hs hascii, decide_false, Bool.not_true,
    Bool.or_self, Bool.false_eq_true, if_false]

/-- All other texts are refused before they are cut. -/
theorem exists_concat_of_measure (h : measure s ≠ .refused) :
    (∀ c ∈ s.toList, c.toNat < 0x80) ∧ ∃ front last, front ≠ [] ∧ s.toList = front ++ [last] := by
  have hpassed : ¬ ((Utf8.encode s).length < 2 || !(Utf8.encode s).all (· < 0x80)) = true :=
    fun hstop => h (by simp only [measure, hstop, if_true])
  simp only [Bool.or_eq_true, decide_eq_true_eq, Bool.not_eq_true', not_or, Bool.not_eq_false,
    List.all_eq_true] at hpassed
  have hascii := Utf8.forall_mem_encode_lt_iff.mp hpassed.2
  have hlong := hpassed.1
  rw [Utf8.encode_of_forall_lt hascii, List.length_map] at hlong
  refine ⟨hascii, ?_⟩
  rcases List.eq_nil_or_concat' s.toList with hs | ⟨front, last, hs⟩
  · simp [hs] at hlong
  · refine ⟨front, last, ?_, hs⟩
    rintro rfl
    simp [hs] at hlong

theorem measureParts_ne_refused {digits unit : Bytes} (h : measureParts digits unit ≠ .refused) :
    digits.length ≤ digitLimit ∧ (∀ b ∈ digits, Ascii.isDigit b = true) ∧
      ∃ u, Unit.ofBytes? unit = some u := by
  unfold measureParts at h
  split at h
  · exact absurd rfl h
  · rename_i hdigits
    simp only [Bool.or_eq_true, decide_eq_true_eq, Bool.not_eq_true', not_or, Bool.not_eq_false,
      List.all_eq_true, Nat.not_lt] at hdigits
    split at h
    · exact ⟨hdigits.1, hdigits.2, _, ‹_›⟩
    · exact absurd rfl h

theorem IsLimit.isDigit_bytes (h : IsLimit s front u) :
    ∀ b ∈ front.map fun c => UInt8.ofNat c.toNat, Ascii.isDigit b = true := by
  intro b hb
  obtain ⟨c, hc, rfl⟩ := List.mem_map.mp hb
  rw [Ascii.isDigit_byte (Ascii.lt_of_isDigit (h.digit c hc)), h.digit c hc]

/-- The amount of a limit is read from its bytes. -/
theorem IsLimit.readBytes_eq (h : IsLimit s front u) :
    Integer.readBytes Integer.uint64 (front.map fun c => UInt8.ofNat c.toNat) =
      .ok (Digits.value front : Int) := by
  have hword : Digits.value front < UInt64.size := Nat.lt_trans h.value_lt (by decide)
  rw [← Ascii.number_bytes h.digit] at hword ⊢
  have hne : (front.map fun c => UInt8.ofNat c.toNat) ≠ [] :=
    List.length_pos_iff.mp (by rw [List.length_map]; exact h.nonempty)
  exact Integer.readBytes_of_forall_isDigit hne h.isDigit_bytes
    (Int.le_sub_one_of_lt (Int.ofNat_lt.mpr hword))

/-- One to eight digits and the letter of a unit are measured in words. -/
theorem IsLimit.measure_eq (h : IsLimit s front u) :
    ∃ span, measure s = .span span ∧ span.Measures ⟨Digits.value front * u.nanos⟩ := by
  have hamount : (UInt64.ofNat (Digits.value front)).toNat = Digits.value front :=
    UInt64.toNat_ofNat_of_lt' (Nat.lt_trans h.value_lt (by decide))
  obtain ⟨span, heq, hspan⟩ := Span.ofAmount?_measures (hamount.symm ▸ h.value_lt) u
  have hdigits : (front.map fun c => UInt8.ofNat c.toNat).all Ascii.isDigit = true :=
    List.all_eq_true.mpr h.isDigit_bytes
  have hshort : ¬ digitLimit < (front.map fun c => UInt8.ofNat c.toNat).length := by
    rw [List.length_map]
    exact Nat.not_lt.mpr h.short
  refine ⟨span, ?_, hamount ▸ hspan⟩
  rw [measure_of_ascii h.text (List.length_pos_iff.mp h.nonempty) h.ascii, measureParts,
    h.readBytes_eq, Unit.ofBytes?_encodeChar, Unit.ofLetter?_letter]
  simp only [hdigits, hshort, Int.toNat_natCast, heq, decide_false, Bool.not_true, Bool.or_self,
    Bool.false_eq_true, if_false]

/-- Everything else is refused, before anything can break. -/
theorem exists_isLimit_of_measure (h : measure s ≠ .refused) : ∃ digits u, IsLimit s digits u := by
  obtain ⟨hascii, front, last, hne, hs⟩ := exists_concat_of_measure h
  rw [measure_of_ascii hs hne hascii] at h
  obtain ⟨hshort, hdigits, u, hu⟩ := measureParts_ne_refused h
  rw [Unit.ofBytes?_encodeChar] at hu
  rw [List.length_map] at hshort
  have hdigit : ∀ c ∈ front, c.isDigit = true := by
    intro c hc
    rw [← Ascii.isDigit_byte (hascii c (hs ▸ List.mem_append_left _ hc))]
    exact hdigits _ (List.mem_map_of_mem hc)
  exact ⟨front, u, Unit.letter_of_ofLetter? hu ▸ hs, hdigit, List.length_pos_iff.mpr hne, hshort⟩

/-- What is read is measured as the same span. -/
theorem exists_measure_of_parse? (h : parse? s = some d) :
    ∃ span, measure s = .span span ∧ span.Measures d := by
  obtain ⟨digits, u, hs⟩ := exists_isLimit_of_parse? h
  obtain rfl : _ = d := Option.some.inj (hs.parse?_eq.symm.trans h)
  exact hs.measure_eq

theorem measure_of_parse?_eq_none (h : parse? s = none) : measure s = .refused := by
  by_contra hne
  obtain ⟨digits, u, hs⟩ := exists_isLimit_of_measure hne
  cases h.symm.trans hs.parse?_eq

end Reading

/-- A text is read as a limit exactly if it is one to eight digits and the letter of a unit, and is
read as that many units. Read byte by byte and in words it gives the same span, in whole seconds and
the nanoseconds beyond them. Any other text is refused, and with no text does a product leave its
word or a cut go through a character. -/
theorem measure_exact (s : String) :
    (∀ d, parse? s = some d ↔
      ∃ digits u, IsLimit s digits u ∧ d = ⟨Nat.ofDigitChars 10 digits 0 * u.nanos⟩) ∧
    (∀ d, parse? s = some d → ∃ span, measure s = .span span ∧ span.Measures d) ∧
    (parse? s = none → measure s = .refused) ∧
    measure s ≠ .broken := by
  simp only [← Digits.value_eq_ofDigitChars]
  refine ⟨fun d => ⟨fun h => ?_, ?_⟩, fun d => exists_measure_of_parse?,
    measure_of_parse?_eq_none, fun hbroken => ?_⟩
  · obtain ⟨digits, u, hs⟩ := exists_isLimit_of_parse? h
    exact ⟨digits, u, hs, Option.some.inj (h.symm.trans hs.parse?_eq)⟩
  · rintro ⟨digits, u, hs, rfl⟩
    exact hs.parse?_eq
  · cases h : parse? s with
    | none => cases hbroken.symm.trans (measure_of_parse?_eq_none h)
    | some d =>
        obtain ⟨span, hspan, -⟩ := exists_measure_of_parse? h
        cases hbroken.symm.trans hspan

/-- The longest limit is measured, zeros in front count as digits, and the last character may have
two bytes. -/
theorem measure_longest :
    (parse? "99999999H" = some ⟨359999996400000000000⟩ ∧
      ∃ span, measure "99999999H" = .span span ∧ span.Measures ⟨359999996400000000000⟩) ∧
    parse? "007S" = some ⟨7000000000⟩ ∧
    (parse? "5é" = none ∧ measure "5é" = .refused) := by
  have hlongest : parse? "99999999H" = some ⟨359999996400000000000⟩ := by decide
  have hzeros : IsLimit "007S" ['0', '0', '7'] .second :=
    ⟨by decide, List.all_eq_true.mp (by decide), by decide, by decide⟩
  have hwide : parse? "5é" = none := by decide
  exact ⟨⟨hlongest, (measure_exact _).2.1 _ hlongest⟩,
    ((measure_exact "007S").1 ⟨7000000000⟩).mpr ⟨_, _, hzeros, by decide⟩,
    hwide, (measure_exact "5é").2.2.1 hwide⟩

example : measure "00001250m" = .span ⟨1, 250000000⟩ := by decide

end Deadline

end RestGateway
