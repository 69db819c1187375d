import RestGateway.Proofs.Text.Percent

/-!
# Where escapes are bad

A percent sign is good if two hexadecimal digits follow it. The search for a bad one steps over
the digits of the good ones, among which there is no percent sign, so it finds the first bad sign
of all.
-/

namespace RestGateway.Percent

/-- Two hexadecimal digits follow a position. -/
def DigitsFollow (s : Bytes) (i : Nat) : Prop :=
  ∃ high low, s[i + 1]? = some high ∧ s[i + 2]? = some low ∧
    Ascii.isHexDigit high = true ∧ Ascii.isHexDigit low = true

/-- Digits follow every percent sign. -/
def IsEscaped (s : Bytes) : Prop := ∀ i, s[i]? = some 0x25 → DigitsFollow s i

/-- A percent sign is the first one that no digits follow. -/
structure FirstBad (s : Bytes) (i : Nat) : Prop where
  sign : s[i]? = some 0x25
  bad : ¬ DigitsFollow s i
  first : ∀ j < i, s[j]? = some 0x25 → DigitsFollow s j

variable {s : Bytes} {a b c : UInt8} {i : Nat}

theorem FirstBad.not_isEscaped (h : FirstBad s i) : ¬ IsEscaped s := fun hs => h.bad (hs i h.sign)

theorem FirstBad.unique {j : Nat} (hi : FirstBad s i) (hj : FirstBad s j) : i = j := by
  rcases Nat.lt_trichotomy i j with hlt | heq | hlt
  · exact absurd (hj.first i hlt hi.sign) hi.bad
  · exact heq
  · exact absurd (hi.first j hlt hj.sign) hj.bad

theorem digitsFollow_zero_iff :
    DigitsFollow (a :: s) 0 ↔
      ∃ b c t, s = b :: c :: t ∧ Ascii.isHexDigit b = true ∧ Ascii.isHexDigit c = true := by
  match s with
  | [] | [_] => simp [DigitsFollow]
  | b :: c :: t => simp [DigitsFollow, and_assoc]

theorem isEscaped_cons_iff :
    IsEscaped (a :: s) ↔ (a = 0x25 → DigitsFollow (a :: s) 0) ∧ IsEscaped s := by
  constructor
  · intro h
    exact ⟨fun ha => h 0 (by rw [ha]; rfl), fun i hi => h (i + 1) hi⟩
  · rintro ⟨hfirst, hrest⟩ i hi
    cases i with
    | zero => exact hfirst (Option.some.inj hi)
    | succ i => exact hrest i hi

theorem FirstBad.succ (h : FirstBad s i) (hfirst : a = 0x25 → DigitsFollow (a :: s) 0) :
    FirstBad (a :: s) (i + 1) where
  sign := h.sign
  bad := h.bad
  first j hj hsign := by
    cases j with
    | zero => exact hfirst (Option.some.inj hsign)
    | succ j => exact h.first j (Nat.lt_of_succ_lt_succ hj) hsign

/-- A digit is no percent sign. -/
theorem ne_of_isHexDigit (h : Ascii.isHexDigit a = true) : a ≠ 0x25 := by
  rintro rfl
  exact absurd h (by decide)

/-- The search steps over the digits of a good sign. -/
theorem badEscape?_of_digitsFollow (h : DigitsFollow (0x25 :: s) 0) :
    badEscape? (0x25 :: s) = badEscape? (s.drop 2) := by
  obtain ⟨b, c, t, rfl, hb, hc⟩ := digitsFollow_zero_iff.mp h
  simp [badEscape?, hb, hc]

/-- The search stops at a bad sign. -/
theorem badEscape?_of_not_digitsFollow (h : ¬ DigitsFollow (0x25 :: s) 0) :
    badEscape? (0x25 :: s) = some (0x25 :: s) := by
  match s with
  | [] | [_] => rfl
  | b :: c :: t =>
      have hdigits : ¬ (Ascii.isHexDigit b && Ascii.isHexDigit c) = true := by
        intro hdigits
        obtain ⟨hb, hc⟩ := Bool.and_eq_true_iff.mp hdigits
        exact h (digitsFollow_zero_iff.mpr ⟨b, c, t, rfl, hb, hc⟩)
      rw [badEscape?, if_pos (beq_self_eq_true _)]
      exact if_neg hdigits

/-- Where no bad sign is found, all signs are good. -/
theorem isEscaped_of_badEscape? (h : badEscape? s = none) : IsEscaped s := by
  fun_induction badEscape? s with
  | case1 => exact fun i hi => absurd hi (by simp)
  | case2 a ha b c s hdigits ih =>
      obtain ⟨hb, hc⟩ := Bool.and_eq_true_iff.mp hdigits
      refine isEscaped_cons_iff.mpr ⟨fun _ => digitsFollow_zero_iff.mpr ⟨b, c, s, rfl, hb, hc⟩, ?_⟩
      refine isEscaped_cons_iff.mpr ⟨fun heq => absurd heq (ne_of_isHexDigit hb), ?_⟩
      exact isEscaped_cons_iff.mpr ⟨fun heq => absurd heq (ne_of_isHexDigit hc), ih h⟩
  | case3 => cases h
  | case4 => cases h
  | case5 a s ha ih =>
      exact isEscaped_cons_iff.mpr ⟨fun heq => absurd (beq_iff_eq.mpr heq) ha, ih h⟩

/-- Where a bad sign is found, it is the first one, and the search shows the text from it on. -/
theorem exists_firstBad_of_badEscape? {tail : Bytes} (h : badEscape? s = some tail) :
    ∃ i, FirstBad s i ∧ tail = s.drop i := by
  have hstart : ∀ {a : UInt8} {s : Bytes}, a = 0x25 → ¬ DigitsFollow (a :: s) 0 →
      FirstBad (a :: s) 0 := by
    intro a s ha hbad
    exact ⟨by rw [ha]; rfl, hbad, fun j hj => absurd hj (Nat.not_lt_zero j)⟩
  fun_induction badEscape? s with
  | case1 => cases h
  | case2 a ha b c s hdigits ih =>
      obtain ⟨hb, hc⟩ := Bool.and_eq_true_iff.mp hdigits
      obtain ⟨i, hi, htail⟩ := ih h
      have hthird : FirstBad (c :: s) (i + 1) :=
        hi.succ fun heq => absurd heq (ne_of_isHexDigit hc)
      have hsecond : FirstBad (b :: c :: s) (i + 2) :=
        hthird.succ fun heq => absurd heq (ne_of_isHexDigit hb)
      have hfirst : DigitsFollow (a :: b :: c :: s) 0 :=
        digitsFollow_zero_iff.mpr ⟨b, c, s, rfl, hb, hc⟩
      exact ⟨i + 3, hsecond.succ fun _ => hfirst, htail⟩
  | case3 a ha b c s hdigits =>
      cases h
      refine ⟨0, hstart (beq_iff_eq.mp ha) fun hgood => hdigits ?_, rfl⟩
      obtain ⟨b', c', s', heq, hb, hc⟩ := digitsFollow_zero_iff.mp hgood
      cases heq
      rw [hb, hc]
      rfl
  | case4 a ha s hshort =>
      cases h
      refine ⟨0, hstart (beq_iff_eq.mp ha) fun hgood => ?_, rfl⟩
      obtain ⟨b, c, t, rfl, _⟩ := digitsFollow_zero_iff.mp hgood
      exact hshort b c t rfl
  | case5 a s ha ih =>
      obtain ⟨i, hi, htail⟩ := ih h
      exact ⟨i + 1, hi.succ fun heq => absurd (beq_iff_eq.mpr heq) ha, htail⟩

/-- No bad sign is found exactly if all signs are good. -/
theorem badEscape?_eq_none_iff : badEscape? s = none ↔ IsEscaped s := by
  constructor
  · exact isEscaped_of_badEscape?
  · intro hs
    cases htail : badEscape? s with
    | none => rfl
    | some tail =>
        obtain ⟨i, hi, _⟩ := exists_firstBad_of_badEscape? htail
        exact absurd hs hi.not_isEscaped

/-- The bad sign that is found is the first one. -/
theorem badEscape?_eq_some_iff {tail : Bytes} :
    badEscape? s = some tail ↔ ∃ i, FirstBad s i ∧ tail = s.drop i := by
  constructor
  · exact exists_firstBad_of_badEscape?
  · rintro ⟨i, hi, rfl⟩
    cases htail : badEscape? s with
    | none => exact absurd (isEscaped_of_badEscape? htail) hi.not_isEscaped
    | some tail =>
        obtain ⟨j, hj, rfl⟩ := exists_firstBad_of_badEscape? htail
        rw [hj.unique hi]

end RestGateway.Percent
