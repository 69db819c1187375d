import Mathlib.Data.List.TakeWhile
import RestGateway.Proofs.Json.Grammar
import RestGateway.Proofs.Json.RoundTrip

/-!
# Blanks and strings are read as the grammar has them

Readers look past blanks. A string is read exactly if it stands for a text, and then as this text.
-/

namespace RestGateway.Json

section Blanks

variable {s rest t : Bytes} {b : UInt8}

theorem Blanks.refl (s : Bytes) : Blanks s s := ⟨[], fun _ hb => absurd hb List.not_mem_nil, rfl⟩

theorem Blanks.trans (h : Blanks s t) (h' : Blanks t rest) : Blanks s rest := by
  obtain ⟨blanks, hblanks, rfl⟩ := h
  obtain ⟨blanks', hblanks', rfl⟩ := h'
  exact ⟨blanks ++ blanks', List.forall_mem_append.mpr ⟨hblanks, hblanks'⟩,
    (List.append_assoc _ _ _).symm⟩

theorem blanks_skipBlank (s : Bytes) : Blanks s (skipBlank s) :=
  ⟨s.takeWhile isBlank, fun _ hb => List.mem_takeWhile_imp hb,
    List.takeWhile_append_dropWhile.symm⟩

theorem Blanks.length_le (h : Blanks s rest) : rest.length ≤ s.length := by
  obtain ⟨blanks, _, rfl⟩ := h
  rw [List.length_append]
  exact Nat.le_add_left _ _

/-- Readers look past blanks. -/
theorem Blanks.skipBlank_eq (h : Blanks s rest) : skipBlank s = skipBlank rest := by
  obtain ⟨blanks, hblanks, rfl⟩ := h
  exact List.dropWhile_append_of_pos hblanks

theorem Blanks.skipBlank_of_cons (h : Blanks s (b :: t)) (hb : isBlank b = false) :
    skipBlank s = b :: t :=
  h.skipBlank_eq.trans (skipBlank_cons hb t)

/-- Behind the blanks there is no blank. -/
theorem blanks_of_skipBlank (h : skipBlank s = b :: t) : Blanks s (b :: t) ∧ isBlank b = false := by
  refine ⟨h ▸ blanks_skipBlank s, ?_⟩
  induction s with
  | nil => cases h
  | cons a s ih =>
      by_cases ha : isBlank a = true
      · exact ih ((List.dropWhile_cons_of_pos ha).symm.trans h)
      · rw [Bool.not_eq_true] at ha
        cases (skipBlank_cons ha s).symm.trans h
        exact ha

theorem skipBlank_eq_nil_iff : skipBlank s = [] ↔ Blanks s [] := by
  constructor
  · intro h
    exact h ▸ blanks_skipBlank s
  · intro h
    exact h.skipBlank_eq

end Blanks

section Strings

variable {s bytes rest : Bytes} {t : String} {text : Option String}

theorem StandsFor.content (h : StandsFor s bytes rest) : Content s rest := by
  induction h with
  | close rest => exact .close rest
  | plain hb _ ih => exact .plain hb ih
  | letter hletter _ ih => exact .letter hletter ih
  | code hn _ _ _ ih => exact .code hn ih
  | pair hn _ hm _ _ ih => exact .code hn (.code hm ih)

/-- Both halves of a surrogate pair are read as one character. -/
theorem readStringOnto_pair (done s : Bytes) {a b c d a' b' c' d' : UInt8} {n m : Nat}
    (hn : hexNumber? a b c d = some n) (hhigh : isHighSurrogate n = true)
    (hm : hexNumber? a' b' c' d' = some m) (hlow : isLowSurrogate m = true) :
    readStringOnto done
        (0x5C :: 0x75 :: a :: b :: c :: d :: 0x5C :: 0x75 :: a' :: b' :: c' :: d' :: s) =
      readStringOnto (putChar done (joinSurrogates n m)) s := by
  have hfirst : isLowSurrogate n = false := by
    simp only [isHighSurrogate, isLowSurrogate, Bool.and_eq_true, decide_eq_true_eq] at hhigh ⊢
    simp only [Bool.and_eq_false_iff, decide_eq_false_iff_not]
    omega
  rw [readStringOnto.eq_def]
  simp [hn, hm, hfirst, hhigh, hlow]

theorem readStringOnto_code (done s : Bytes) {a b c d : UInt8} {n : Nat}
    (hn : hexNumber? a b c d = some n) (hlow : isLowSurrogate n = false)
    (hhigh : isHighSurrogate n = false) :
    readStringOnto done (0x5C :: 0x75 :: a :: b :: c :: d :: s) =
      readStringOnto (putChar done (Char.ofNat n)) s := by
  rw [readStringOnto.eq_def]
  simp [hn, hlow, hhigh]

/-- A string is read as what it stands for, behind the bytes that were read before. -/
theorem StandsFor.readStringOnto_eq (h : StandsFor s bytes rest) (done : Bytes) :
    readStringOnto done s = closeString (bytes.reverse ++ done) rest := by
  induction h generalizing done with
  | close rest => exact readStringOnto_quote done rest
  | plain hb _ ih =>
      rw [readStringOnto_plain done _ hb, ih, List.reverse_cons, List.append_assoc]
      rfl
  | letter hletter _ ih =>
      rw [readStringOnto_letter done _ hletter, ih, putChar, List.reverse_append, List.append_assoc]
  | code hn hlow hhigh _ ih =>
      rw [readStringOnto_code done _ hn hlow hhigh, ih, putChar, List.reverse_append,
        List.append_assoc]
  | pair hn hhigh hm hlow _ ih =>
      rw [readStringOnto_pair done _ hn hhigh hm hlow, ih, putChar, List.reverse_append,
        List.append_assoc]

/-- What is read as a text stands for it. -/
theorem exists_standsFor_of_readStringOnto {done : Bytes}
    (h : readStringOnto done s = .ok (t, rest)) :
    ∃ bytes, StandsFor s bytes rest ∧ Utf8.encode t = done.reverse ++ bytes := by
  fun_induction readStringOnto done s <;> try cases h
  case case2 done b s hb =>
    rw [closeString] at h
    cases hdecode : Utf8.decode done.reverse with
    | error f =>
        rw [hdecode] at h
        cases h
    | ok text =>
        rw [hdecode] at h
        cases h
        rw [beq_iff_eq.mp hb]
        refine ⟨[], .close rest, ?_⟩
        rw [List.append_nil, Utf8.encode_of_decode hdecode]
  case case12 done slash _ hslash u hu a b c d n hn hlow hhigh x y hx hy a' b' c' d' s m hm hlow' ih =>
    obtain ⟨bytes, hstands, hbytes⟩ := ih h
    rw [beq_iff_eq.mp hslash, beq_iff_eq.mp hu, show x = 0x5C by simpa using hx,
      show y = 0x75 by simpa using hy]
    refine ⟨_, .pair hn hhigh hm hlow' hstands, ?_⟩
    rw [hbytes, putChar, List.reverse_append, List.reverse_reverse, List.append_assoc]
  case case15 done slash _ hslash u hu a b c d s n hn hlow hhigh ih =>
    obtain ⟨bytes, hstands, hbytes⟩ := ih h
    rw [beq_iff_eq.mp hslash, beq_iff_eq.mp hu]
    refine ⟨_, .code hn (Bool.eq_false_iff.mpr hlow) (Bool.eq_false_iff.mpr hhigh) hstands, ?_⟩
    rw [hbytes, putChar, List.reverse_append, List.reverse_reverse, List.append_assoc]
  case case17 done slash _ hslash letter s _ c hletter ih =>
    obtain ⟨bytes, hstands, hbytes⟩ := ih h
    rw [beq_iff_eq.mp hslash]
    refine ⟨_, .letter hletter hstands, ?_⟩
    rw [hbytes, putChar, List.reverse_append, List.reverse_reverse, List.append_assoc]
  case case20 done b s hquote hslash hcontrol ih =>
    obtain ⟨bytes, hstands, hbytes⟩ := ih h
    have hplain : IsPlain b := ⟨by simpa using hquote, by simpa using hslash, hcontrol⟩
    refine ⟨_, .plain hplain hstands, ?_⟩
    rw [hbytes, List.reverse_cons, List.append_assoc]
    rfl

/-- Strings that are read stand for the text. -/
theorem readString_eq_ok_iff : readString s = .ok (t, rest) ↔ StandsFor s (Utf8.encode t) rest := by
  constructor
  · intro h
    obtain ⟨bytes, hstands, hbytes⟩ := exists_standsFor_of_readStringOnto h
    rwa [hbytes]
  · intro h
    rw [readString, h.readStringOnto_eq, List.append_nil, closeString, List.reverse_reverse,
      Utf8.decode_encode]

/-- A string stands for one text at most. -/
theorem isString_of_standsFor (h : StandsFor s (Utf8.encode t) rest) :
    IsString s (some t) rest where
  content := h.content
  text u := by
    constructor
    · rintro ⟨rfl⟩
      exact h
    · intro hu
      have heq := (readString_eq_ok_iff.mpr h).symm.trans (readString_eq_ok_iff.mpr hu)
      cases heq
      rfl

theorem isString_of_readString (h : readString s = .ok (t, rest)) : IsString s (some t) rest :=
  isString_of_standsFor (readString_eq_ok_iff.mp h)

theorem exists_isString (h : Content s rest) : ∃ text, IsString s text rest := by
  by_cases ht : ∃ t, StandsFor s (Utf8.encode t) rest
  · obtain ⟨t, ht⟩ := ht
    exact ⟨some t, isString_of_standsFor ht⟩
  · refine ⟨none, h, fun t => ?_⟩
    constructor
    · intro hnone
      cases hnone
    · exact fun hstands => absurd ⟨t, hstands⟩ ht

end Strings

end RestGateway.Json
