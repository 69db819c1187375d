import Mathlib.Data.List.TakeWhile
import RestGateway.Json.Record
import RestGateway.Proofs.Json.Integer
import RestGateway.Proofs.Json.Meaning
import RestGateway.Proofs.Json.Strings

/-!
# Numbers are read as the grammar has them

A number ends in front of a byte that cannot be part of it. It is read as a whole number of 64 bits
exactly if it spells one; with a fraction or a power of ten it never is.
-/

namespace RestGateway.Json

/-- No number goes on with this text. -/
def Stops (rest : Bytes) : Prop :=
  ∀ b ∈ rest.head?, Ascii.isDigit b = false ∧ b ≠ 0x2E ∧ isExponentLetter b = false

variable {ds s rest whole fraction power : Bytes} {b : UInt8} {negative : Bool}

theorem stops_nil : Stops [] := fun _ hb => nomatch hb

theorem isDigit_eq_false_of_isExponentLetter (h : isExponentLetter b = true) :
    Ascii.isDigit b = false := by
  rcases Bool.or_eq_true_iff.mp h with h | h <;> rw [beq_iff_eq.mp h] <;> rfl

theorem IsWhole.isDigit (h : IsWhole whole) : ∀ b ∈ whole, Ascii.isDigit b = true := by
  cases h with
  | zero => simp [Ascii.isDigit]
  | digits _ h => exact h.2

theorem IsWhole.exists_cons (h : IsWhole whole) :
    ∃ d ds, whole = d :: ds ∧ Ascii.isDigit d = true := by
  cases h with
  | zero => exact ⟨_, _, rfl, rfl⟩
  | digits _ h => exact ⟨_, _, rfl, h.2 _ List.mem_cons_self⟩

/-- A power does not go on with a digit. -/
theorem IsPower.head (h : IsPower power) (hrest : Stops rest) :
    ∀ b ∈ (power ++ rest).head?, Ascii.isDigit b = false := by
  cases h with
  | none => exact fun b hb => (hrest b hb).1
  | unsigned hletter _ | signed hletter _ _ =>
      rintro b ⟨rfl⟩
      exact isDigit_eq_false_of_isExponentLetter hletter

/-- What follows a whole part does not start with a digit. -/
theorem IsFraction.head (h : IsFraction fraction) (hpower : IsPower power) (hrest : Stops rest) :
    ∀ b ∈ (fraction ++ (power ++ rest)).head?, Ascii.isDigit b = false := by
  cases h with
  | none => exact hpower.head hrest
  | digits _ =>
      rintro b ⟨rfl⟩
      rfl

/-- The digits of a number are its whole part. -/
theorem IsWhole.readUnsigned_eq (h : IsWhole whole)
    (hrest : ∀ b ∈ rest.head?, Ascii.isDigit b = false) (negative : Bool) :
    readUnsigned negative (whole ++ rest) = readTail negative whole rest := by
  have hspan := span_append h.isDigit hrest
  cases h with
  | zero =>
      cases rest with
      | nil => rfl
      | cons b rest => simp [readUnsigned, hrest b rfl]
  | @digits d ds hne h =>
      rw [List.cons_append] at hspan ⊢
      simp only [readUnsigned, hspan]
      simp [hne, h.2 d List.mem_cons_self]

theorem Numeral.spelling_append (n : Numeral) (rest : Bytes) :
    n.spelling ++ rest = sign n.negative ++ (n.whole ++ (n.fraction ++ (n.power ++ rest))) := by
  simp [Numeral.spelling]

/-- The parts of a number in front of a text that it does not go on with. -/
theorem Numeral.readNumber_eq (n : Numeral) (hrest : Stops rest) :
    readNumber (n.spelling ++ rest) =
      readTail n.negative n.whole (n.fraction ++ (n.power ++ rest)) := by
  have hhead := n.isFraction.head n.isPower hrest
  rw [n.spelling_append, ← n.isWhole.readUnsigned_eq hhead]
  cases n.negative with
  | true => rfl
  | false =>
      obtain ⟨d, ds, hds, hd⟩ := n.isWhole.exists_cons
      rw [hds, sign, List.cons_append]
      unfold readNumber
      split
      · rename_i heq
        cases heq
        cases hd
      · rfl

/-- A number starts with a digit or the minus sign. -/
theorem Numeral.exists_cons (n : Numeral) (rest : Bytes) :
    ∃ b t, n.spelling ++ rest = b :: t ∧ startsNumber b = true := by
  rw [n.spelling_append]
  cases n.negative with
  | true => exact ⟨0x2D, _, rfl, rfl⟩
  | false =>
      obtain ⟨d, ds, hds, hd⟩ := n.isWhole.exists_cons
      rw [hds]
      exact ⟨d, _, rfl, by rw [startsNumber, hd, Bool.or_true]⟩

section Floating

/-- What is read is no whole number. -/
def Floats (r : Reading Number) : Prop := ∀ i rest, r ≠ .ok (.integer i, rest)

variable {significand : Nat} {scale : Int} {down : Bool}

theorem floats_finish (power : Int) : Floats (finish negative significand power rest) := by
  intro i rest' h
  unfold finish at h
  split at h <;> cases h

theorem floats_readPower (n : Nat) : Floats (readPower negative significand scale down n s) := by
  intro i rest h
  fun_induction readPower negative significand scale down n s with
  | case1 => exact floats_finish _ i rest h
  | case2 _ _ _ _ _ _ ih => exact ih h
  | case3 => cases h
  | case4 => cases h
  | case5 => exact floats_finish _ i rest h

theorem floats_readExponent : Floats (readExponent negative significand scale s) := by
  intro i rest h
  unfold readExponent at h
  dsimp only at h
  split at h
  · cases h
  · split at h
    · exact floats_readPower _ i rest h
    · cases h

theorem floats_readFraction : Floats (readFraction negative significand scale s) := by
  intro i rest h
  unfold readFraction at h
  dsimp only at h
  split at h
  · cases h
  · cases h
  · exact floats_finish _ i rest h
  · split at h
    · exact floats_readExponent i rest h
    · exact floats_finish _ i rest h

/-- A fraction or a power makes a number no whole number. -/
theorem floats_readTail (hfraction : IsFraction fraction) (hpower : IsPower power)
    (h : fraction ≠ [] ∨ power ≠ []) :
    Floats (readTail negative whole (fraction ++ (power ++ rest))) := by
  cases hfraction with
  | digits _ => exact floats_readFraction
  | none =>
      cases hpower with
      | none => exact absurd h (by simp)
      | unsigned hletter _ | signed hletter _ _ =>
          rcases Bool.or_eq_true_iff.mp hletter with hletter | hletter <;>
            rw [beq_iff_eq.mp hletter] <;> exact floats_readExponent

end Floating

/-- Digits without a surplus are the digits of a number that fits 64 bits. -/
theorem absorb_of_surplus_eq_nil {n added : Nat} (h : (absorb n added ds).2.2 = [])
    (hn : n < 2 ^ 64) : ds.foldl (fun n d => n * 10 + Ascii.digitValue d) n < 2 ^ 64 := by
  induction ds generalizing n added with
  | nil => exact hn
  | cons d ds ih =>
      by_cases hlt : n * 10 + Ascii.digitValue d < Nat.pow 2 64
      · rw [absorb, if_pos hlt] at h
        exact ih h hlt
      · rw [absorb, if_neg hlt] at h
        cases h

theorem readTail_of_stops (hrest : Stops rest) (negative : Bool) (whole : Bytes) :
    readTail negative whole rest =
      let (m, _, surplus) := absorb 0 0 whole
      if !surplus.isEmpty then finish negative m surplus.length rest
      else if !negative then .ok (.integer m, rest)
      else if m = 0 || Nat.pow 2 63 < m then .ok (floating true (Float.ofNat m), rest)
      else .ok (.integer (-m), rest) := by
  unfold readTail
  dsimp only
  split
  · exact absurd rfl (hrest 0x2E rfl).2.1
  · exact absurd (hrest 0x65 rfl).2.2 (by decide)
  · exact absurd (hrest 0x45 rfl).2.2 (by decide)
  · rfl

/-- What digits are read as if their number fits 64 bits. -/
theorem readTail_of_fits (hrest : Stops rest) (negative : Bool)
    (hfits : Ascii.number whole < 2 ^ 64) :
    readTail negative whole rest =
      if !negative then .ok (.integer (Ascii.number whole), rest)
      else if Ascii.number whole = 0 || Nat.pow 2 63 < Ascii.number whole then
        .ok (floating true (Float.ofNat (Ascii.number whole)), rest)
      else .ok (.integer (-Ascii.number whole), rest) := by
  have habsorb : absorb 0 0 whole = (Ascii.number whole, 0 + whole.length, []) :=
    absorb_eq_foldl hfits
  rw [readTail_of_stops hrest, habsorb]
  rfl

theorem floats_readTail_of_not_fits (hrest : Stops rest) (negative : Bool)
    (h : ¬ Ascii.number whole < 2 ^ 64) : Floats (readTail negative whole rest) := by
  have hsurplus : (!(absorb 0 0 whole).2.2.isEmpty) = true := by
    rw [Bool.not_eq_true', List.isEmpty_eq_false_iff]
    exact fun hnil => h (absorb_of_surplus_eq_nil hnil (by decide))
  intro i s
  rw [readTail_of_stops hrest]
  dsimp only
  rw [if_pos hsurplus]
  exact floats_finish _ i s

/-- A number is read as a whole number exactly if it spells one that fits 64 bits, signed or not. -/
theorem Numeral.readNumber_eq_ok_iff (n : Numeral) (hrest : Stops rest) {i : Int} :
    readNumber (n.spelling ++ rest) = .ok (.integer i, s) ↔
      s = rest ∧ n.whole? = some i ∧ -2 ^ 63 ≤ i ∧ i < 2 ^ 64 := by
  rw [n.readNumber_eq hrest, Numeral.whole?]
  by_cases hexact : n.fraction = [] ∧ n.power = []
  · obtain ⟨hfraction, hpower⟩ := hexact
    rw [hfraction, hpower, List.nil_append, List.nil_append]
    simp only [List.isEmpty_nil, Bool.and_self, if_true]
    by_cases hfits : Ascii.number n.whole < 2 ^ 64
    · rw [readTail_of_fits hrest _ hfits]
      cases n.negative with
      | false =>
          constructor
          · intro h
            cases h
            exact ⟨rfl, rfl, by omega, by omega⟩
          · rintro ⟨rfl, ⟨rfl⟩, _⟩
            rfl
      | true =>
          simp only [Bool.not_true, Bool.false_eq_true, if_false]
          -- Minus zero and numbers below all numbers of 64 bits are read as floating-point numbers.
          split_ifs with hfloats hzero hzero
          all_goals simp only [Bool.or_eq_true, decide_eq_true_eq, Nat.pow_eq] at hfloats
          · constructor
            · intro h
              cases h
            · rintro ⟨_, ⟨rfl⟩, _, _⟩
              omega
          · exact ⟨fun h => (nomatch h), fun h => (nomatch h.2.1)⟩
          · constructor
            · intro h
              cases h
              exact ⟨rfl, rfl, by omega, by omega⟩
            · rintro ⟨rfl, ⟨rfl⟩, _⟩
              rfl
          · omega
    · constructor
      · exact fun h => absurd h (floats_readTail_of_not_fits hrest _ hfits i s)
      · rintro ⟨_, h, _, _⟩
        split_ifs at h with hsign hzero
        · cases h
          omega
        · cases h
          omega
  · have hfloats := @floats_readTail rest n.whole _ _ n.negative n.isFraction n.isPower (by tauto)
    have hnone : (n.fraction.isEmpty && n.power.isEmpty) = false := by simpa using hexact
    simp only [hnone]
    constructor
    · exact fun h => absurd h (hfloats i s)
    · rintro ⟨_, ⟨⟩, _⟩

theorem Numeral.integer?_eq_some_iff (n : Numeral) {i : Int64} :
    n.integer? = some i ↔
      ∃ w, n.whole? = some w ∧ (-2 ^ 63 ≤ w ∧ w < 2 ^ 63) ∧ Int64.ofInt w = i := by
  simp [Numeral.integer?, Option.filter_eq_some_iff, and_assoc]

/-- A text is read as a whole number of 64 bits exactly if it spells one. -/
theorem Numeral.readInt64_eq_ok_iff (n : Numeral) {text : Bytes}
    (hblank : Blanks text (n.spelling ++ rest)) (hrest : Stops rest) {i : Int64} :
    readInt64 text = .ok (i, s) ↔ s = rest ∧ n.integer? = some i := by
  obtain ⟨b, t, hb, hstarts⟩ := n.exists_cons rest
  have hread : ∀ {w s}, readNumber (b :: t) = .ok (.integer w, s) ↔ _ :=
    fun {w s} => hb ▸ @n.readNumber_eq_ok_iff s rest hrest w
  rw [hb] at hblank
  rw [readInt64, hblank.skipBlank_of_cons (not_blank_of_startsNumber hstarts).1,
    n.integer?_eq_some_iff]
  simp only [if_pos hstarts]
  constructor
  · intro h
    split at h
    · rename_i w s' hw
      split_ifs at h with hlt
      · cases h
        obtain ⟨rfl, hwhole, hlow, _⟩ := hread.mp hw
        exact ⟨rfl, w, hwhole, ⟨hlow, hlt⟩, rfl⟩
      · cases h
    · cases h
    · cases h
  · rintro ⟨rfl, w, hwhole, ⟨hlow, hhigh⟩, rfl⟩
    have hw := hread.mpr ⟨rfl, hwhole, hlow, by omega⟩
    have hfits : w < Nat.pow 2 63 := hhigh
    simp only [hw, if_pos hfits]

section Sound

variable {w : Int}

/-- A number that is read as a whole number ends where its digits end. -/
theorem eq_of_readTail (h : readTail negative ds rest = .ok (.integer w, s)) : s = rest := by
  unfold readTail at h
  dsimp only at h
  split at h
  · exact absurd h (floats_readFraction w s)
  · exact absurd h (floats_readExponent w s)
  · exact absurd h (floats_readExponent w s)
  · split_ifs at h
    · exact absurd h (floats_finish _ w s)
    · cases h
      rfl
    · cases h
    · cases h
      rfl

theorem exists_whole_of_readUnsigned (h : readUnsigned negative s = .ok (.integer w, rest)) :
    ∃ whole, IsWhole whole ∧ s = whole ++ rest := by
  unfold readUnsigned at h
  split at h
  · cases h
  · rename_i d t
    split_ifs at h with hzero hdigit
    · rw [beq_iff_eq.mp hzero] at h ⊢
      split at h
      · split_ifs at h
        · cases h
        · exact ⟨[0x30], .zero, congrArg _ (eq_of_readTail h).symm⟩
      · exact ⟨[0x30], .zero, congrArg _ (eq_of_readTail h).symm⟩
    · rw [List.span_eq_takeWhile_dropWhile] at h
      have hrest := eq_of_readTail h
      have hdigits : (d :: t).takeWhile Ascii.isDigit = d :: t.takeWhile Ascii.isDigit :=
        List.takeWhile_cons_of_pos hdigit
      have hne : d ≠ 0x30 := by simpa using hzero
      refine ⟨(d :: t).takeWhile Ascii.isDigit, ?_, ?_⟩
      · rw [hdigits]
        apply IsWhole.digits hne
        rw [← hdigits]
        exact ⟨hdigits ▸ List.cons_ne_nil _ _, fun b hb => List.mem_takeWhile_imp hb⟩
      · rw [hrest, List.takeWhile_append_dropWhile]
    · cases h

theorem exists_numeral_of_readNumber (h : readNumber s = .ok (.integer w, rest)) :
    ∃ n : Numeral, s = n.spelling ++ rest := by
  unfold readNumber at h
  split at h
  · obtain ⟨whole, hwhole, rfl⟩ := exists_whole_of_readUnsigned h
    exact ⟨⟨true, whole, [], [], hwhole, .none, .none⟩, by rw [Numeral.spelling_append]; rfl⟩
  · obtain ⟨whole, hwhole, rfl⟩ := exists_whole_of_readUnsigned h
    exact ⟨⟨false, whole, [], [], hwhole, .none, .none⟩, by rw [Numeral.spelling_append]; rfl⟩

/-- What is read as a whole number of 64 bits is spelled as a number. -/
theorem exists_numeral_of_readInt64 {i : Int64} (h : readInt64 s = .ok (i, rest)) :
    ∃ n : Numeral, Blanks s (n.spelling ++ rest) := by
  unfold readInt64 at h
  split at h
  · rename_i b t hskip
    split_ifs at h with hstarts
    · split at h
      · rename_i w s' hw
        split_ifs at h with hlt
        · cases h
          obtain ⟨n, hn⟩ := exists_numeral_of_readNumber hw
          exact ⟨n, hn ▸ (blanks_of_skipBlank hskip).1⟩
        · cases h
      · cases h
      · cases h
  · cases h

end Sound

end RestGateway.Json
