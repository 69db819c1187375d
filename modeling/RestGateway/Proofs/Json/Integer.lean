import Mathlib.Algebra.Group.Int.Defs
import Mathlib.Algebra.Group.Nat.Defs
import RestGateway.Json.Number
import RestGateway.Proofs.Text.Pieces
import RestGateway.Proofs.Text.Utf8

/-!
# Reading back integers

An integer is written in decimal digits without needless zeros, after a minus sign if it is
negative. In front of anything that ends a value these bytes are read as the integer, as long as its
digits fit 64 bits.
-/

namespace RestGateway.Json

/-- The text that follows a value ends there, or goes on with a comma or a closing bracket. -/
def EndsValue (rest : Bytes) : Prop :=
  rest = [] ∨ ∃ b t, rest = b :: t ∧ (b = 0x2C ∨ b = 0x5D ∨ b = 0x7D)

/-- The digits of a number, none of them a needless zero. -/
structure IsDecimal (ds : Bytes) (m : Nat) : Prop where
  digits : ∀ b ∈ ds, Ascii.isDigit b = true
  number : Ascii.number ds = m
  first : ds = [0x30] ∨ ∃ d t, ds = d :: t ∧ d ≠ 0x30

theorem IsDecimal.ne_nil {ds : Bytes} {m : Nat} (h : IsDecimal ds m) : ds ≠ [] := by
  rcases h.first with rfl | ⟨d, t, rfl, _⟩
  · exact List.cons_ne_nil _ _
  · exact List.cons_ne_nil _ _

/-- What the digits of numbers below ten are as bytes. -/
theorem encodeChar_digitChar {d : Nat} (h : d < 10) :
    ∃ b, Utf8.encodeChar d.digitChar = [b] ∧ Ascii.isDigit b = true ∧ Ascii.digitValue b = d ∧
      (b = 0x30 ↔ d = 0) := by
  have hall : ∀ d < 10, Utf8.encodeChar (Nat.digitChar d) = [0x30 + UInt8.ofNat d] ∧
      Ascii.isDigit (0x30 + UInt8.ofNat d) = true ∧
      Ascii.digitValue (0x30 + UInt8.ofNat d) = d ∧ (0x30 + UInt8.ofNat d = 0x30 ↔ d = 0) := by
    decide
  exact ⟨_, hall d h⟩

theorem number_concat (ds : Bytes) (d : UInt8) :
    Ascii.number (ds ++ [d]) = Ascii.number ds * 10 + Ascii.digitValue d := by
  simp [Ascii.number]

/-- A natural number is written in its digits. -/
theorem isDecimal_flatMap_toDigits (m : Nat) :
    IsDecimal ((Nat.toDigits 10 m).flatMap Utf8.encodeChar) m := by
  induction m using Nat.strongRecOn with
  | ind m ih =>
      rw [Nat.toDigits_eq_if (by decide)]
      split
      · rename_i hlt
        obtain ⟨b, hb, hdigit, hvalue, hzero⟩ := encodeChar_digitChar hlt
        rw [List.flatMap_singleton, hb]
        constructor
        · simpa using hdigit
        · simpa [Ascii.number] using hvalue
        · by_cases hd : b = 0x30
          · exact Or.inl (by rw [hd])
          · exact Or.inr ⟨b, [], rfl, hd⟩
      · rename_i hge
        have hmod : m % 10 < 10 := Nat.mod_lt m (by decide)
        obtain ⟨b, hb, hdigit, hvalue, _⟩ := encodeChar_digitChar hmod
        obtain ⟨hdigits, hnumber, hfirst⟩ := ih (m / 10) (by omega)
        rw [List.flatMap_append, List.flatMap_singleton, hb]
        constructor
        · intro d hd
          rcases List.mem_append.mp hd with hd | hd
          · exact hdigits d hd
          · rw [List.mem_singleton.mp hd]
            exact hdigit
        · rw [number_concat, hnumber, hvalue]
          omega
        · rcases hfirst with hzero | ⟨d, t, hd, hne⟩
          · rw [hzero] at hnumber
            have hpos : m / 10 = 0 := hnumber.symm
            omega
          · exact Or.inr ⟨d, t ++ [b], by rw [hd]; rfl, hne⟩

theorem isDecimal_encode_repr (m : Nat) : IsDecimal (Utf8.encode m.repr) m := by
  rw [Utf8.encode_eq_flatMap, Nat.toList_repr]
  exact isDecimal_flatMap_toDigits m

/-- More digits do not make a number smaller. -/
theorem le_foldl_digits (ds : Bytes) (n : Nat) :
    n ≤ ds.foldl (fun n d => n * 10 + Ascii.digitValue d) n := by
  induction ds generalizing n with
  | nil => exact Nat.le_refl n
  | cons d ds ih => exact Nat.le_trans (by omega) (ih (n * 10 + Ascii.digitValue d))

/-- A number that fits 64 bits is read from all of its digits. -/
theorem absorb_eq_foldl {ds : Bytes} {n added : Nat}
    (h : ds.foldl (fun n d => n * 10 + Ascii.digitValue d) n < 2 ^ 64) :
    absorb n added ds =
      (ds.foldl (fun n d => n * 10 + Ascii.digitValue d) n, added + ds.length, []) := by
  induction ds generalizing n added with
  | nil => rfl
  | cons d ds ih =>
      have hlt : n * 10 + Ascii.digitValue d < Nat.pow 2 64 :=
        Nat.lt_of_le_of_lt (le_foldl_digits ds _) h
      have hrest := @ih _ (added + 1) h
      rw [absorb, if_pos hlt, hrest, List.length_cons, List.foldl_cons]
      congr 2
      omega

/-- The digits of a number stop where the value ends. -/
theorem IsDecimal.span_eq {ds rest : Bytes} {m : Nat} (h : IsDecimal ds m)
    (hrest : EndsValue rest) : (ds ++ rest).span Ascii.isDigit = (ds, rest) := by
  apply span_append h.digits
  rcases hrest with rfl | ⟨b, t, rfl, rfl | rfl | rfl⟩ <;> simp [Ascii.isDigit]

/-- Digits that fit 64 bits are absorbed without a surplus. -/
theorem IsDecimal.absorb_eq {ds : Bytes} {m : Nat} (h : IsDecimal ds m) (hm : m < 2 ^ 64) :
    absorb 0 0 ds = (m, ds.length, []) := by
  have hlt : Ascii.number ds < 2 ^ 64 := h.number.symm ▸ hm
  rw [absorb_eq_foldl hlt, Nat.zero_add]
  exact congrArg (·, _) h.number

/-- Digits alone are a number. -/
theorem IsDecimal.readTail_false {ds rest : Bytes} {m : Nat} (h : IsDecimal ds m)
    (hm : m < 2 ^ 64) (hrest : EndsValue rest) :
    readTail false ds rest = .ok (.integer m, rest) := by
  unfold readTail
  rw [h.absorb_eq hm]
  rcases hrest with rfl | ⟨b, t, rfl, rfl | rfl | rfl⟩ <;> rfl

/-- Digits after a minus sign are a negative number, which may be as low as 64 bits admit. -/
theorem IsDecimal.readTail_true {ds rest : Bytes} {m : Nat} (h : IsDecimal ds m) (hpos : m ≠ 0)
    (hm : m ≤ 2 ^ 63) (hrest : EndsValue rest) :
    readTail true ds rest = .ok (.integer (-m), rest) := by
  have hexact : ¬ (m = 0 || Nat.pow 2 63 < m) = true := by
    simpa [hpos] using hm
  unfold readTail
  rw [h.absorb_eq (by omega)]
  rcases hrest with rfl | ⟨b, t, rfl, rfl | rfl | rfl⟩ <;> exact if_neg hexact

/-- The digits of a number are its whole part. -/
theorem IsDecimal.readUnsigned_eq {ds rest : Bytes} {m : Nat} (h : IsDecimal ds m)
    (hrest : EndsValue rest) (negative : Bool) :
    readUnsigned negative (ds ++ rest) = readTail negative ds rest := by
  have hspan := h.span_eq hrest
  rcases h.first with rfl | ⟨d, t, rfl, hne⟩
  · rcases hrest with rfl | ⟨b, t, rfl, rfl | rfl | rfl⟩ <;> rfl
  · have hdigit := h.digits d List.mem_cons_self
    rw [List.cons_append] at hspan ⊢
    simp only [readUnsigned, hspan]
    simp [hne, hdigit]

theorem writeInteger_natCast (m : Nat) : writeInteger m = Utf8.encode m.repr := rfl

theorem writeInteger_negSucc (m : Nat) :
    writeInteger (Int.negSucc m) = 0x2D :: Utf8.encode (m + 1).repr := by
  have hrepr : toString (Int.negSucc m) = "-" ++ (m + 1).repr := rfl
  rw [writeInteger, hrepr, Utf8.encode_eq_flatMap, Utf8.encode_eq_flatMap, String.toList_append]
  rfl

/-- An integer of 64 bits is read back. -/
theorem readNumber_writeInteger {n : Int} (hlow : -2 ^ 63 ≤ n) (hhigh : n < 2 ^ 63) {rest : Bytes}
    (hrest : EndsValue rest) :
    readNumber (writeInteger n ++ rest) = .ok (.integer n, rest) := by
  cases n with
  | ofNat m =>
      have h := isDecimal_encode_repr m
      have hm : m < 2 ^ 64 := by
        have hlt : (m : Int) < 2 ^ 63 := hhigh
        omega
      have hread := (h.readUnsigned_eq hrest false).trans (h.readTail_false hm hrest)
      obtain ⟨d, t, hds⟩ := List.exists_cons_of_ne_nil h.ne_nil
      have hsign : d ≠ 0x2D := by
        rintro rfl
        exact absurd (h.digits _ (hds ▸ List.mem_cons_self)) (by decide)
      rw [Int.ofNat_eq_natCast, writeInteger_natCast]
      rw [hds, List.cons_append] at hread ⊢
      rw [← hread]
      unfold readNumber
      split
      · rename_i s heq
        cases heq
        exact absurd rfl hsign
      · rfl
  | negSucc m =>
      have h := isDecimal_encode_repr (m + 1)
      have hm : m + 1 ≤ 2 ^ 63 := by omega
      have hread := (h.readUnsigned_eq hrest true).trans
        (h.readTail_true m.succ_ne_zero hm hrest)
      rw [writeInteger_negSucc, List.cons_append]
      exact hread

/-- An integer starts with a digit or a minus sign. -/
theorem startsNumber_writeInteger (n : Int) :
    ∃ b t, writeInteger n = b :: t ∧ startsNumber b = true := by
  cases n with
  | ofNat m =>
      have h := isDecimal_encode_repr m
      obtain ⟨d, t, hds⟩ := List.exists_cons_of_ne_nil h.ne_nil
      refine ⟨d, t, hds, ?_⟩
      rw [startsNumber, h.digits d (hds ▸ List.mem_cons_self), Bool.or_true]
  | negSucc m => exact ⟨_, _, writeInteger_negSucc m, rfl⟩

end RestGateway.Json
