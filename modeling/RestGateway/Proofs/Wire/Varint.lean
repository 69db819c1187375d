import Mathlib.Tactic.Ring
import RestGateway.Wire.Basic

/-!
# Reading back numbers and lengths

What the writers of numbers, keys and lengths put in front of any bytes is read back, and exactly
these bytes are left.
-/

namespace RestGateway.Wire

theorem writeVarint_ne_nil (n : Nat) : writeVarint n ≠ [] := by
  unfold writeVarint
  split <;> simp

/-- A byte without a mark is the last group of a number. -/
theorem readVarintFrom_last {b : UInt8} {n group : Nat} {s : Bytes} (hb : b.toNat < 128)
    (hg : group = 9 → b.toNat < 2) :
    readVarintFrom n group (Input.ofBytes (b :: s)) =
      .ok (n + b.toNat * 128 ^ group, Input.ofBytes s) := by
  have hlt : b < 0x80 := UInt8.lt_iff_toNat_lt.mpr hb
  have htop : (group = 9 && decide (0x02 ≤ b)) = false := by
    rw [Bool.and_eq_false_iff]
    by_cases h9 : group = 9
    · exact Or.inr (decide_eq_false fun h => Nat.not_lt.mpr (UInt8.le_iff_toNat_le.mp h) (hg h9))
    · exact Or.inl (decide_eq_false h9)
  simp [Input.ofBytes, readVarintFrom, hlt, htop, Nat.mod_eq_of_lt hb]

/-- A byte with a mark is a group in front of others. -/
theorem readVarintFrom_more {b : UInt8} {n group : Nat} {s : Bytes} (hb : 128 ≤ b.toNat)
    (hg : group < 9) :
    readVarintFrom n group (Input.ofBytes (b :: s)) =
      readVarintFrom (n + b.toNat % 128 * 128 ^ group) (group + 1) (Input.ofBytes s) := by
  have hlt : ¬ b < 0x80 := fun h => Nat.not_lt.mpr hb (UInt8.lt_iff_toNat_lt.mp h)
  rw [Input.ofBytes, readVarintFrom]
  simp [Input.ofBytes, hlt, hg]

/-- The groups of a number are added to what the groups before them give, if there is room for all
of them in 64 bits. -/
theorem readVarintFrom_writeVarint (m n group : Nat) (rest : Bytes) (hg : group ≤ 9)
    (hm : m < 2 ^ (64 - 7 * group)) :
    readVarintFrom n group (Input.ofBytes (writeVarint m ++ rest)) =
      .ok (n + m * 128 ^ group, Input.ofBytes rest) := by
  induction m using Nat.strong_induction_on generalizing n group with
  | _ m ih =>
      unfold writeVarint
      split
      · rename_i hlt
        have hb : (UInt8.ofNat m).toNat = m := by
          rw [UInt8.toNat_ofNat']
          omega
        have h2 : group = 9 → (UInt8.ofNat m).toNat < 2 := by
          intro h9
          rw [hb]
          simpa [h9] using hm
        rw [List.cons_append, List.nil_append, readVarintFrom_last (hb.symm ▸ hlt) h2, hb]
      · rename_i hge
        have hb : (UInt8.ofNat (m % 128 + 128)).toNat = m % 128 + 128 := by
          rw [UInt8.toNat_ofNat']
          omega
        have h9 : group < 9 := by
          refine lt_of_le_of_ne hg fun h9 => ?_
          rw [h9] at hm
          omega
        have hdiv : m / 128 < 2 ^ (64 - 7 * (group + 1)) := by
          apply Nat.div_lt_of_lt_mul
          calc
            m < 2 ^ (64 - 7 * group) := hm
            _ = 2 ^ (7 + (64 - 7 * (group + 1))) := by congr 1; omega
            _ = 128 * 2 ^ (64 - 7 * (group + 1)) := pow_add 2 7 _
        rw [List.cons_append, readVarintFrom_more (by omega) h9,
          ih (m / 128) (by omega) _ (group + 1) h9 hdiv, hb]
        have hsum : n + (m % 128 + 128) % 128 * 128 ^ group + m / 128 * 128 ^ (group + 1) =
            n + m * 128 ^ group := by
          calc
            n + (m % 128 + 128) % 128 * 128 ^ group + m / 128 * 128 ^ (group + 1)
                = n + (m % 128 + 128 * (m / 128)) * 128 ^ group := by
                  rw [Nat.add_mod_right, Nat.mod_mod, pow_succ]; ring
            _ = n + m * 128 ^ group := by rw [Nat.mod_add_div]
        rw [hsum]

/-- A number of 64 bits is read back. -/
theorem readVarint_writeVarint {n : Nat} (h : n < 2 ^ 64) (rest : Bytes) :
    readVarint (Input.ofBytes (writeVarint n ++ rest)) = .ok (n, Input.ofBytes rest) := by
  have hread := readVarintFrom_writeVarint n 0 0 rest (by omega) h
  simpa [readVarint] using hread

theorem Shape.number_lt (shape : Shape) : shape.number < 8 := by cases shape <;> decide

theorem Shape.ofNumber?_number (shape : Shape) : ofNumber? shape.number = some shape := by
  cases shape <;> rfl

/-- Numbers that fields may have. -/
def IsTag (tag : Nat) : Prop := 1 ≤ tag ∧ tag < 2 ^ 29

instance (tag : Nat) : Decidable (IsTag tag) := inferInstanceAs (Decidable (_ ∧ _))

theorem writeKey_ne_nil (key : Key) : writeKey key ≠ [] := writeVarint_ne_nil _

/-- The key of a field is read back. -/
theorem readKey_writeKey {key : Key} (h : IsTag key.tag) (rest : Bytes) :
    readKey (Input.ofBytes (writeKey key ++ rest)) = .ok (key, Input.ofBytes rest) := by
  obtain ⟨tag, shape⟩ := key
  obtain ⟨hpos, hlt⟩ : 1 ≤ tag ∧ tag < 2 ^ 29 := h
  have hshape := shape.number_lt
  have hmod : (tag * 8 + shape.number) % 8 = shape.number := by omega
  have hdiv : (tag * 8 + shape.number) / 8 = tag := by omega
  have hread := readVarint_writeVarint (n := tag * 8 + shape.number) (by omega) rest
  have hsmall : ¬ Nat.pow 2 32 ≤ tag * 8 + shape.number := by
    rw [Nat.pow_eq]
    omega
  have hzero : tag ≠ 0 := by omega
  simp only [readKey, writeKey, hread, hmod, hdiv, Shape.ofNumber?_number, if_neg hsmall,
    if_neg hzero]

/-- A length is read back if there are as many bytes behind it. -/
theorem readLength_writeVarint {n : Nat} (h : n < 2 ^ 64) {rest : Bytes} (hr : n ≤ rest.length) :
    readLength (Input.ofBytes (writeVarint n ++ rest)) = .ok (n, Input.ofBytes rest) := by
  have hsize : ¬ (Input.ofBytes rest).size < n := Nat.not_lt.mpr hr
  simp only [readLength, readVarint_writeVarint h, if_neg hsize]

/-- Bytes behind their length are read back. -/
theorem readDelimited_writeDelimited {s : Bytes} (h : s.length < 2 ^ 64) (rest : Bytes) :
    readDelimited (Input.ofBytes (writeDelimited s ++ rest)) = .ok (s, Input.ofBytes rest) := by
  have hlen : s.length ≤ (s ++ rest).length := by simp
  rw [writeDelimited, List.append_assoc, readDelimited, readLength_writeVarint h hlen]
  simp only [Input.drop_ofBytes_append]
  simp [Input.ofBytes]

end RestGateway.Wire
