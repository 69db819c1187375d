import RestGateway.Proofs.Deadline.Writing

/-!
# Reading back limits

A limit is written with the digits of its amount in front of the letter of a unit, and is read back
rounded down to whole units. The unit is the finest that fits, so it divides every other unit that
would. In particular it divides the unit that a client has chosen, and the limit of a client is read
back as it was.
-/

namespace RestGateway

/-- A span rounded down to whole units. -/
def Duration.floor (d : Duration) (u : Deadline.Unit) : Duration := ⟨d.nanos / u.nanos * u.nanos⟩

namespace Duration

theorem floor_le (d : Duration) (u : Deadline.Unit) : (d.floor u).nanos ≤ d.nanos :=
  Nat.div_mul_le_self d.nanos u.nanos

theorem sub_floor_lt (d : Duration) (u : Deadline.Unit) :
    d.nanos - (d.floor u).nanos < u.nanos := by
  have hdiv := Nat.div_add_mod' d.nanos u.nanos
  have hmod := Nat.mod_lt d.nanos u.nanos_pos
  simp only [floor]
  omega

theorem floor_eq_self {d : Duration} {u : Deadline.Unit} (h : u.nanos ∣ d.nanos) :
    d.floor u = d := by
  rw [floor, Nat.div_mul_cancel h]

end Duration

namespace Digits

theorem value_eq_ofDigitChars (digits : List Char) :
    value digits = Nat.ofDigitChars 10 digits 0 := by
  simp only [value, Nat.ofDigitChars, Nat.mul_comm 10]
  rfl

/-- The digits of a number stand for it. -/
theorem value_toDigits (n : Nat) : value (Nat.toDigits 10 n) = n := by
  rw [value_eq_ofDigitChars, Nat.ofDigitChars_toDigits (by decide) (by decide)]

end Digits

namespace Deadline

theorem Unit.ofLetter?_letter (u : Unit) : ofLetter? u.letter = some u := by cases u <;> decide

/-- Each unit divides the units behind it. -/
theorem Unit.all_pairwise : all.Pairwise fun u v => u.nanos ∣ v.nanos := by decide

theorem Unit.mem_all (u : Unit) : u ∈ all := by cases u <;> decide

/-- Below each unit but the finest there is one that is finer, and not much finer. -/
theorem Unit.exists_finer {u : Unit} (h : u ≠ .nanosecond) :
    ∃ v : Unit, ¬ u.nanos ∣ v.nanos ∧ u.nanos ≤ 10 ^ digitLimit * v.nanos := by
  cases u with
  | nanosecond => exact absurd rfl h
  | microsecond => exact ⟨.nanosecond, by decide, by decide⟩
  | millisecond => exact ⟨.microsecond, by decide, by decide⟩
  | second => exact ⟨.millisecond, by decide, by decide⟩
  | minute => exact ⟨.second, by decide, by decide⟩
  | hour => exact ⟨.minute, by decide, by decide⟩

section Written

variable {d : Duration} {u : Unit} {text : String}

theorem toList_of_writeIn? (h : writeIn? d u = some text) :
    text.toList = Nat.toDigits 10 (d.nanos / u.nanos) ++ [u.letter] := by
  rw [(writeIn?_eq_some_iff.mp h).2, String.toList_append, Nat.toString_eq_repr, Nat.toList_repr,
    Char.toString_eq_singleton, String.toList_singleton]

/-- A written limit ends with the letter of its unit. -/
theorem getLast?_of_writeIn? (h : writeIn? d u = some text) :
    text.toList.getLast? = some u.letter := by
  rw [toList_of_writeIn? h, List.getLast?_concat]

theorem dropLast_of_writeIn? (h : writeIn? d u = some text) :
    text.toList.dropLast = Nat.toDigits 10 (d.nanos / u.nanos) := by
  rw [toList_of_writeIn? h, List.dropLast_concat]

/-- A written limit is read back in whole units. -/
theorem parse?_of_writeIn? (h : writeIn? d u = some text) : parse? text = some (d.floor u) := by
  have hshort : (Nat.toDigits 10 (d.nanos / u.nanos)).length ≤ digitLimit :=
    (Nat.length_toDigits_le_iff (by decide) (by decide)).mpr (writeIn?_eq_some_iff.mp h).1
  have hdigits : (Nat.toDigits 10 (d.nanos / u.nanos)).all Char.isDigit = true :=
    List.all_eq_true.mpr fun _ hc => Nat.isDigit_of_mem_toDigits (by decide) (by decide) hc
  have hempty : (Nat.toDigits 10 (d.nanos / u.nanos)).isEmpty = false := by
    simp [Nat.toDigits_ne_nil]
  simp only [parse?, dropLast_of_writeIn? h, getLast?_of_writeIn? h, hshort, hdigits, hempty,
    Digits.value_toDigits]
  simp [Unit.ofLetter?_letter, Duration.floor]

/-- A limit is written in a unit that divides all others that fit. -/
theorem exists_unit_of_write? (h : write? d = some text) :
    ∃ u : Unit, writeIn? d u = some text ∧
      ∀ v : Unit, d.nanos / v.nanos < 10 ^ digitLimit → u.nanos ∣ v.nanos := by
  obtain ⟨finer, u, coarser, hall, hu, hfiner⟩ := List.findSome?_eq_some_iff.mp h
  refine ⟨u, hu, fun v hv => ?_⟩
  have hmem : v ∈ finer ++ u :: coarser := hall ▸ v.mem_all
  rcases List.mem_append.mp hmem with hmem | hmem
  · exact absurd hv (Nat.not_lt.mpr (writeIn?_eq_none_iff.mp (hfiner v hmem)))
  · rcases List.mem_cons.mp hmem with rfl | hmem
    · exact Nat.dvd_refl _
    · have hpairs : (finer ++ u :: coarser).Pairwise fun u v => u.nanos ∣ v.nanos :=
        hall ▸ Unit.all_pairwise
      exact List.rel_of_pairwise_cons (List.pairwise_append.mp hpairs).2.1 hmem

/-- A limit that a client can set is written without loss. -/
theorem floor_eq_self_of_parse? {s : String} (hs : parse? s = some d)
    (hu : ∀ v : Unit, d.nanos / v.nanos < 10 ^ digitLimit → u.nanos ∣ v.nanos) :
    d.floor u = d := by
  obtain ⟨amount, v, hamount, rfl⟩ := exists_amount_of_parse? hs
  have hfits : amount * v.nanos / v.nanos < 10 ^ digitLimit := by
    rw [Nat.mul_div_cancel _ v.nanos_pos]
    exact hamount
  exact Duration.floor_eq_self (Nat.dvd_mul_left_of_dvd (hu v hfits) amount)

/-- A limit that is not zero is not rounded down to zero. -/
theorem floor_pos (hd : 0 < d.nanos)
    (hu : ∀ v : Unit, d.nanos / v.nanos < 10 ^ digitLimit → u.nanos ∣ v.nanos) :
    0 < (d.floor u).nanos := by
  have hle : u.nanos ≤ d.nanos := by
    by_cases hfinest : u = .nanosecond
    · rw [hfinest]
      exact hd
    · obtain ⟨v, hdvd, hbound⟩ := Unit.exists_finer hfinest
      have hlong : 10 ^ digitLimit ≤ d.nanos / v.nanos := Nat.not_lt.mp (mt (hu v) hdvd)
      exact hbound.trans ((Nat.le_div_iff_mul_le v.nanos_pos).mp hlong)
  exact Nat.mul_pos (Nat.div_pos hle u.nanos_pos) u.nanos_pos

end Written

end Deadline

end RestGateway
