import Mathlib.Tactic.Ring
import RestGateway.Deadline

/-!
# Limits that can be written

A limit is written in the finest unit in which its amount has at most eight digits, so its whole
hours decide whether it can be written. Every limit that a client can set is among them.
-/

namespace RestGateway

/-- Whole hours of a span. -/
def Duration.hours (d : Duration) : Nat := d.nanos / Deadline.Unit.hour.nanos

namespace Digits

theorem digit_lt_ten {c : Char} (h : c.isDigit = true) : c.toNat - 48 < 10 := by
  simp only [Char.isDigit, Bool.and_eq_true, decide_eq_true_eq] at h
  have hle : c.val.toNat ≤ 57 := UInt32.le_iff_toNat_le.mp h.2
  change c.val.toNat - 48 < 10
  omega

theorem foldl_lt (digits : List Char) (h : ∀ c ∈ digits, c.isDigit = true) (n : Nat) :
    digits.foldl (fun n c => n * 10 + (c.toNat - 48)) n < (n + 1) * 10 ^ digits.length := by
  induction digits generalizing n with
  | nil => simp
  | cons c rest ih =>
      have hc := digit_lt_ten (h c (by simp))
      have hrest := ih (fun x hx => h x (by simp [hx])) (n * 10 + (c.toNat - 48))
      have hle : n * 10 + (c.toNat - 48) + 1 ≤ (n + 1) * 10 := by omega
      calc
        (c :: rest).foldl (fun n c => n * 10 + (c.toNat - 48)) n
            < (n * 10 + (c.toNat - 48) + 1) * 10 ^ rest.length := hrest
        _ ≤ (n + 1) * 10 * 10 ^ rest.length := Nat.mul_le_mul_right _ hle
        _ = (n + 1) * 10 ^ (c :: rest).length := by rw [List.length_cons, pow_succ]; ring

theorem value_lt {digits : List Char} (h : ∀ c ∈ digits, c.isDigit = true) :
    value digits < 10 ^ digits.length := by
  simpa [value] using foldl_lt digits h 0

end Digits

namespace Deadline

theorem Unit.nanos_pos (u : Unit) : 0 < u.nanos := by cases u <;> decide

theorem Unit.nanos_le_hour (u : Unit) : u.nanos ≤ Unit.hour.nanos := by cases u <;> decide

theorem writeIn?_eq_some_iff {d : Duration} {u : Unit} {text : String} :
    writeIn? d u = some text ↔
      d.nanos / u.nanos < 10 ^ digitLimit ∧
        text = toString (d.nanos / u.nanos) ++ u.letter.toString := by
  simp only [writeIn?, Nat.pow_eq, Option.ite_none_right_eq_some, Option.some.injEq]
  exact and_congr_right fun _ => eq_comm

theorem writeIn?_eq_none_iff {d : Duration} {u : Unit} :
    writeIn? d u = none ↔ 10 ^ digitLimit ≤ d.nanos / u.nanos := by
  simp only [writeIn?, Nat.pow_eq, ite_eq_right_iff, reduceCtorEq, imp_false, Nat.not_lt]

/-- A limit can be written exactly if it has fewer than a hundred million whole hours. -/
theorem write?_isSome_iff (d : Duration) :
    (write? d).isSome = true ↔ d.hours < 10 ^ digitLimit := by
  have hunit : ∀ u : Unit, (writeIn? d u).isSome = true ↔ d.nanos / u.nanos < 10 ^ digitLimit := by
    intro u
    rw [Option.isSome_iff_ne_none, Ne, writeIn?_eq_none_iff, Nat.not_le]
  rw [write?, List.isSome_findSome?, List.any_eq_true]
  constructor
  · rintro ⟨u, _, hu⟩
    have hle : d.hours ≤ d.nanos / u.nanos :=
      Nat.div_le_div_left u.nanos_le_hour u.nanos_pos
    exact Nat.lt_of_le_of_lt hle ((hunit u).mp hu)
  · intro h
    exact ⟨.hour, by decide, (hunit .hour).mpr h⟩

/-- What is read is a number of at most eight digits in some unit. -/
theorem exists_amount_of_parse? {s : String} {d : Duration} (h : parse? s = some d) :
    ∃ amount u, amount < 10 ^ digitLimit ∧ d = ⟨amount * Unit.nanos u⟩ := by
  unfold parse? at h
  simp only at h
  split at h
  · rename_i hs
    simp only [Bool.and_eq_true, decide_eq_true_eq, List.all_eq_true] at hs
    simp only [bind, Option.bind_eq_some_iff, pure, Option.some.injEq] at h
    obtain ⟨c, _, u, _, rfl⟩ := h
    have hpow : 10 ^ s.toList.dropLast.length ≤ 10 ^ digitLimit :=
      Nat.pow_le_pow_right (by decide) hs.1.2
    exact ⟨_, u, Nat.lt_of_lt_of_le (Digits.value_lt hs.2) hpow, rfl⟩
  · cases h

/-- A limit that was read can be written. -/
theorem hours_lt_of_parse? {s : String} {d : Duration} (h : parse? s = some d) :
    d.hours < 10 ^ digitLimit := by
  obtain ⟨amount, u, hamount, rfl⟩ := exists_amount_of_parse? h
  have hhours : amount * u.nanos / Unit.hour.nanos ≤ amount := by
    apply Nat.div_le_of_le_mul
    rw [Nat.mul_comm]
    exact Nat.mul_le_mul_right _ u.nanos_le_hour
  exact Nat.lt_of_le_of_lt hhours hamount

/-- The limit of a client was read from a text. -/
theorem exists_text_of_ofHeaders {headers : Headers} {d : Duration}
    (h : ofHeaders headers = .ok (some d)) : ∃ text, parse? text = some d := by
  unfold ofHeaders at h
  cases hv : headers.get? name with
  | none => simp [hv] at h
  | some value =>
      cases hp : (Utf8.decode? value).bind parse? with
      | none => simp [hv, hp] at h
      | some parsed =>
          simp only [hv, hp, Except.ok.injEq, Option.some.injEq] at h
          subst h
          obtain ⟨text, _, ht⟩ := Option.bind_eq_some_iff.mp hp
          exact ⟨text, ht⟩

/-- The limit that a client sets can be written. -/
theorem hours_lt_of_ofHeaders {headers : Headers} {client : Option Duration}
    (h : ofHeaders headers = .ok client) : ∀ d, client = some d → d.hours < 10 ^ digitLimit := by
  rintro d rfl
  obtain ⟨text, ht⟩ := exists_text_of_ofHeaders h
  exact hours_lt_of_parse? ht

/-- The limit that counts can be written if both limits can. -/
theorem hours_lt_of_effective {server client : Option Duration}
    (hs : ∀ d, server = some d → d.hours < 10 ^ digitLimit)
    (hc : ∀ d, client = some d → d.hours < 10 ^ digitLimit) :
    ∀ d, effective server client = some d → d.hours < 10 ^ digitLimit := by
  intro d hd
  cases server with
  | none => exact hc d (by cases client <;> exact hd)
  | some s =>
      cases client with
      | none => exact hs d hd
      | some c =>
          cases hd
          have hle : (s.min c).hours ≤ s.hours :=
            Nat.div_le_div_right (Nat.min_le_left s.nanos c.nanos)
          exact Nat.lt_of_le_of_lt hle (hs s rfl)

end Deadline

end RestGateway
