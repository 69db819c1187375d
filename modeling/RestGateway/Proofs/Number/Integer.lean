import RestGateway.Number.Integer
import RestGateway.Proofs.Json.Integer

/-!
# Reading back integers in text

The digits of a number are read to the number, with or without a minus sign, as long as it stays in
the range. Every integer of 64 bits is read back from its text.
-/

namespace RestGateway.Integer

/-- Digits count up to the number that they stand for. -/
theorem readDigits_false {range : Range} {ds : Bytes} (hds : ∀ b ∈ ds, Ascii.isDigit b = true)
    {n : Nat}
    (h : (ds.foldl (fun n d => n * 10 + Ascii.digitValue d) n : Nat) ≤ range.greatest) :
    readDigits range false n ds =
      .ok (ds.foldl (fun n d => n * 10 + Ascii.digitValue d) n : Nat) := by
  induction ds generalizing n with
  | nil => rfl
  | cons d ds ih =>
      have hdigit := hds d List.mem_cons_self
      have hle : n * 10 + Ascii.digitValue d ≤
          ds.foldl (fun n d => n * 10 + Ascii.digitValue d) (n * 10 + Ascii.digitValue d) :=
        Json.le_foldl_digits ds _
      have hfits : ¬ range.greatest < (n : Int) * 10 + Ascii.digitValue d := by
        rw [List.foldl_cons] at h
        omega
      have hrest := ih (fun b hb => hds b (List.mem_cons_of_mem d hb)) h
      simp only [readDigits, hdigit, Bool.not_true, if_neg hfits, Bool.false_eq_true, if_false]
      exact_mod_cast hrest

/-- Digits after a minus sign count down to the number that they stand for. -/
theorem readDigits_true {range : Range} {ds : Bytes} (hds : ∀ b ∈ ds, Ascii.isDigit b = true)
    {n : Nat}
    (h : range.least ≤ -(ds.foldl (fun n d => n * 10 + Ascii.digitValue d) n : Nat)) :
    readDigits range true (-n) ds =
      .ok (-(ds.foldl (fun n d => n * 10 + Ascii.digitValue d) n : Nat)) := by
  induction ds generalizing n with
  | nil => rfl
  | cons d ds ih =>
      have hdigit := hds d List.mem_cons_self
      have hle : n * 10 + Ascii.digitValue d ≤
          ds.foldl (fun n d => n * 10 + Ascii.digitValue d) (n * 10 + Ascii.digitValue d) :=
        Json.le_foldl_digits ds _
      have hstep : -(n : Int) * 10 - Ascii.digitValue d =
          -((n * 10 + Ascii.digitValue d : Nat) : Int) := by omega
      have hfits : ¬ -((n * 10 + Ascii.digitValue d : Nat) : Int) < range.least := by
        rw [List.foldl_cons] at h
        omega
      have hrest := ih (fun b hb => hds b (List.mem_cons_of_mem d hb)) h
      simp only [readDigits, hdigit, Bool.not_true, Bool.false_eq_true, if_false, if_true, hstep,
        if_neg hfits]
      exact hrest

/-- Digits are read to the number that they stand for, with or without zeros in front. -/
theorem readBytes_of_forall_isDigit {range : Range} {ds : Bytes} (hne : ds ≠ [])
    (hdigits : ∀ b ∈ ds, Ascii.isDigit b = true) (hm : Ascii.number ds ≤ range.greatest) :
    readBytes range ds = .ok (Ascii.number ds : Int) := by
  have hread : readDigits range false 0 ds = .ok (Ascii.number ds : Int) :=
    readDigits_false hdigits hm
  cases ds with
  | nil => exact absurd rfl hne
  | cons d ds =>
      have hsign : ∀ b, Ascii.isDigit b = false → (d == b) = false := by
        intro b hb
        apply beq_false_of_ne
        rintro rfl
        rw [hdigits d List.mem_cons_self] at hb
        cases hb
      simp only [readBytes, hsign 0x2B rfl, hsign 0x2D rfl, Bool.or_self, Bool.false_and,
        Bool.false_eq_true, if_false]
      exact hread

/-- The digits of a number of the range are read to it. -/
theorem readBytes_digits {range : Range} {ds : Bytes} {m : Nat} (h : Json.IsDecimal ds m)
    (hm : m ≤ range.greatest) : readBytes range ds = .ok (m : Int) := by
  have hne := h.ne_nil
  obtain ⟨hdigits, rfl, _⟩ := h
  exact readBytes_of_forall_isDigit hne hdigits hm

/-- The digits of a number behind a minus sign are read to its negation. -/
theorem readBytes_minus {range : Range} {ds : Bytes} {m : Nat} (h : Json.IsDecimal ds m)
    (hm : range.least ≤ -m) (hneg : range.least < 0) :
    readBytes range (0x2D :: ds) = .ok (-m : Int) := by
  have hempty : ds.isEmpty = false := by simpa using h.ne_nil
  obtain ⟨hdigits, rfl, _⟩ := h
  have hread : readDigits range true 0 ds = .ok (-(Ascii.number ds : Int)) :=
    readDigits_true hdigits hm
  simp only [readBytes, hempty, hneg, decide_true]
  exact hread

/-- An integer of 64 bits is read back from its text. -/
theorem readBytes_toString (n : Int64) :
    readBytes int64 (Utf8.encode (toString n.toInt)) = .ok n.toInt := by
  have hlow : int64.least ≤ n.toInt := n.le_toInt
  have hhigh : n.toInt ≤ int64.greatest := Int.le_sub_one_of_lt n.toInt_lt
  cases hn : n.toInt with
  | ofNat m =>
      rw [hn] at hhigh
      exact readBytes_digits (Json.isDecimal_encode_repr m) hhigh
  | negSucc m =>
      rw [hn] at hlow
      have hwritten : Utf8.encode (toString (Int.negSucc m)) = 0x2D :: Utf8.encode (m + 1).repr :=
        Json.writeInteger_negSucc m
      rw [hwritten]
      exact readBytes_minus (Json.isDecimal_encode_repr (m + 1)) hlow (by decide)

end RestGateway.Integer
