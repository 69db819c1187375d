import Mathlib.Data.Fintype.Basic
import RestGateway.Proofs.Text.Escapes
import RestGateway.Proofs.Text.Utf8
import RestGateway.Query.Scan
import RestGateway.Request.Query

/-!
# The search for bad escapes stays inside

On a text the loop over positions does what the search on the rest of the pair does. It never asks
for a byte that the pair does not have, and when it passes it has come exactly to the end. A bad
escape that ends inside a character is not shown, only its percent sign.
-/

namespace RestGateway

namespace Utf8

variable {t : String} {i j : Nat}

theorem isTail_eq_false_of_isUTF8FirstByte {b : UInt8} (h : b.IsUTF8FirstByte) :
    isTail b = false := by
  have hall : ∀ n : Fin 256, (UInt8.ofFin n).IsUTF8FirstByte → isTail (UInt8.ofFin n) = false := by
    decide +kernel
  exact hall b.toFin h

/-- The positions of characters of a text are boundaries. -/
theorem isBoundary_of_isValid {p : String.Pos.Raw} (h : p.IsValid t) :
    isBoundary (encode t) p.byteIdx = true := by
  rw [isBoundary]
  rcases String.Pos.Raw.isValid_iff_isUTF8FirstByte.mp h with rfl | ⟨hlt, hfirst⟩
  · have hlength : (encode t).length = t.rawEndPos.byteIdx := by simp [encode]
    rw [List.getElem?_eq_none (Nat.le_of_eq hlength), hlength]
    exact beq_self_eq_true _
  · have hbyte : (encode t)[p.byteIdx]? = some (t.getUTF8Byte p hlt) := by
      rw [String.getUTF8Byte, encode, ByteArray.getElem_eq_getElem_data]
      simp
    rw [hbyte]
    simp [isTail_eq_false_of_isUTF8FirstByte hfirst]

theorem extract_eq (t : String) (i j : Nat) :
    t.toByteArray.extract i j = ⟨(((encode t).drop i).take (j - i)).toArray⟩ := by
  apply ByteArray.ext
  rw [ByteArray.data_extract]
  apply Array.toList_inj.mp
  simp [encode]

/-- A part of a text that is a text ends at a boundary. -/
theorem isBoundary_of_decode?_eq_some {u : String} (hij : i < j) (hj : j ≤ (encode t).length)
    (h : decode? (((encode t).drop i).take (j - i)) = some u) :
    isBoundary (encode t) j = true := by
  have hvalid : (t.toByteArray.extract i j).IsValidUTF8 := by
    rw [extract_eq]
    by_contra hnot
    simp [decode?, decode, hnot, Except.toOption] at h
  have hle : (⟨i⟩ : String.Pos.Raw) ≤ ⟨j⟩ := Nat.le_of_lt hij
  have hend : (⟨j⟩ : String.Pos.Raw) ≤ t.rawEndPos := by
    change j ≤ t.rawEndPos.byteIdx
    simpa [encode] using hj
  rcases (String.Pos.Raw.isValidUTF8_extract_iff ⟨i⟩ ⟨j⟩ hle hend).mp hvalid with heq | ⟨_, hj⟩
  · cases heq
    exact absurd hij (Nat.lt_irrefl i)
  · exact isBoundary_of_isValid hj

/-- Behind a boundary, a part of a text is cut out if it is a text. -/
theorem slice?_eq_decode? (hi : isBoundary (encode t) i = true) (hij : i < j)
    (hj : j ≤ (encode t).length) :
    slice? (encode t) i j = decode? (((encode t).drop i).take (j - i)) := by
  have hle : decide (i ≤ j) = true := decide_eq_true (Nat.le_of_lt hij)
  cases hboundary : isBoundary (encode t) j with
  | true => simp [slice?, hle, hi, hboundary]
  | false =>
      cases hdecode : decode? (((encode t).drop i).take (j - i)) with
      | none => simp [slice?, hboundary]
      | some u =>
          rw [isBoundary_of_decode?_eq_some hij hj hdecode] at hboundary
          cases hboundary

end Utf8

namespace Query

/-- What the loop comes to, by what the search on the rest of the pair finds. -/
def Scan.ofBadEscape (pair : Bytes) : Option Bytes → Scan
  | none => .passed pair.length
  | some tail => .refused (shownEscape tail)

variable {pair : Bytes} {i : Nat}

theorem digitsFollow_drop_iff :
    Percent.DigitsFollow (pair.drop i) 0 ↔ Percent.DigitsFollow pair i := by
  simp only [Percent.DigitsFollow, List.getElem?_drop, Nat.zero_add]

/-- The loop asks for the two bytes that have to be digits. -/
theorem range?_any_iff :
    ((pair.range? (i + 1) (i + 3)).any fun digits => digits.all Ascii.isHexDigit) = true ↔
      Percent.DigitsFollow pair i := by
  by_cases hlength : i + 3 ≤ pair.length
  · have htail : pair.drop (i + 1) = pair[i + 1] :: pair[i + 2] :: pair.drop (i + 3) := by
      rw [List.drop_eq_getElem_cons (by omega), List.drop_eq_getElem_cons (by omega)]
    have hrange : pair.range? (i + 1) (i + 3) = some [pair[i + 1], pair[i + 2]] := by
      have hinside : (i + 1 ≤ i + 3 && i + 3 ≤ pair.length) = true := by simp [hlength]
      have htwo : i + 3 - (i + 1) = 2 := by omega
      rw [Bytes.range?, if_pos hinside, htail, htwo]
      rfl
    have hhigh : pair[i + 1]? = some pair[i + 1] := List.getElem?_eq_getElem (by omega)
    have hlow : pair[i + 2]? = some pair[i + 2] := List.getElem?_eq_getElem (by omega)
    rw [hrange, Percent.DigitsFollow, hhigh, hlow]
    simp
  · have hrange : pair.range? (i + 1) (i + 3) = none := by
      rw [Bytes.range?, if_neg]
      simp [hlength]
    have hlow : pair[i + 2]? = none := List.getElem?_eq_none (by omega)
    rw [hrange, Percent.DigitsFollow, hlow]
    simp

theorem drop_of_getElem? {b : UInt8} (h : pair[i]? = some b) :
    pair.drop i = b :: pair.drop (i + 1) := by
  obtain ⟨hlt, rfl⟩ := List.getElem?_eq_some_iff.mp h
  exact List.drop_eq_getElem_cons hlt

/-- On a text the loop does what the search on the rest does. -/
theorem scanFrom_eq {t : String} (hpair : Utf8.encode t = pair) (hi : i ≤ pair.length) :
    scanFrom pair i = Scan.ofBadEscape pair (Percent.badEscape? (pair.drop i)) := by
  fun_induction scanFrom pair i with
  | case1 i hlt hnone =>
      rw [List.getElem?_eq_none_iff] at hnone
      exact absurd hlt (Nat.not_lt.mpr hnone)
  | case2 i hlt b hb hsign hdigits ih =>
      -- The digits of a good escape are inside the pair, so the loop does not step over its end.
      have hfollow := range?_any_iff.mp hdigits
      have ⟨_, _, _, hlow, _⟩ := hfollow
      obtain ⟨hlength, _⟩ := List.getElem?_eq_some_iff.mp hlow
      rw [beq_iff_eq.mp hsign] at hb
      have hdrop := drop_of_getElem? hb
      rw [← digitsFollow_drop_iff, hdrop] at hfollow
      rw [ih hlength, hdrop, Percent.badEscape?_of_digitsFollow hfollow, List.drop_drop]
  | case3 i hlt b hb hsign hdigits =>
      have hfollow := mt range?_any_iff.mpr hdigits
      rw [beq_iff_eq.mp hsign] at hb
      have hdrop := drop_of_getElem? hb
      have hboundary : Utf8.isBoundary pair i = true := by
        rw [Utf8.isBoundary, hb]
        rfl
      have hshown : Utf8.slice? pair i (min (i + 3) pair.length) =
          Utf8.decode? ((pair.drop i).take 3) := by
        subst hpair
        rw [Utf8.slice?_eq_decode? hboundary (by omega) (Nat.min_le_right _ _)]
        apply congrArg
        apply List.take_eq_take_iff.mpr
        rw [List.length_drop]
        omega
      rw [← digitsFollow_drop_iff, hdrop] at hfollow
      rw [hshown, hdrop, Percent.badEscape?_of_not_digitsFollow hfollow]
      rfl
  | case4 i hlt b hb hsign ih =>
      have hne : b ≠ 0x25 := fun heq => hsign (beq_iff_eq.mpr heq)
      rw [ih hlt, drop_of_getElem? hb, Percent.badEscape?_cons_of_ne hne]
  | case5 i hge =>
      have hend : i = pair.length := Nat.le_antisymm hi (Nat.not_lt.mp hge)
      rw [hend, List.drop_length]
      rfl

end Query

end RestGateway
