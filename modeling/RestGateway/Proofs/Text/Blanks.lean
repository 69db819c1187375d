import Mathlib.Data.List.TakeWhile
import RestGateway.Bytes

/-!
# Texts without the blanks at their ends

`Bytes.trim` takes blanks off both ends and nothing else, so a text is what is left of it between
blanks, and what is left starts with the first byte that is not blank.
-/

namespace RestGateway.Bytes

variable {s : Bytes} {b : UInt8}

theorem trim_eq_self (h : ∀ b ∈ s, Ascii.isBlank b = false) : trim s = s := by
  have hkeep : ∀ t : Bytes, (∀ b ∈ t, Ascii.isBlank b = false) → t.dropWhile Ascii.isBlank = t := by
    intro t ht
    refine List.dropWhile_eq_self_iff.mpr fun hpos => ?_
    simp [ht t[0] (List.getElem_mem hpos)]
  rw [trim, hkeep s h, hkeep s.reverse (by simpa using h), List.reverse_reverse]

/-- A blank in front of a text is left out. -/
theorem trim_cons_blank (hb : Ascii.isBlank b = true) (s : Bytes) :
    trim (b :: s) = trim s := by
  rw [trim, trim, List.dropWhile_cons_of_pos hb]

/-- A text is what is left of it, between blanks. -/
theorem exists_trim (s : Bytes) : ∃ front back,
    (∀ b ∈ front, Ascii.isBlank b = true) ∧ (∀ b ∈ back, Ascii.isBlank b = true) ∧
      s = front ++ trim s ++ back := by
  let core := s.dropWhile Ascii.isBlank
  have hcore : core = trim s ++ (core.reverse.takeWhile Ascii.isBlank).reverse :=
    calc
      core = core.reverse.reverse := (List.reverse_reverse core).symm
      _ = (core.reverse.takeWhile Ascii.isBlank ++ core.reverse.dropWhile Ascii.isBlank).reverse := by
        rw [List.takeWhile_append_dropWhile]
      _ = trim s ++ (core.reverse.takeWhile Ascii.isBlank).reverse := List.reverse_append
  refine ⟨s.takeWhile Ascii.isBlank, (core.reverse.takeWhile Ascii.isBlank).reverse, ?_, ?_, ?_⟩
  · exact fun b hb => List.mem_takeWhile_imp hb
  · exact fun b hb => List.mem_takeWhile_imp (List.mem_reverse.mp hb)
  · calc
      s = s.takeWhile Ascii.isBlank ++ core := List.takeWhile_append_dropWhile.symm
      _ = s.takeWhile Ascii.isBlank ++ trim s ++
          (core.reverse.takeWhile Ascii.isBlank).reverse := by
        rw [List.append_assoc, ← hcore]

/-- What is left of a text starts with its first byte if that is not blank. -/
theorem exists_cons_of_trim (hb : Ascii.isBlank b = false) (s : Bytes) :
    ∃ t, trim (b :: s) = b :: t := by
  obtain ⟨front, back, hfront, hback, hs⟩ := exists_trim (b :: s)
  cases front with
  | cons c front =>
      rw [(List.cons.inj hs).1, hfront c List.mem_cons_self] at hb
      cases hb
  | nil =>
      cases htrim : trim (b :: s) with
      | nil =>
          rw [htrim, List.nil_append, List.nil_append] at hs
          rw [hback b (hs ▸ List.mem_cons_self)] at hb
          cases hb
      | cons c t =>
          rw [htrim] at hs
          exact ⟨t, by rw [(List.cons.inj hs).1]⟩

end RestGateway.Bytes
