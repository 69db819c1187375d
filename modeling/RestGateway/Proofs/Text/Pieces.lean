import Mathlib.Data.List.TakeDrop
import RestGateway.Pieces

/-!
# Cutting and joining

Cutting at a separator and joining with it undo each other: the pieces of a text join to the text,
and pieces without the separator are cut out again.
-/

namespace RestGateway

variable {α : Type}

/-- Behind the first piece, every piece follows a separator. -/
theorem joined_cons (separator : α) (piece : List α) (ps : List (List α)) :
    joined separator (piece :: ps) = piece ++ ps.flatMap (separator :: ·) := by
  induction ps generalizing piece with
  | nil => simp [joined]
  | cons next ps ih =>
      have hjoined : joined separator (piece :: next :: ps) =
          piece ++ separator :: joined separator (next :: ps) := by
        simp [joined, List.intercalate_cons_cons]
      rw [hjoined, ih, List.flatMap_cons, List.cons_append]

/-- There are no more pieces than elements if every piece has a separator in front. -/
theorem length_le_length_flatMap_cons (separator : α) (ps : List (List α)) :
    ps.length ≤ (ps.flatMap (separator :: ·)).length := by
  induction ps with
  | nil => exact Nat.le_refl _
  | cons piece ps ih =>
      rw [List.flatMap_cons, List.length_append, List.length_cons, List.length_cons]
      omega

/-- What satisfies a condition is cut off in front of what does not. -/
theorem span_append {q : α → Bool} {s : List α} (hs : ∀ a ∈ s, q a = true) {rest : List α}
    (hrest : ∀ a ∈ rest.head?, q a = false) : (s ++ rest).span q = (s, rest) := by
  rw [List.span_eq_takeWhile_dropWhile, List.takeWhile_append_of_pos hs,
    List.dropWhile_append_of_pos hs]
  cases rest with
  | nil => simp
  | cons a rest => simp [hrest a rfl]

/-- Where nothing is cut off earlier, cutting twice cuts off the same. -/
theorem takeWhile_takeWhile_of_forall {p q : α → Bool} {s : List α}
    (h : ∀ a ∈ s.takeWhile p, q a = true) : (s.takeWhile q).takeWhile p = s.takeWhile p := by
  induction s with
  | nil => rfl
  | cons a s ih =>
      by_cases hp : p a = true
      · rw [List.takeWhile_cons_of_pos hp] at h ⊢
        obtain ⟨ha, hs⟩ := List.forall_mem_cons.mp h
        rw [List.takeWhile_cons_of_pos ha, List.takeWhile_cons_of_pos hp, ih hs]
      · rw [List.takeWhile_cons_of_neg hp]
        by_cases hq : q a = true
        · rw [List.takeWhile_cons_of_pos hq, List.takeWhile_cons_of_neg hp]
        · rw [List.takeWhile_cons_of_neg hq, List.takeWhile_nil]

variable [BEq α]

/-- Cutting is the splitting of the standard library. -/
theorem pieces_eq_splitOn (separator : α) (s : List α) :
    pieces separator s = s.splitOn separator := by
  induction s with
  | nil => simp
  | cons a s ih =>
      rw [pieces_cons, List.splitOn_cons_eq_if_modifyHead, ih]
      split
      · rfl
      · cases hs : s.splitOn separator with
        | nil => exact absurd hs (List.splitOn_ne_nil separator s)
        | cons piece rest => rfl

/-- The first piece ends in front of the first separator. -/
theorem head?_pieces (separator : α) (s : List α) :
    (pieces separator s).head? = some (s.takeWhile (· != separator)) := by
  induction s with
  | nil => rfl
  | cons a s ih =>
      rw [pieces_cons]
      split
      · rename_i ha
        simp [ha, bne]
      · rename_i ha
        cases hs : pieces separator s with
        | nil => exact absurd hs (pieces_ne_nil separator s)
        | cons piece rest =>
            rw [hs] at ih
            simpa [List.takeWhile_cons, ha, bne] using ih

variable [LawfulBEq α]

theorem joined_pieces (separator : α) (s : List α) : joined separator (pieces separator s) = s := by
  rw [pieces_eq_splitOn]
  exact List.intercalate_splitOn separator

theorem pieces_joined {separator : α} {ps : List (List α)} (hne : ps ≠ [])
    (h : ∀ piece ∈ ps, separator ∉ piece) : pieces separator (joined separator ps) = ps := by
  rw [pieces_eq_splitOn]
  exact List.splitOn_intercalate separator h hne

/-- A text without the separator is one piece. -/
theorem pieces_of_not_mem {separator : α} {s : List α} (h : separator ∉ s) :
    pieces separator s = [s] := by
  have hone : joined separator [s] = s := List.intercalate_singleton
  have hcut : pieces separator (joined separator [s]) = [s] :=
    pieces_joined (List.cons_ne_nil _ _) (by simpa using h)
  rwa [hone] at hcut

/-- The pieces on both sides of a separator are cut apart from each other. -/
theorem pieces_append (separator : α) (s t : List α) :
    pieces separator (s ++ separator :: t) = pieces separator s ++ pieces separator t := by
  induction s with
  | nil => simp [pieces_cons]
  | cons a s ih =>
      rw [List.cons_append, pieces_cons, pieces_cons, ih]
      split
      · rfl
      · cases hs : pieces separator s with
        | nil => exact absurd hs (pieces_ne_nil separator s)
        | cons piece rest => rfl

/-- What is in front of the first separator belongs to the first piece. -/
theorem pieces_append_of_not_mem {separator : α} {s : List α} (h : separator ∉ s) (t : List α) :
    pieces separator (s ++ t) = (pieces separator t).modifyHead (s ++ ·) := by
  induction s with
  | nil => cases hcut : pieces separator t <;> rw [List.nil_append, hcut] <;> rfl
  | cons a s ih =>
      obtain ⟨ha, hs⟩ := List.ne_and_not_mem_of_not_mem_cons h
      rw [List.cons_append, pieces_cons, if_neg (by simpa using ha.symm), ih hs]
      cases hcut : pieces separator t with
      | nil => exact absurd hcut (pieces_ne_nil separator t)
      | cons piece rest => rfl

/-- No piece holds the separator. -/
theorem not_mem_of_mem_pieces {separator : α} {s piece : List α} (h : piece ∈ pieces separator s) :
    separator ∉ piece := by
  induction s generalizing piece with
  | nil =>
      cases List.mem_singleton.mp h
      exact List.not_mem_nil
  | cons a s ih =>
      rw [pieces_cons] at h
      split at h
      · rcases List.mem_cons.mp h with rfl | h
        · exact List.not_mem_nil
        · exact ih h
      · rename_i ha
        cases hs : pieces separator s with
        | nil => exact absurd hs (pieces_ne_nil separator s)
        | cons first rest =>
            rw [hs] at ih
            rw [hs] at h
            rcases List.mem_cons.mp h with rfl | h
            · intro hmem
              rcases List.mem_cons.mp hmem with heq | hmem
              · exact ha (beq_iff_eq.mpr heq.symm)
              · exact ih List.mem_cons_self hmem
            · exact ih (List.mem_cons_of_mem _ h)

end RestGateway
