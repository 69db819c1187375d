import RestGateway.Proofs.Text.Pieces
import RestGateway.Template

/-!
# Templates and the texts that spell them

A template has the text that it was read from, so different texts never spell the same template. No
segment of it is an empty literal, and no variable of it occurs twice.
-/

namespace RestGateway.Template

/-- A piece in braces is what stands between them, in braces. -/
theorem braced_eq {piece : List Char} (hhead : piece.head? = some '{')
    (hlast : piece.getLast? = some '}') :
    '{' :: (piece.tail.dropLast ++ ['}']) = piece := by
  obtain ⟨front, rfl⟩ := List.getLast?_eq_some_iff.mp hlast
  cases front with
  | nil => cases hhead
  | cons c front =>
      cases hhead
      simp

/-- A segment has the text of its piece, which is not empty. -/
theorem readSegment_eq_ok {position : Nat} {piece : List Char} {segment : Segment}
    (h : readSegment position piece = .ok segment) :
    segment.text.toList = piece ∧ segment ≠ .literal "" := by
  unfold readSegment at h
  dsimp only at h
  split at h
  · cases h
  · rename_i hne
    split at h
    · cases h
    · split at h
      · rename_i hhead
        split at h
        · rename_i hname
          cases h
          simp only [Bool.and_eq_true, decide_eq_true_eq] at hname
          have hbraced := braced_eq hhead hname.1
          exact ⟨by simpa [Segment.text] using hbraced, Segment.noConfusion⟩
        · cases h
      · split at h
        · cases h
        · cases h
          refine ⟨String.toList_ofList, fun hempty => ?_⟩
          have hnil : piece = [] := by simpa using hempty
          simp [hnil] at hne

/-- Pieces give the segment of the first one and those of the rest. A variable in front is new, and
is seen by the rest. -/
theorem readSegments_cons_eq_ok {position : Nat} {seen : List String} {piece : List Char}
    {rest : List (List Char)} {segments : List Segment}
    (h : readSegments position seen (piece :: rest) = .ok segments) :
    ∃ first others, readSegment position piece = .ok first ∧
      readSegments (position + 1) (Template.variables ⟨[first]⟩ ++ seen) rest = .ok others ∧
      segments = first :: others ∧ ∀ name ∈ Template.variables ⟨[first]⟩, name ∉ seen := by
  unfold readSegments at h
  cases hp : readSegment position piece with
  | error f => simp only [hp] at h; cases h
  | ok first =>
      rcases first with s | name
      · simp only [hp] at h
        cases hr : readSegments (position + 1) seen rest with
        | error f => rw [hr] at h; cases h
        | ok others =>
            rw [hr] at h
            cases h
            exact ⟨_, others, rfl, hr, rfl, fun _ hname => absurd hname List.not_mem_nil⟩
      · simp only [hp] at h
        split at h
        · cases h
        · rename_i hnew
          cases hr : readSegments (position + 1) (name :: seen) rest with
          | error f => rw [hr] at h; cases h
          | ok others =>
              rw [hr] at h
              cases h
              refine ⟨_, others, rfl, hr, rfl, ?_⟩
              intro other hother
              cases List.mem_singleton.mp hother
              simpa using hnew

/-- Segments have the texts of their pieces, and no piece is empty. -/
theorem readSegments_eq_ok {position : Nat} {seen : List String} {ps : List (List Char)}
    {segments : List Segment} (h : readSegments position seen ps = .ok segments) :
    segments.map (fun segment => segment.text.toList) = ps ∧ .literal "" ∉ segments := by
  induction ps generalizing position seen segments with
  | nil =>
      cases h
      exact ⟨rfl, List.not_mem_nil⟩
  | cons piece rest ih =>
      obtain ⟨first, others, hfirst, hrest, rfl, _⟩ := readSegments_cons_eq_ok h
      obtain ⟨htext, hne⟩ := readSegment_eq_ok hfirst
      obtain ⟨htexts, hothers⟩ := ih hrest
      refine ⟨by rw [List.map_cons, htext, htexts], fun hmem => ?_⟩
      rcases List.mem_cons.mp hmem with heq | hmem
      · exact hne heq.symm
      · exact hothers hmem

theorem variables_cons (first : Segment) (others : List Segment) :
    Template.variables ⟨first :: others⟩ =
      Template.variables ⟨[first]⟩ ++ Template.variables ⟨others⟩ := by
  cases first <;> rfl

/-- No variable occurs twice, and none was seen before. -/
theorem readSegments_variables {position : Nat} {seen : List String} {ps : List (List Char)}
    {segments : List Segment} (h : readSegments position seen ps = .ok segments) :
    (Template.variables ⟨segments⟩).Nodup ∧
      ∀ name ∈ Template.variables ⟨segments⟩, name ∉ seen := by
  induction ps generalizing position seen segments with
  | nil =>
      cases h
      exact ⟨List.nodup_nil, fun _ hname => absurd hname List.not_mem_nil⟩
  | cons piece rest ih =>
      obtain ⟨first, others, _, hrest, rfl, hnew⟩ := readSegments_cons_eq_ok h
      obtain ⟨hnodup, hunseen⟩ := ih hrest
      have hone : (Template.variables ⟨[first]⟩).Nodup := by
        rcases first with s | name
        · exact List.nodup_nil
        · simp [Template.variables]
      rw [variables_cons]
      constructor
      · apply List.nodup_append.mpr
        refine ⟨hone, hnodup, ?_⟩
        rintro name hfirst _ hothers rfl
        exact hunseen name hothers (List.mem_append_left _ hfirst)
      · intro name hname
        rcases List.mem_append.mp hname with hfirst | hothers
        · exact hnew name hfirst
        · intro hseen
          exact hunseen name hothers (List.mem_append_right _ hseen)

/-- What reading a template gives: the text comes back, and no segment is an empty literal. -/
theorem parse_eq_ok {s : String} {t : Template} (h : parse s = .ok t) :
    t.text = s ∧ .literal "" ∉ t.segments := by
  unfold parse at h
  split at h
  · rename_i rest hs
    have hlist : s = "/" ++ String.ofList rest := by
      apply String.toList_inj.mp
      simpa using hs
    split at h
    · rename_i hempty
      cases h
      rw [List.isEmpty_iff] at hempty
      exact ⟨by rw [hlist, hempty]; rfl, List.not_mem_nil⟩
    · cases hr : readSegments 0 [] (pieces '/' rest) with
      | error f => rw [hr] at h; cases h
      | ok segments =>
          rw [hr] at h
          cases h
          obtain ⟨htexts, hne⟩ := readSegments_eq_ok hr
          refine ⟨?_, hne⟩
          rw [text, htexts, joined_pieces, hlist]
  · cases h

/-- No variable of a template occurs twice. -/
theorem variables_nodup {s : String} {t : Template} (h : parse s = .ok t) :
    t.variables.Nodup := by
  unfold parse at h
  split at h
  · rename_i rest _
    split at h
    · cases h
      exact List.nodup_nil
    · cases hr : readSegments 0 [] (pieces '/' rest) with
      | error f => rw [hr] at h; cases h
      | ok segments =>
          rw [hr] at h
          cases h
          exact (readSegments_variables hr).1
  · cases h

end RestGateway.Template
