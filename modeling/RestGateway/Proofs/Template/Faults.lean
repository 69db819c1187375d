import Mathlib.Data.List.Induction
import RestGateway.Proofs.Template.Grammar

/-!
# The first fault of a text

A text is read piece by piece, and the leftmost piece that is refused decides the fault: one that is
empty, that holds a star, that is neither a variable nor a literal, or that holds a variable of an
earlier piece. What follows this piece is never looked at.
-/

namespace RestGateway.Template

/-- Why a piece is refused behind others, first things first. An empty piece is reported by its
place, counted from zero, a variable that comes again by its name, and all others as they are. -/
inductive Refused (before : List (List Char)) : List Char → Fault → Prop
  | empty : Refused before [] (.emptySegment before.length)
  | wildcard {piece : List Char} (hstar : '*' ∈ piece) :
      Refused before piece (.wildcard (String.ofList piece))
  | invalid {piece : List Char} (hne : piece ≠ []) (hstar : '*' ∉ piece)
      (hbraced : ¬ IsBraced piece) (hliteral : ¬ IsLiteral piece) :
      Refused before piece (.invalidVariable (String.ofList piece))
  | duplicate {name : List Char} (hname : IsIdentifier name) (hbefore : braced name ∈ before) :
      Refused before (braced name) (.duplicateVariable (String.ofList name))

/-- No piece is refused behind those in front of it. -/
def Clear (ps : List (List Char)) : Prop :=
  ∀ front piece back, ps = front ++ piece :: back → ∀ f, ¬ Refused front piece f

section Pieces

variable {position : Nat} {piece : List Char} {f : Fault}

theorem readSegment_nil : readSegment position [] = .error (.emptySegment position) := rfl

theorem readSegment_of_star (hstar : '*' ∈ piece) :
    readSegment position piece = .error (.wildcard (String.ofList piece)) := by
  have hne : piece ≠ [] := List.ne_nil_of_mem hstar
  simp [readSegment, hne, hstar]

/-- What spells nothing, though it is not empty and holds no star, is reported as it is. -/
theorem readSegment_of_not_spells (hne : piece ≠ []) (hstar : '*' ∉ piece)
    (h : ∀ segment, ¬ Spells piece segment) :
    readSegment position piece = .error (.invalidVariable (String.ofList piece)) := by
  cases hread : readSegment position piece with
  | ok segment => exact absurd (readSegment_eq_ok_iff.mp hread) (h segment)
  | error f =>
      simp only [readSegment, List.isEmpty_iff, hne, List.contains_iff_mem, hstar,
        if_false] at hread
      split at hread
      · split at hread
        · cases hread
        · exact hread.symm
      · split at hread
        · exact hread.symm
        · cases hread

end Pieces

section Segments

variable {before ps after : List (List Char)} {piece : List Char} {segments : List Segment}
  {position : Nat} {seen : List String} {f : Fault}

/-- A segment with a variable that is new is put in front of what follows. -/
theorem readSegments_cons_of_new {first : Segment} (hfirst : readSegment position piece = .ok first)
    (hnew : ∀ name ∈ Template.variables ⟨[first]⟩, name ∉ seen) (ps : List (List Char)) :
    readSegments position seen (piece :: ps) =
      (readSegments (position + 1) (Template.variables ⟨[first]⟩ ++ seen) ps).map
        (first :: ·) := by
  rw [readSegments, hfirst]
  rcases first with s | name
  · rfl
  · have hname : name ∉ seen := hnew name List.mem_cons_self
    simp only [List.contains_iff_mem, hname, if_false]
    rfl

/-- Pieces are read behind others as if the variables of these had been seen before. -/
theorem exists_readSegments_append (h : readSegments position seen before = .ok segments) :
    ∃ seen', (∀ name, name ∈ seen' ↔ name ∈ Template.variables ⟨segments⟩ ∨ name ∈ seen) ∧
      ∀ ps, readSegments position seen (before ++ ps) =
        (readSegments (position + before.length) seen' ps).map (segments ++ ·) := by
  induction before generalizing position seen segments with
  | nil =>
      cases h
      refine ⟨seen, fun name => by simp [Template.variables], fun ps => ?_⟩
      cases hps : readSegments position seen ps <;> simp [hps, Except.map]
  | cons piece rest ih =>
      obtain ⟨first, others, hfirst, hrest, rfl, hnew⟩ := readSegments_cons_eq_ok h
      obtain ⟨seen', hseen, happend⟩ := ih hrest
      refine ⟨seen', fun name => ?_, fun ps => ?_⟩
      · rw [hseen, variables_cons first others, List.mem_append, List.mem_append]
        tauto
      · have hplace : position + 1 + rest.length = position + (piece :: rest).length := by
          rw [List.length_cons]
          omega
        rw [List.cons_append, readSegments_cons_of_new hfirst hnew, happend, hplace]
        cases readSegments (position + (piece :: rest).length) seen' ps <;> rfl

/-- A variable of the segments is a piece in braces. -/
theorem mem_variables_iff (h : List.Forall₂ Spells before segments) {name : String} :
    name ∈ Template.variables ⟨segments⟩ ↔ braced name.toList ∈ before := by
  have hbraced : braced name.toList ∈ inBraces before ↔ braced name.toList ∈ before := by
    rw [inBraces, List.mem_filter]
    exact and_iff_left (decide_eq_true rfl)
  rw [← hbraced, inBraces_eq h]
  exact (List.mem_map_of_injective braced_injective).symm

/-- A piece that is refused behind pieces that are read decides the fault. -/
theorem readSegments_of_refused (h : readSegments 0 [] before = .ok segments)
    (hpiece : Refused before piece f) (after : List (List Char)) :
    readSegments 0 [] (before ++ piece :: after) = .error f := by
  obtain ⟨seen, hseen, happend⟩ := exists_readSegments_append h
  have hspells := (readSegments_eq_ok_iff.mp h).1
  rw [happend, readSegments]
  cases hpiece with
  | empty => simp only [readSegment_nil, Nat.zero_add]; rfl
  | wildcard hstar => simp only [readSegment_of_star hstar]; rfl
  | invalid hne hstar hbraced hliteral =>
      have hnone : ∀ segment, ¬ Spells piece segment := fun segment hsegment =>
        (exists_spells_iff.mp ⟨segment, hsegment⟩).elim hbraced hliteral
      simp only [readSegment_of_not_spells hne hstar hnone]
      rfl
  | @duplicate name hname hbefore =>
      have hmem : String.ofList name ∈ seen := by
        rw [hseen, mem_variables_iff hspells, String.toList_ofList]
        exact Or.inl hbefore
      simp only [readSegment_braced hname, List.contains_iff_mem, hmem, if_true]
      rfl

/-- A piece with no variable of the pieces in front of it is read behind them. -/
theorem readSegments_concat (h : readSegments 0 [] before = .ok segments) {last : Segment}
    (hpiece : Spells piece last)
    (hnew : ∀ name ∈ Template.variables ⟨[last]⟩, braced name.toList ∉ before) :
    readSegments 0 [] (before ++ [piece]) = .ok (segments ++ [last]) := by
  obtain ⟨seen, hseen, happend⟩ := exists_readSegments_append h
  have hspells := (readSegments_eq_ok_iff.mp h).1
  have hunseen : ∀ name ∈ Template.variables ⟨[last]⟩, name ∉ seen := by
    intro name hname hmem
    rw [hseen, mem_variables_iff hspells] at hmem
    exact hmem.elim (hnew name hname) List.not_mem_nil
  rw [happend, readSegments_cons_of_new (readSegment_eq_ok_iff.mpr hpiece) hunseen]
  rfl

/-- A piece is refused behind others, or spells a segment with no variable of theirs. -/
theorem exists_refused_or_spells (before : List (List Char)) (piece : List Char) :
    (∃ f, Refused before piece f) ∨ ∃ segment, Spells piece segment ∧
      ∀ name ∈ Template.variables ⟨[segment]⟩, braced name.toList ∉ before := by
  by_cases hne : piece = []
  · subst hne
    exact Or.inl ⟨_, .empty⟩
  by_cases hstar : '*' ∈ piece
  · exact Or.inl ⟨_, .wildcard hstar⟩
  by_cases hspells : ∃ segment, Spells piece segment
  · obtain ⟨_, hname | hliteral⟩ := hspells
    · rename_i name
      by_cases hbefore : braced name ∈ before
      · exact Or.inl ⟨_, .duplicate hname hbefore⟩
      · refine Or.inr ⟨_, .variable hname, fun other hother => ?_⟩
        rw [List.mem_singleton.mp hother, String.toList_ofList]
        exact hbefore
    · exact Or.inr ⟨_, .literal hliteral, fun _ hname => absurd hname List.not_mem_nil⟩
  · have hneither := mt exists_spells_iff.mpr hspells
    rw [not_or] at hneither
    exact Or.inl ⟨_, .invalid hne hstar hneither.1 hneither.2⟩

/-- Reading fails at a piece that is refused behind pieces that are read. -/
theorem exists_refused_of_readSegments (h : readSegments 0 [] ps = .error f) :
    ∃ before piece after segments, ps = before ++ piece :: after ∧
      readSegments 0 [] before = .ok segments ∧ Refused before piece f := by
  induction ps using List.reverseRecOn generalizing f with
  | nil => cases h
  | append_singleton ps last ih =>
      cases hread : readSegments 0 [] ps with
      | error g =>
          obtain ⟨before, piece, after, segments, rfl, hbefore, hpiece⟩ := ih hread
          have hfault := readSegments_of_refused hbefore hpiece (after ++ [last])
          rw [List.append_assoc, List.cons_append, hfault] at h
          cases h
          exact ⟨before, piece, after ++ [last], segments, by simp, hbefore, hpiece⟩
      | ok segments =>
          rcases exists_refused_or_spells ps last with ⟨g, hlast⟩ | ⟨segment, hsegment, hnew⟩
          · rw [readSegments_of_refused hread hlast []] at h
            cases h
            exact ⟨ps, last, [], segments, rfl, hread, hlast⟩
          · rw [readSegments_concat hread hsegment hnew] at h
            cases h

/-- Pieces are read exactly if none of them is refused. -/
theorem clear_iff : Clear ps ↔ ∃ segments, readSegments 0 [] ps = .ok segments := by
  constructor
  · intro hclear
    cases hread : readSegments 0 [] ps with
    | ok segments => exact ⟨segments, rfl⟩
    | error f =>
        obtain ⟨before, piece, after, _, hps, _, hpiece⟩ := exists_refused_of_readSegments hread
        exact absurd hpiece (hclear before piece after hps f)
  · rintro ⟨segments, hread⟩ front piece back rfl f hpiece
    cases hfront : readSegments 0 [] front with
    | ok _ =>
        rw [readSegments_of_refused hfront hpiece] at hread
        cases hread
    | error g =>
        obtain ⟨before, first, after, _, rfl, hbefore, hfirst⟩ :=
          exists_refused_of_readSegments hfront
        rw [List.append_assoc, List.cons_append, readSegments_of_refused hbefore hfirst] at hread
        cases hread

/-- The leftmost piece that is refused decides the fault. -/
theorem readSegments_eq_error_iff :
    readSegments 0 [] ps = .error f ↔
      ∃ before piece after, ps = before ++ piece :: after ∧ Clear before ∧
        Refused before piece f := by
  constructor
  · intro h
    obtain ⟨before, piece, after, segments, hps, hbefore, hpiece⟩ :=
      exists_refused_of_readSegments h
    exact ⟨before, piece, after, hps, clear_iff.mpr ⟨segments, hbefore⟩, hpiece⟩
  · rintro ⟨before, piece, after, rfl, hclear, hpiece⟩
    obtain ⟨_, hbefore⟩ := clear_iff.mp hclear
    exact readSegments_of_refused hbefore hpiece after

end Segments

section Texts

variable {before after : List (List Char)} {piece : List Char} {f : Fault}

/-- What is joined up to a piece is in front of what follows it. -/
theorem joined_append_cons (before after : List (List Char)) (piece : List Char) :
    joined '/' (before ++ piece :: after) =
      joined '/' (before ++ [piece]) ++ after.flatMap ('/' :: ·) := by
  cases before with
  | nil => simp [joined_cons]
  | cons first rest => simp [joined_cons]

/-- Behind a piece a text may go on with any other pieces. -/
theorem splitOn_joined_append (h : ∀ p ∈ before ++ [piece], '/' ∉ p) (t : List Char) :
    (joined '/' (before ++ [piece]) ++ '/' :: t).splitOn '/' =
      before ++ piece :: t.splitOn '/' := by
  rw [← pieces_eq_splitOn, pieces_append, pieces_joined (by simp) h, pieces_eq_splitOn,
    List.append_assoc, List.singleton_append]

/-- A text that starts with a slash is refused for its leftmost piece that is. -/
theorem parse_cons_eq_error_iff {rest : List Char} :
    parse (String.ofList ('/' :: rest)) = .error f ↔ rest ≠ [] ∧
      ∃ before piece after, rest.splitOn '/' = before ++ piece :: after ∧ Clear before ∧
        Refused before piece f := by
  rw [← pieces_eq_splitOn, ← readSegments_eq_error_iff]
  by_cases hne : rest = []
  · simp [parse, hne]
  · have hparse : parse (String.ofList ('/' :: rest)) =
        (readSegments 0 [] (pieces '/' rest)).map Template.mk := by simp [parse, hne]
    rw [hparse, and_iff_right hne]
    cases readSegments 0 [] (pieces '/' rest) <;> simp [Except.map]

/-- A text that starts with a slash is refused exactly if it is more than this slash and one of the
pieces behind it is refused. The leftmost such piece decides the fault, and whatever the text goes
on with behind this piece, the fault stays the same. -/
theorem parse_first_fault {s : String} (hslash : s.toList.head? = some '/') (f : Fault) :
    (parse s = .error f ↔ s ≠ "/" ∧ ∃ before piece after,
      s.toList.tail.splitOn '/' = before ++ piece :: after ∧ Clear before ∧
        Refused before piece f) ∧
    ∀ before piece after, s.toList.tail.splitOn '/' = before ++ piece :: after → Clear before →
      Refused before piece f →
        s.toList = '/' :: (joined '/' (before ++ [piece]) ++ after.flatMap ('/' :: ·)) ∧
        ∀ t : List Char,
          parse (String.ofList ('/' :: (joined '/' (before ++ [piece]) ++ '/' :: t))) =
            .error f := by
  obtain ⟨rest, hs⟩ := List.head?_eq_some_iff.mp hslash
  have hlist : s = String.ofList ('/' :: rest) := by rw [← hs, String.ofList_toList]
  have hne : s ≠ "/" ↔ rest ≠ [] := by
    rw [hlist, ne_eq, ne_eq, ← String.toList_inj]
    simp
  rw [hs, List.tail_cons]
  constructor
  · rw [hne, ← parse_cons_eq_error_iff, ← hlist]
  · intro before piece after hsplit hclear hpiece
    have hmem : ∀ p ∈ before ++ [piece], '/' ∉ p := by
      intro p hp
      apply not_mem_of_mem_pieces
      rw [pieces_eq_splitOn, hsplit, List.append_cons]
      exact List.mem_append_left _ hp
    refine ⟨?_, fun t => ?_⟩
    · rw [← joined_append_cons, ← hsplit, ← pieces_eq_splitOn, joined_pieces]
    · exact parse_cons_eq_error_iff.mpr
        ⟨by simp, before, piece, _, splitOn_joined_append hmem t, hclear, hpiece⟩

/-- The variable that comes again is reported, and not the star and the empty piece behind it. -/
theorem parse_repeating_first :
    let s := "/v1/{id}/a/{id}/*//x"
    let before := [['v', '1'], braced ['i', 'd'], ['a']]
    s.toList.head? = some '/' ∧
    s.toList.tail.splitOn '/' = before ++ braced ['i', 'd'] :: [['*'], [], ['x']] ∧
    Clear before ∧ Refused before (braced ['i', 'd']) (.duplicateVariable "id") ∧
    parse s = .error (.duplicateVariable "id") ∧
    ∀ t : List Char,
      parse (String.ofList ('/' :: (joined '/' (before ++ [braced ['i', 'd']]) ++ '/' :: t))) =
        .error (.duplicateVariable "id") := by
  intro s before
  have hslash : s.toList.head? = some '/' := by decide +kernel
  have hsplit : s.toList.tail.splitOn '/' = before ++ braced ['i', 'd'] :: [['*'], [], ['x']] := by
    decide +kernel
  have hclear : Clear before := clear_iff.mpr
    ⟨[.literal "v1", .variable "id", .literal "a"], by decide +kernel⟩
  have hpiece : Refused before (braced ['i', 'd']) (.duplicateVariable "id") :=
    .duplicate (isName_iff_isIdentifier.mp (by decide)) (by decide)
  obtain ⟨hfault, hsame⟩ := parse_first_fault hslash (.duplicateVariable "id")
  exact ⟨hslash, hsplit, hclear, hpiece,
    hfault.mpr ⟨by decide +kernel, before, _, _, hsplit, hclear, hpiece⟩,
    (hsame before _ _ hsplit hclear hpiece).2⟩

end Texts

end RestGateway.Template
