import Mathlib.Data.List.Forall2
import Mathlib.Data.List.Nodup
import RestGateway.Proofs.Template.Text

/-!
# Texts that spell templates

A template is spelled by a slash and, if more follows, by pieces between slashes. A piece is an
identifier in braces or a literal, and no piece in braces comes twice. These texts are read and no
others, and what is read spells the text again.
-/

namespace RestGateway.Template

/-- ASCII letters and the underscore. -/
def IsNameStart (c : Char) : Prop := ('A' ≤ c ∧ c ≤ 'Z') ∨ ('a' ≤ c ∧ c ≤ 'z') ∨ c = '_'

instance : DecidablePred IsNameStart := fun c =>
  inferInstanceAs (Decidable (('A' ≤ c ∧ c ≤ 'Z') ∨ ('a' ≤ c ∧ c ≤ 'z') ∨ c = '_'))

/-- Identifiers of ASCII. -/
inductive IsIdentifier : List Char → Prop
  | intro {c : Char} {rest : List Char} (first : IsNameStart c)
      (others : ∀ d ∈ rest, IsNameStart d ∨ '0' ≤ d ∧ d ≤ '9') : IsIdentifier (c :: rest)

/-- A name in braces. -/
def braced (name : List Char) : List Char := '{' :: (name ++ ['}'])

/-- Pieces that hold a variable. -/
def IsBraced (piece : List Char) : Prop := ∃ name, IsIdentifier name ∧ piece = braced name

/-- Pieces that stand for themselves. -/
structure IsLiteral (piece : List Char) : Prop where
  ne_nil : piece ≠ []
  plain : ∀ c ∈ piece, c ≠ '*' ∧ c ≠ '{' ∧ c ≠ '}'
  noColon : piece.head? ≠ some ':'

/-- What a piece spells. -/
inductive Spells : List Char → Segment → Prop
  | variable {name : List Char} (h : IsIdentifier name) :
      Spells (braced name) (.variable (String.ofList name))
  | literal {piece : List Char} (h : IsLiteral piece) :
      Spells piece (.literal (String.ofList piece))

/-- The pieces that start with a brace. -/
def inBraces (ps : List (List Char)) : List (List Char) :=
  ps.filter fun piece => piece.head? = some '{'

section Pieces

variable {piece : List Char} {segment : Segment} {position : Nat}

theorem isNameStart_iff {c : Char} : (c.isAlpha || c == '_') = true ↔ IsNameStart c := by
  have halpha : c.isAlpha = (c.isUpper || c.isLower) := rfl
  have hupper : c.isUpper = true ↔ 'A' ≤ c ∧ c ≤ 'Z' := decide_eq_true_iff
  have hlower : c.isLower = true ↔ 'a' ≤ c ∧ c ≤ 'z' :=
    Bool.and_eq_true_iff.trans (and_congr decide_eq_true_iff decide_eq_true_iff)
  rw [halpha, Bool.or_eq_true, Bool.or_eq_true, hupper, hlower, beq_iff_eq, or_assoc, IsNameStart]

theorem isNamePart_iff {c : Char} :
    (c.isAlphanum || c == '_') = true ↔ IsNameStart c ∨ '0' ≤ c ∧ c ≤ '9' := by
  rw [← isNameStart_iff]
  simp [Char.isAlphanum, Char.isDigit, Char.le_def, or_right_comm]

theorem isName_iff_isIdentifier {name : List Char} : isName name = true ↔ IsIdentifier name := by
  cases name with
  | nil => exact iff_of_false Bool.false_ne_true nofun
  | cons c rest =>
      rw [isName, Bool.and_eq_true, isNameStart_iff, List.all_eq_true]
      simp only [isNamePart_iff]
      exact ⟨fun ⟨first, others⟩ => ⟨first, others⟩, fun ⟨first, others⟩ => ⟨first, others⟩⟩

theorem IsIdentifier.star_not_mem {name : List Char} (h : IsIdentifier name) : '*' ∉ name := by
  obtain ⟨first, others⟩ := h
  intro hstar
  rcases List.mem_cons.mp hstar with rfl | hstar
  · exact absurd first (by decide)
  · exact absurd (others _ hstar) (by decide)

theorem readSegment_braced {name : List Char} (h : IsIdentifier name) :
    readSegment position (braced name) = .ok (.variable (String.ofList name)) := by
  have hempty : (braced name).isEmpty = false := rfl
  have hhead : (braced name).head? = some '{' := rfl
  have hlast : (braced name).getLast? = some '}' := by
    rw [braced, ← List.cons_append, List.getLast?_concat]
  have hstar : '*' ∉ braced name := by
    simp [braced, h.star_not_mem]
  have hinner : (braced name).tail.dropLast = name := by simp [braced]
  simp [readSegment, hempty, hhead, hlast, hstar, hinner, isName_iff_isIdentifier.mpr h]

theorem readSegment_literal (h : IsLiteral piece) :
    readSegment position piece = .ok (.literal (String.ofList piece)) := by
  have hstar : '*' ∉ piece := fun hmem => (h.plain _ hmem).1 rfl
  have hopen : '{' ∉ piece := fun hmem => (h.plain _ hmem).2.1 rfl
  have hclose : '}' ∉ piece := fun hmem => (h.plain _ hmem).2.2 rfl
  have hhead : piece.head? ≠ some '{' := fun hmem => hopen (List.mem_of_head? hmem)
  simp [readSegment, h.ne_nil, hstar, hopen, hclose, hhead, h.noColon]

/-- A piece that passes the checks on literals is one. -/
theorem isLiteral_of_checks (hempty : ¬ piece.isEmpty = true) (hstar : ¬ piece.contains '*' = true)
    (hplain : ¬ (piece.contains '{' || piece.contains '}' || piece.head? = some ':') = true) :
    IsLiteral piece := by
  simp only [Bool.or_eq_true, List.contains_iff_mem, decide_eq_true_eq, not_or] at hplain
  obtain ⟨⟨hopen, hclose⟩, hcolon⟩ := hplain
  refine ⟨by simpa using hempty, fun c hc => ⟨?_, ?_, ?_⟩, hcolon⟩
  · rintro rfl
    exact hstar (List.contains_iff_mem.mpr hc)
  · rintro rfl
    exact hopen hc
  · rintro rfl
    exact hclose hc

/-- A piece is read as what it spells. -/
theorem readSegment_eq_ok_iff :
    readSegment position piece = .ok segment ↔ Spells piece segment := by
  constructor
  · intro h
    unfold readSegment at h
    dsimp only at h
    split at h
    case isTrue => cases h
    case isFalse hempty =>
      split at h
      case isTrue => cases h
      case isFalse hstar =>
        split at h
        case isTrue hhead =>
          split at h
          case isFalse => cases h
          case isTrue hname =>
            cases h
            obtain ⟨hlast, hname⟩ := Bool.and_eq_true_iff.mp hname
            have hpiece : braced piece.tail.dropLast = piece :=
              braced_eq hhead (of_decide_eq_true hlast)
            conv => lhs; rw [← hpiece]
            exact .variable (isName_iff_isIdentifier.mp hname)
        case isFalse =>
          split at h
          case isTrue => cases h
          case isFalse hplain =>
            cases h
            exact .literal (isLiteral_of_checks hempty hstar hplain)
  · rintro (hname | hliteral)
    · exact readSegment_braced hname
    · exact readSegment_literal hliteral

/-- There are two kinds of pieces. -/
theorem exists_spells_iff :
    (∃ segment, Spells piece segment) ↔ IsBraced piece ∨ IsLiteral piece := by
  constructor
  · rintro ⟨_, hname | hliteral⟩
    · exact Or.inl ⟨_, hname, rfl⟩
    · exact Or.inr hliteral
  · rintro (⟨name, hname, rfl⟩ | hliteral)
    · exact ⟨_, .variable hname⟩
    · exact ⟨_, .literal hliteral⟩

end Pieces

section Segments

variable {ps : List (List Char)} {segments : List Segment} {position : Nat} {seen : List String}

/-- Pieces are read as what they spell, unless a variable comes again. -/
theorem readSegments_eq_ok_iff :
    readSegments position seen ps = .ok segments ↔
      List.Forall₂ Spells ps segments ∧ (Template.variables ⟨segments⟩).Nodup ∧
        ∀ name ∈ Template.variables ⟨segments⟩, name ∉ seen := by
  constructor
  · intro h
    refine ⟨?_, readSegments_variables h⟩
    induction ps generalizing position seen segments with
    | nil =>
        cases h
        exact .nil
    | cons piece rest ih =>
        obtain ⟨first, others, hfirst, hrest, rfl, _⟩ := readSegments_cons_eq_ok h
        exact .cons (readSegment_eq_ok_iff.mp hfirst) (ih hrest)
  · rintro ⟨hspells, hnodup, hunseen⟩
    induction hspells generalizing position seen with
    | nil => rfl
    | @cons piece first rest others hfirst _ ih =>
        have hread : readSegment position piece = .ok first := readSegment_eq_ok_iff.mpr hfirst
        rw [variables_cons] at hnodup hunseen
        obtain ⟨_, hothers, hdisjoint⟩ := List.nodup_append.mp hnodup
        rcases first with s | name
        · have hrest : readSegments (position + 1) seen rest = .ok others :=
            ih hothers fun name hname => hunseen name (List.mem_append_right _ hname)
          rw [readSegments, hread]
          simp [hrest, Except.map]
        · have hnew : name ∉ seen := hunseen name List.mem_cons_self
          have hrest : readSegments (position + 1) (name :: seen) rest = .ok others := by
            refine ih hothers fun other hother hseen => ?_
            rcases List.mem_cons.mp hseen with rfl | hseen
            · exact hdisjoint other List.mem_cons_self other hother rfl
            · exact hunseen other (List.mem_append_right _ hother) hseen
          rw [readSegments, hread]
          simp [hrest, hnew, Except.map]

/-- Pieces spell segments if each of them does. -/
theorem exists_segments_iff :
    (∃ segments, List.Forall₂ Spells ps segments) ↔
      ∀ piece ∈ ps, IsBraced piece ∨ IsLiteral piece := by
  induction ps with
  | nil => exact iff_of_true ⟨[], .nil⟩ fun _ hpiece => absurd hpiece List.not_mem_nil
  | cons piece rest ih =>
      rw [List.forall_mem_cons, ← ih, ← exists_spells_iff]
      constructor
      · rintro ⟨_, h⟩
        obtain ⟨_, _, hfirst, hrest, _⟩ := List.forall₂_cons_left_iff.mp h
        exact ⟨⟨_, hfirst⟩, _, hrest⟩
      · rintro ⟨⟨segment, hfirst⟩, segments, hrest⟩
        exact ⟨segment :: segments, .cons hfirst hrest⟩

theorem braced_injective : Function.Injective fun name : String => braced name.toList := by
  intro name name' h
  have hinner := List.append_cancel_right (List.cons.inj h).2
  exact String.toList_injective hinner

/-- The pieces in braces spell the variables, in order. -/
theorem inBraces_eq (h : List.Forall₂ Spells ps segments) :
    inBraces ps = (Template.variables ⟨segments⟩).map fun name => braced name.toList := by
  induction h with
  | nil => rfl
  | @cons piece segment rest others hfirst _ ih =>
      rw [variables_cons, List.map_append, ← ih]
      rcases hfirst with (@⟨name, hname⟩ | hliteral)
      · simp [inBraces, Template.variables, braced]
      · have hhead : piece.head? ≠ some '{' :=
          fun hmem => (hliteral.plain _ (List.mem_of_head? hmem)).2.1 rfl
        simp [inBraces, Template.variables, hhead]

end Segments

/-- No piece is empty. -/
theorem not_spells_nil {segment : Segment} : ¬ Spells [] segment := by
  intro h
  rcases exists_spells_iff.mp ⟨segment, h⟩ with ⟨name, _, hname⟩ | hliteral
  · cases hname
  · exact hliteral.ne_nil rfl

/-- A text is read as what its pieces spell. -/
theorem parse_eq_ok_iff {s : String} {t : Template} :
    parse s = .ok t ↔ ∃ rest, s.toList = '/' :: rest ∧
      (rest = [] ∧ t.segments = [] ∨
        List.Forall₂ Spells (rest.splitOn '/') t.segments ∧ t.variables.Nodup) := by
  constructor
  · intro h
    unfold parse at h
    split at h
    · rename_i rest hs
      refine ⟨rest, hs, ?_⟩
      split at h
      · rename_i hempty
        cases h
        exact Or.inl ⟨List.isEmpty_iff.mp hempty, rfl⟩
      · cases hr : readSegments 0 [] (pieces '/' rest) with
        | error f =>
            rw [hr] at h
            cases h
        | ok segments =>
            rw [hr] at h
            cases h
            obtain ⟨hspells, hnodup, _⟩ := readSegments_eq_ok_iff.mp hr
            rw [pieces_eq_splitOn] at hspells
            exact Or.inr ⟨hspells, hnodup⟩
    · cases h
  · obtain ⟨segments⟩ := t
    rintro ⟨rest, hs, ⟨rfl, hsegments⟩ | ⟨hspells, hnodup⟩⟩
    · obtain rfl : segments = [] := hsegments
      simp [parse, hs]
    · have hne : rest ≠ [] := by
        rintro rfl
        obtain ⟨_, _, hfirst, _⟩ := List.forall₂_cons_left_iff.mp hspells
        exact not_spells_nil hfirst
      have hread : readSegments 0 [] (pieces '/' rest) = .ok segments := by
        rw [readSegments_eq_ok_iff, pieces_eq_splitOn]
        exact ⟨hspells, hnodup, fun _ _ => List.not_mem_nil⟩
      simp [parse, hs, hne, hread, Except.map]

/-- The pieces of a text that is read spell its segments; a slash alone has one piece, which spells
nothing. -/
theorem inBraces_of_parse {s : String} {t : Template} (h : parse s = .ok t) :
    inBraces (s.toList.tail.splitOn '/') = t.variables.map fun name => braced name.toList := by
  obtain ⟨rest, hs, ⟨rfl, ht⟩ | ⟨hspells, _⟩⟩ := parse_eq_ok_iff.mp h
  · rw [hs, Template.variables, ht]
    rfl
  · rw [hs]
    exact inBraces_eq hspells

/-- A text is read exactly if it starts with a slash and what follows is empty or is cut by slashes
into pieces that hold a variable or stand for themselves, with no variable twice. What is read has
the text that it was read from, and the variables of the text in their order, each once. So texts
with the same segments are the same. -/
theorem parse_accepts (s : String) :
    ((∃ t, parse s = .ok t) ↔ ∃ rest, s.toList = '/' :: rest ∧
      (rest = [] ∨ (∀ piece ∈ rest.splitOn '/', IsBraced piece ∨ IsLiteral piece) ∧
        (inBraces (rest.splitOn '/')).Nodup)) ∧
    ∀ t, parse s = .ok t →
      t.text = s ∧
      (t.variables.map fun name => braced name.toList) = inBraces (s.toList.tail.splitOn '/') ∧
      t.variables.Nodup ∧
      ∀ s' t', parse s' = .ok t' → t'.segments = t.segments → s' = s := by
  constructor
  · constructor
    · rintro ⟨t, h⟩
      obtain ⟨rest, hs, ⟨hempty, _⟩ | ⟨hspells, hnodup⟩⟩ := parse_eq_ok_iff.mp h
      · exact ⟨rest, hs, Or.inl hempty⟩
      · refine ⟨rest, hs, Or.inr ⟨exists_segments_iff.mp ⟨_, hspells⟩, ?_⟩⟩
        rw [inBraces_eq hspells]
        exact (List.nodup_map_iff braced_injective).mpr hnodup
    · rintro ⟨rest, hs, rfl | ⟨hpieces, hnodup⟩⟩
      · exact ⟨⟨[]⟩, parse_eq_ok_iff.mpr ⟨[], hs, Or.inl ⟨rfl, rfl⟩⟩⟩
      · obtain ⟨segments, hspells⟩ := exists_segments_iff.mpr hpieces
        rw [inBraces_eq hspells, List.nodup_map_iff braced_injective] at hnodup
        exact ⟨⟨segments⟩, parse_eq_ok_iff.mpr ⟨rest, hs, Or.inr ⟨hspells, hnodup⟩⟩⟩
  · intro t h
    refine ⟨(parse_eq_ok h).1, (inBraces_of_parse h).symm, variables_nodup h, ?_⟩
    intro s' t' h' hsegments
    obtain rfl : t' = t := congrArg Template.mk hsegments
    rw [← (parse_eq_ok h).1, ← (parse_eq_ok h').1]

/-- A colon behind the first letter of a literal is no variable of the old kind, and a name may
start with an underscore. -/
theorem parse_colon_inside :
    let s := "/v1/\x7bid\x7d/a:b/\x7b_n1\x7d"
    let t : Template := ⟨[.literal "v1", .variable "id", .literal "a:b", .variable "_n1"]⟩
    parse s = .ok t ∧ t.text = s ∧
      inBraces (s.toList.tail.splitOn '/') = [braced ['i', 'd'], braced ['_', 'n', '1']] ∧
      ∀ piece ∈ s.toList.tail.splitOn '/', IsBraced piece ∨ IsLiteral piece := by
  intro s t
  have h : parse s = .ok t := by decide +kernel
  obtain ⟨haccepts, hread⟩ := parse_accepts s
  obtain ⟨htext, hvariables, _⟩ := hread t h
  refine ⟨h, htext, hvariables.symm, ?_⟩
  obtain ⟨rest, hs, hempty | ⟨hpieces, _⟩⟩ := haccepts.mp ⟨t, h⟩
  · rw [hempty] at hs
    exact absurd hs (by decide)
  · rw [hs]
    exact hpieces

end RestGateway.Template
