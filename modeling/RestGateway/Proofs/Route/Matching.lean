import Mathlib.Data.List.Forall2
import Mathlib.Data.List.Nodup
import RestGateway.Proofs.Text.Pieces
import RestGateway.Proofs.Text.Utf8
import RestGateway.Route.Router

/-!
# Templates that match a path, and the one that comes first

A template matches a path if its segments match the pieces between slashes, one each. Of two
templates that match the same path, the one comes first that has a literal where they differ for the
first time. The search of a router, which takes back choices that lead nowhere, finds a template
exactly if one matches, and none that matches comes before it.
-/

namespace RestGateway

namespace Segment

/-- A segment matches a piece of a path: a literal the bytes that it spells, a variable whatever is
not empty. -/
def Matches : Segment → Bytes → Prop
  | .literal s, piece => Utf8.encode s = piece
  | .variable _, piece => piece ≠ []

/-- Where the two lists differ for the first time, the first one has a literal and the other one a
variable. Names of variables do not count as a difference. -/
inductive Precede : List Segment → List Segment → Prop
  | here (s name : String) (left left' : List Segment) :
      Precede (.literal s :: left) (.variable name :: left')
  | behindLiteral (s : String) {left left' : List Segment} (h : Precede left left') :
      Precede (.literal s :: left) (.literal s :: left')
  | behindVariable (name name' : String) {left left' : List Segment} (h : Precede left left') :
      Precede (.variable name :: left) (.variable name' :: left')

theorem Precede.asymm {left left' : List Segment} (h : Precede left left') :
    ¬ Precede left' left := by
  induction h with
  | here => rintro ⟨⟩
  | behindLiteral _ _ ih =>
      rintro (_ | ⟨_, h⟩)
      exact ih h
  | behindVariable _ _ _ ih =>
      rintro (_ | _ | ⟨_, _, h⟩)
      exact ih h

end Segment

namespace Template

/-- The pieces of a path, which the segments of a template match, one each. -/
structure Cuts (T : Template) (path : Bytes) (ps : List Bytes) : Prop where
  path_eq : path = 0x2F :: joined 0x2F ps
  uncut : ∀ piece ∈ ps, 0x2F ∉ piece
  pieces : List.Forall₂ Segment.Matches T.segments ps

/-- A template matches a path. -/
def Matches (T : Template) (path : Bytes) : Prop := ∃ ps, T.Cuts path ps

/-- Templates that match the same pieces have the same shape, or one of them comes first. -/
theorem shape_eq_or_precede {left left' : List Segment} {ps : List Bytes}
    (h : List.Forall₂ Segment.Matches left ps) (h' : List.Forall₂ Segment.Matches left' ps) :
    Template.shape ⟨left⟩ = Template.shape ⟨left'⟩ ∨
      Segment.Precede left left' ∨ Segment.Precede left' left := by
  induction h generalizing left' with
  | nil =>
      cases h'
      exact Or.inl rfl
  | @cons segment piece left rest hs _ ih =>
      obtain _ | ⟨hs', hrest'⟩ := h'
      rename_i segment' left'
      rcases segment with s | name <;> rcases segment' with s' | name'
      · obtain rfl : s = s' := Utf8.encode_injective (hs.trans hs'.symm)
        rcases ih hrest' with heq | hp | hp
        · exact Or.inl (congrArg (some s :: ·) heq)
        · exact Or.inr (Or.inl (hp.behindLiteral s))
        · exact Or.inr (Or.inr (hp.behindLiteral s))
      · exact Or.inr (Or.inl (.here s name' left left'))
      · exact Or.inr (Or.inr (.here s' name left' left))
      · rcases ih hrest' with heq | hp | hp
        · exact Or.inl (congrArg (none :: ·) heq)
        · exact Or.inr (Or.inl (hp.behindVariable name name'))
        · exact Or.inr (Or.inr (hp.behindVariable name' name))

/-- A template without empty literals cuts a path as the router does. -/
theorem cuts_iff {T : Template} (hT : .literal "" ∉ T.segments) {path : Bytes}
    {ps : List Bytes} :
    T.Cuts path ps ↔
      Router.segments? path = some ps ∧ List.Forall₂ Segment.Matches T.segments ps := by
  constructor
  · rintro ⟨rfl, huncut, hps⟩
    refine ⟨?_, hps⟩
    cases ps with
    | nil => rfl
    | cons piece rest =>
        have hjoined : joined 0x2F (piece :: rest) ≠ [] := by
          intro hnil
          -- Only the one empty piece joins to nothing, and no segment matches it.
          have hone := pieces_joined (List.cons_ne_nil _ _) huncut
          rw [hnil, pieces_nil] at hone
          cases hone
          obtain ⟨segment, _, hs, _, hsegments⟩ := List.forall₂_cons_right_iff.mp hps
          rcases segment with s | name
          · have hempty : s = "" := Utf8.encode_injective hs
            exact hT (by simp [hsegments, hempty])
          · exact hs rfl
        simp [Router.segments?, hjoined, pieces_joined (List.cons_ne_nil _ _) huncut]
  · rintro ⟨hps, hmatch⟩
    rcases path with _ | ⟨b, rest⟩
    · cases hps
    · dsimp only [Router.segments?] at hps
      split at hps
      · cases hps
      · rename_i hb
        obtain rfl : b = 0x2F := by simpa using hb
        split at hps
        · rename_i hempty
          cases hps
          rw [List.isEmpty_iff.mp hempty]
          exact ⟨rfl, fun _ hp => absurd hp List.not_mem_nil, hmatch⟩
        · cases hps
          exact ⟨by rw [joined_pieces], fun _ hp => not_mem_of_mem_pieces hp, hmatch⟩

/-- A path is cut in one way only. -/
theorem Cuts.unique {T : Template} (hT : .literal "" ∉ T.segments) {path : Bytes}
    {ps qs : List Bytes} (hps : T.Cuts path ps) (hqs : T.Cuts path qs) : ps = qs := by
  apply Option.some.inj
  rw [← ((cuts_iff hT).mp hps).1, ((cuts_iff hT).mp hqs).1]

end Template

namespace Router

variable {cs : List Candidate} {piece : Bytes} {c : Candidate}

/-- Behind literals that spell a piece stand the candidates that had such a literal in front. -/
theorem mem_pastLiteral_iff :
    c ∈ cs.filterMap (Candidate.pastLiteral? piece) ↔
      ∃ s, Utf8.encode s = piece ∧ ⟨.literal s :: c.left, c.path⟩ ∈ cs := by
  rw [List.mem_filterMap]
  constructor
  · rintro ⟨⟨left, p⟩, hmem, hpast⟩
    unfold Candidate.pastLiteral? at hpast
    split at hpast
    · rename_i s left' hleft
      split at hpast
      · rename_i hs
        cases hpast
        cases hleft
        exact ⟨s, hs, hmem⟩
      · cases hpast
    · cases hpast
  · rintro ⟨s, hs, hmem⟩
    exact ⟨_, hmem, by simp [Candidate.pastLiteral?, hs]⟩

/-- Behind variables stand the candidates that had a variable in front. -/
theorem mem_pastVariable_iff :
    c ∈ cs.filterMap Candidate.pastVariable? ↔
      ∃ name, ⟨.variable name :: c.left, c.path⟩ ∈ cs := by
  rw [List.mem_filterMap]
  constructor
  · rintro ⟨⟨left, p⟩, hmem, hpast⟩
    unfold Candidate.pastVariable? at hpast
    split at hpast
    · rename_i name left' hleft
      cases hpast
      cases hleft
      exact ⟨name, hmem⟩
    · cases hpast
  · rintro ⟨name, hmem⟩
    exact ⟨_, hmem, rfl⟩

/-- Where the search finds nothing, no candidate matches. -/
theorem not_matches_of_choose {ps : List Bytes} (h : choose cs ps = none) (hc : c ∈ cs) :
    ¬ List.Forall₂ Segment.Matches c.left ps := by
  induction ps generalizing cs c with
  | nil =>
      intro hmatch
      have hleft := List.forall₂_nil_right_iff.mp hmatch
      simp only [choose, Option.map_eq_none_iff, List.find?_eq_none] at h
      exact h c hc (by simp [hleft])
  | cons piece rest ih =>
      intro hmatch
      obtain ⟨left, p⟩ := c
      obtain ⟨segment, left, hs, hrest, rfl⟩ := List.forall₂_cons_right_iff.mp hmatch
      unfold choose at h
      rw [if_neg (by simpa using List.ne_nil_of_mem hc)] at h
      split at h
      · cases h
      · rename_i hliteral
        rcases segment with s | name
        · exact ih hliteral (c := ⟨left, p⟩) (mem_pastLiteral_iff.mpr ⟨s, hs, hc⟩) hrest
        · have hpiece : piece ≠ [] := hs
          rw [if_neg (by simpa using hpiece)] at h
          exact ih h (c := ⟨left, p⟩) (mem_pastVariable_iff.mpr ⟨name, hc⟩) hrest

/-- The search finds a candidate that matches, and none that matches comes before it. -/
theorem choose_eq_some {ps : List Bytes} {p : Path} (h : choose cs ps = some p) :
    ∃ left, ⟨left, p⟩ ∈ cs ∧ List.Forall₂ Segment.Matches left ps ∧
      ∀ c ∈ cs, List.Forall₂ Segment.Matches c.left ps → ¬ Segment.Precede c.left left := by
  induction ps generalizing cs with
  | nil =>
      obtain ⟨⟨left, _⟩, hfind, rfl⟩ := Option.map_eq_some_iff.mp h
      obtain rfl : left = [] := by simpa using List.find?_some hfind
      refine ⟨[], List.mem_of_find?_eq_some hfind, .nil, ?_⟩
      rintro ⟨_, _⟩ _ _ ⟨⟩
  | cons piece rest ih =>
      unfold choose at h
      split at h
      · cases h
      · split at h
        · -- A literal leads on, and only another literal could come before it.
          rename_i hliteral
          cases h
          obtain ⟨left, hmem, hmatch, hfirst⟩ := ih hliteral
          obtain ⟨s, hs, hmem⟩ := mem_pastLiteral_iff.mp hmem
          refine ⟨.literal s :: left, hmem, .cons hs hmatch, ?_⟩
          rintro ⟨left', p'⟩ hc hmatch' hp
          obtain _ | ⟨_, hp⟩ := hp
          obtain _ | ⟨hs', hrest'⟩ := hmatch'
          exact hfirst ⟨_, p'⟩ (mem_pastLiteral_iff.mpr ⟨s, hs', hc⟩) hrest' hp
        · rename_i hliteral
          split at h
          · cases h
          · -- No literal leads on, so what comes before the variable has a variable too.
            rename_i hempty
            have hpiece : piece ≠ [] := by simpa using hempty
            obtain ⟨left, hmem, hmatch, hfirst⟩ := ih h
            obtain ⟨name, hmem⟩ := mem_pastVariable_iff.mp hmem
            refine ⟨.variable name :: left, hmem, .cons hpiece hmatch, ?_⟩
            rintro ⟨left', p'⟩ hc hmatch' hp
            obtain ⟨s, _, left', _⟩ | _ | ⟨name', _, hp⟩ := hp
            · obtain _ | ⟨hs', hrest'⟩ := hmatch'
              exact not_matches_of_choose hliteral (c := ⟨left', p'⟩)
                (mem_pastLiteral_iff.mpr ⟨s, hs', hc⟩) hrest'
            · obtain _ | ⟨_, hrest'⟩ := hmatch'
              exact hfirst ⟨_, p'⟩ (mem_pastVariable_iff.mpr ⟨name', hc⟩) hrest' hp

variable {router : Router} {path : Bytes}

/-- A router whose templates have no empty literals finds a path with a template that matches, and
that comes before every other one that matches. -/
theorem find?_eq_some (hne : ∀ p ∈ router.paths, .literal "" ∉ p.template.segments) {p : Path}
    {values : Captures} (h : router.find? path = some (p, values)) :
    p ∈ router.paths ∧
      (∃ ps, p.template.Cuts path ps ∧ values = captures p.template.segments ps) ∧
      ∀ q ∈ router.paths, q.template.Matches path →
        q = p ∨ Segment.Precede p.template.segments q.template.segments := by
  obtain ⟨ps, hps, hrest⟩ := Option.bind_eq_some_iff.mp h
  obtain ⟨_, hchoose, hfound⟩ := Option.bind_eq_some_iff.mp hrest
  cases hfound
  obtain ⟨left, hmem, hmatch, hfirst⟩ := choose_eq_some hchoose
  obtain ⟨_, hp, hcandidate⟩ := List.mem_map.mp hmem
  cases hcandidate
  refine ⟨hp, ⟨ps, (Template.cuts_iff (hne p hp)).mpr ⟨hps, hmatch⟩, rfl⟩, ?_⟩
  intro q hq hq'
  obtain ⟨qs, hcuts⟩ := hq'
  obtain ⟨hqs, hmatch'⟩ := (Template.cuts_iff (hne q hq)).mp hcuts
  obtain rfl : qs = ps := Option.some.inj (hqs.symm.trans hps)
  rcases Template.shape_eq_or_precede hmatch hmatch' with hshape | hprecede | hprecede
  · exact Or.inl (List.inj_on_of_nodup_map router.distinct hq hp hshape.symm)
  · exact Or.inr hprecede
  · exact absurd hprecede (hfirst _ (List.mem_map.mpr ⟨q, hq, rfl⟩) hmatch')

/-- A router whose templates have no empty literals finds nothing exactly if no template matches. -/
theorem find?_eq_none_iff (hne : ∀ p ∈ router.paths, .literal "" ∉ p.template.segments) :
    router.find? path = none ↔ ∀ p ∈ router.paths, ¬ p.template.Matches path := by
  constructor
  · intro h p hp ⟨ps, hcuts⟩
    obtain ⟨hps, hmatch⟩ := (Template.cuts_iff (hne p hp)).mp hcuts
    have hnone : choose (router.paths.map fun p => ⟨p.template.segments, p⟩) ps = none := by
      cases hchoose : choose (router.paths.map fun p => ⟨p.template.segments, p⟩) ps with
      | none => rfl
      | some found => simp [find?, hps, hchoose] at h
    exact not_matches_of_choose hnone (List.mem_map.mpr ⟨p, hp, rfl⟩) hmatch
  · intro h
    cases hfind : router.find? path with
    | none => rfl
    | some found =>
        obtain ⟨p, values⟩ := found
        obtain ⟨hp, ⟨ps, hcuts, _⟩, _⟩ := find?_eq_some hne hfind
        exact absurd ⟨ps, hcuts⟩ (h p hp)

end Router

end RestGateway
