import RestGateway.Proofs.Json.Skipping

/-!
# Values are skipped as the grammar has them

The automaton that passes over a value comes to the end of exactly those texts that the grammar has.
A part of a value leads from any stack of open brackets back to the same stack, because nothing
below the brackets of the value itself is looked at.
-/

namespace RestGateway.Json

variable {brackets : List Bracket} {first : Bool} {s t u rest : Bytes} {b : UInt8} {v : Tree}
  {vs : List Tree} {ms : List Tree.Member} {part : Part}

/-- The kinds of trees, which are told apart by the first byte of a spelling. -/
inductive Shape
  | null
  | boolean (b : Bool)
  | number
  | string
  | list
  | object

/-- The kind of a tree. -/
def Tree.shape : Tree → Shape
  | .null => .null
  | .boolean b => .boolean b
  | .number _ => .number
  | .string _ => .string
  | .list _ => .list
  | .object _ => .object

/-- The kind of the trees whose spellings start with a byte. -/
def Shape.ofByte? (b : UInt8) : Option Shape :=
  if startsNumber b then some .number
  else if b == 0x6E then some .null
  else if b == 0x74 then some (.boolean true)
  else if b == 0x66 then some (.boolean false)
  else if b == 0x22 then some .string
  else if b == 0x5B then some .list
  else if b == 0x7B then some .object
  else none

/-- No value starts like a blank or like the end of a list. -/
theorem Shape.not_blank {p : Shape} (h : ofByte? b = some p) : isBlank b = false ∧ b ≠ 0x5D := by
  constructor
  · rw [Bool.eq_false_iff]
    intro hblank
    simp only [isBlank, Bool.or_eq_true, beq_iff_eq] at hblank
    rcases hblank with ((rfl | rfl) | rfl) | rfl <;> cases h
  · rintro rfl
    cases h

theorem Spells.exists_cons (h : Spells (.value v) s rest) :
    ∃ b t, s = b :: t ∧ Shape.ofByte? b = some v.shape := by
  cases h with
  | boolean value rest => cases value <;> exact ⟨_, _, rfl, rfl⟩
  | number n rest =>
      obtain ⟨b, t, hb, hstarts⟩ := n.exists_cons rest
      exact ⟨b, t, hb, if_pos hstarts⟩
  | null _ | string _ | list _ | object _ => exact ⟨_, _, rfl, rfl⟩

theorem Separated.trans_blanks (h : Separated first s t) (ht : Blanks t u) :
    Separated first s u := by
  cases first with
  | true => exact Blanks.trans h ht
  | false =>
      obtain ⟨w, hw, hwt⟩ := h
      exact ⟨w, hw, hwt.trans ht⟩

section Lengths

theorem Content.length_lt (h : Content s rest) : rest.length < s.length := by
  induction h with
  | close rest => exact Nat.lt_succ_self _
  | plain _ _ ih | letter _ _ ih | code _ _ ih =>
      simp only [List.length_cons]
      omega

theorem Blanks.length_lt (h : Blanks s (b :: rest)) : rest.length < s.length :=
  Nat.lt_of_lt_of_le (Nat.lt_succ_self _) h.length_le

theorem Separated.length_le (h : Separated first s t) : t.length ≤ s.length := by
  cases first with
  | true => exact Blanks.length_le h
  | false =>
      obtain ⟨w, hw, ht⟩ := h
      exact Nat.le_trans ht.length_le (Nat.le_of_lt hw.length_lt)

/-- A spelling takes bytes of the text. -/
theorem Spells.length_lt (h : Spells part s rest) : rest.length < s.length := by
  induction h with
  | null rest =>
      simp only [List.length_cons]
      omega
  | boolean value rest =>
      cases value <;> simp only [word, List.length_append, List.length_cons] <;> omega
  | number n rest =>
      obtain ⟨d, ds, hds, _⟩ := n.isWhole.exists_cons
      simp only [Numeral.spelling, hds, List.length_append, List.length_cons]
      omega
  | string h => exact Nat.lt_succ_of_lt h.content.length_lt
  | list _ ih | object _ ih => exact Nat.lt_succ_of_lt ih
  | closeList h | closeObject h => exact h.length_lt
  | element hs _ _ ihv ihvs =>
      have hle := hs.length_le
      omega
  | member hs hname hcolon hx _ _ ihv ihms =>
      have hle := hs.length_le
      have hlt := hname.content.length_lt
      have hcolon := hcolon.length_lt
      have hx := hx.length_le
      simp only [List.length_cons] at hle
      omega

end Lengths

theorem Blanks.stops (h : Blanks s t) (ht : Stops t) : Stops s := by
  obtain ⟨blanks, hblanks, rfl⟩ := h
  cases blanks with
  | nil => exact ht
  | cons a blanks =>
      rintro c ⟨rfl⟩
      have ha := hblanks a List.mem_cons_self
      simp only [isBlank, Bool.or_eq_true, beq_iff_eq] at ha
      rcases ha with ((rfl | rfl) | rfl) | rfl <;> exact ⟨rfl, by decide, rfl⟩

theorem stops_cons (hb : b = 0x2C ∨ b = 0x5D ∨ b = 0x7D) : Stops (b :: t) := by
  rintro c ⟨rfl⟩
  rcases hb with rfl | rfl | rfl <;> exact ⟨rfl, by decide, rfl⟩

/-- Behind an item of a list no number goes on. -/
theorem Spells.stops_of_elements (h : Spells (.elements false vs) s rest) : Stops s := by
  cases h with
  | closeList h => exact h.stops (stops_cons (Or.inr (Or.inl rfl)))
  | element hs _ _ =>
      obtain ⟨w, hw, _⟩ := hs
      exact hw.stops (stops_cons (Or.inl rfl))

/-- Behind a member of an object no number goes on. -/
theorem Spells.stops_of_members (h : Spells (.members false ms) s rest) : Stops s := by
  cases h with
  | closeObject h => exact h.stops (stops_cons (Or.inr (Or.inr rfl)))
  | member hs _ _ _ _ _ =>
      obtain ⟨w, hw, _⟩ := hs
      exact hw.stops (stops_cons (Or.inl rfl))

section Blanks

theorem Blanks.skipFrom_value (h : Blanks s t) :
    skipFrom .value brackets s = skipFrom .value brackets t :=
  h.skipFrom_eq fun b hb => by simp [Skip.step, hb]

theorem Blanks.skipFrom_opened (h : Blanks s t) :
    skipFrom .opened brackets s = skipFrom .opened brackets t :=
  h.skipFrom_eq fun b hb => by simp [Skip.step, afterBracket, hb]

theorem Blanks.skipFrom_ended (h : Blanks s t) (bracket : Bracket) :
    skipFrom .ended (bracket :: brackets) s = skipFrom .ended (bracket :: brackets) t :=
  h.skipFrom_eq fun b hb => by cases bracket <;> simp [Skip.step, afterValue, hb]

theorem Blanks.skipFrom_member (h : Blanks s t) :
    skipFrom .member brackets s = skipFrom .member brackets t :=
  h.skipFrom_eq fun b hb => by simp [Skip.step, hb]

theorem Blanks.skipFrom_named (h : Blanks s t) :
    skipFrom .named brackets s = skipFrom .named brackets t :=
  h.skipFrom_eq fun b hb => by simp [Skip.step, hb]

/-- Where the automaton stands inside brackets, in front of an item. -/
def inside (first : Bool) : Skip := if first then .opened else .ended

theorem Blanks.skipFrom_inside (h : Blanks s t) (bracket : Bracket) :
    skipFrom (inside first) (bracket :: brackets) s =
      skipFrom (inside first) (bracket :: brackets) t := by
  cases first with
  | true => exact h.skipFrom_opened
  | false => exact h.skipFrom_ended bracket

end Blanks

section Complete

theorem Separated.skipFrom_list (h : Separated first s (b :: t)) (hblank : isBlank b = false)
    (hclose : b ≠ 0x5D) :
    skipFrom (inside first) (.list :: brackets) s =
      skipFrom .value (.list :: brackets) (b :: t) := by
  cases first with
  | true =>
      refine (Blanks.skipFrom_opened h).trans (skipFrom_congr ?_ t)
      simp [Skip.step, afterBracket, hblank, hclose]
  | false =>
      obtain ⟨w, hw, ht⟩ := h
      exact (hw.skipFrom_ended .list).trans ht.skipFrom_value

theorem Separated.skipFrom_object (h : Separated first s (0x22 :: t)) :
    skipFrom (inside first) (.object :: brackets) s =
      skipFrom (.string true) (.object :: brackets) t := by
  cases first with
  | true => exact Blanks.skipFrom_opened h
  | false =>
      obtain ⟨w, hw, ht⟩ := h
      exact (hw.skipFrom_ended .object).trans ht.skipFrom_member

/-- The automaton comes from the start of a part to its end. -/
def Part.IsSkipped (brackets : List Bracket) (s rest : Bytes) : Part → Prop
  | .value _ => Stops rest → skipFrom .value brackets s = skipFrom .ended brackets rest
  | .elements first _ =>
    skipFrom (inside first) (.list :: brackets) s = skipFrom .ended brackets rest
  | .members first _ =>
    skipFrom (inside first) (.object :: brackets) s = skipFrom .ended brackets rest

theorem Spells.isSkipped (h : Spells part s rest) (brackets : List Bracket) :
    part.IsSkipped brackets s rest := by
  induction h generalizing brackets with
  | null rest => exact fun _ => rfl
  | boolean value rest => cases value <;> exact fun _ => rfl
  | number n rest => exact fun hrest => n.skipFrom_eq hrest
  | string h => exact fun _ => h.content.skipFrom_eq false
  | list _ ih | object _ ih => exact fun _ => ih brackets
  | @closeList first s rest h =>
      refine (h.skipFrom_inside .list).trans ?_
      cases first <;> rfl
  | element hs hv hvs ihv ihvs =>
      obtain ⟨b, t, rfl, hb⟩ := hv.exists_cons
      obtain ⟨hblank, hclose⟩ := Shape.not_blank hb
      refine (hs.skipFrom_list hblank hclose).trans ?_
      exact (ihv _ hvs.stops_of_elements).trans (ihvs brackets)
  | @closeObject first s rest h =>
      refine (h.skipFrom_inside .object).trans ?_
      cases first <;> rfl
  | @member first name v ms s t u w x y rest hs hname hcolon hx hv hms ihv ihms =>
      refine hs.skipFrom_object.trans ?_
      refine (hname.content.skipFrom_eq true).trans ?_
      refine hcolon.skipFrom_named.trans ?_
      refine (hx.skipFrom_value : skipFrom .value (.object :: brackets) w = _).trans ?_
      exact (ihv _ hms.stops_of_members).trans (ihms brackets)

/-- A value is passed over as a whole, with the blanks in front of it. -/
theorem Spells.skipValue_eq (h : Spells (.value v) t rest) (hblank : Blanks s t)
    (hrest : Stops rest) : skipValue s = .ok rest := by
  rw [skipValue, hblank.skipFrom_value, h.isSkipped [] hrest]
  cases rest <;> rfl

end Complete

section Sound

theorem exists_rest_of_skipFrom_word {letters : Bytes} (hne : letters ≠ [])
    (h : skipFrom (.word letters) brackets s = .ok t) :
    ∃ rest, s = letters ++ rest ∧ skipFrom .ended brackets rest = .ok t := by
  induction letters generalizing s with
  | nil => exact absurd rfl hne
  | cons letter letters ih =>
      cases s with
      | nil => cases h
      | cons b s =>
          rw [skipFrom, Skip.step] at h
          split_ifs at h with hb hlast
          · rw [List.isEmpty_iff.mp hlast]
            exact ⟨s, congrArg (· :: s) (beq_iff_eq.mp hb), h⟩
          · obtain ⟨rest, rfl, hrest⟩ := ih (by simpa using hlast) h
            exact ⟨rest, congrArg (· :: _) (beq_iff_eq.mp hb), hrest⟩
          · cases h

/-- What is passed over from a state on is spelled as a part, with the same brackets open behind
it. -/
def IsSpelled {α : Type} (make : α → Part) (brackets : List Bracket) (s t : Bytes) : Prop :=
  ∃ a rest, Spells (make a) s rest ∧ skipFrom .ended brackets rest = .ok t

/-- A value is told by its first byte. -/
theorem isSpelled_value_of_cons
    (hlist : skipFrom .opened (.list :: brackets) s = .ok t →
      IsSpelled (.elements true) brackets s t)
    (hobject : skipFrom .opened (.object :: brackets) s = .ok t →
      IsSpelled (.members true) brackets s t)
    (hblank : isBlank b = false) (h : skipFrom .value brackets (b :: s) = .ok t) :
    IsSpelled .value brackets (b :: s) t := by
  by_cases hnumber : startsNumber b = true
  · obtain ⟨n, rest, heq, hrest⟩ := exists_numeral_of_skipFrom hnumber h
    exact ⟨.number n, rest, heq ▸ .number n rest, hrest⟩
  · obtain ⟨hminus, hdigit⟩ : b ≠ 0x2D ∧ Ascii.isDigit b = false := by
      simpa [startsNumber] using hnumber
    have hzero : b ≠ 0x30 := by
      rintro rfl
      cases hdigit
    rw [skipFrom, Skip.step] at h
    simp only [hblank, startValue, hdigit, beq_false_of_ne hminus, beq_false_of_ne hzero,
      Bool.false_eq_true, if_false] at h
    split_ifs at h with hnull htrue hfalse hquote hbracket hbrace
    · rw [beq_iff_eq.mp hnull]
      obtain ⟨rest, rfl, hrest⟩ := exists_rest_of_skipFrom_word (List.cons_ne_nil _ _) h
      exact ⟨.null, rest, .null rest, hrest⟩
    · rw [beq_iff_eq.mp htrue]
      obtain ⟨rest, rfl, hrest⟩ := exists_rest_of_skipFrom_word (List.cons_ne_nil _ _) h
      exact ⟨.boolean true, rest, .boolean true rest, hrest⟩
    · rw [beq_iff_eq.mp hfalse]
      obtain ⟨rest, rfl, hrest⟩ := exists_rest_of_skipFrom_word (List.cons_ne_nil _ _) h
      exact ⟨.boolean false, rest, .boolean false rest, hrest⟩
    · rw [beq_iff_eq.mp hquote]
      obtain ⟨rest, hcontent, hrest⟩ := exists_content_of_skipFrom false h
      obtain ⟨text, htext⟩ := exists_isString hcontent
      exact ⟨.string text, rest, .string htext, hrest⟩
    · rw [beq_iff_eq.mp hbracket]
      obtain ⟨vs, rest, hvs, hrest⟩ := hlist h
      exact ⟨.list vs, rest, .list hvs, hrest⟩
    · rw [beq_iff_eq.mp hbrace]
      obtain ⟨ms, rest, hms, hrest⟩ := hobject h
      exact ⟨.object ms, rest, .object hms, hrest⟩
    · cases h

/-- The byte that closes a bracket. -/
def Bracket.closing : Bracket → UInt8
  | .list => 0x5D
  | .object => 0x7D

/-- Where the automaton stands in front of an item that has to follow. -/
def Bracket.item : Bracket → Skip
  | .list => .value
  | .object => .member

theorem Blanks.skipFrom_item (h : Blanks s t) (bracket : Bracket) :
    skipFrom bracket.item (bracket :: brackets) s =
      skipFrom bracket.item (bracket :: brackets) t := by
  cases bracket with
  | list => exact h.skipFrom_value
  | object => exact h.skipFrom_member

/-- Behind an item, in front of neither blanks nor the end, there is a comma. -/
theorem of_skipFrom_ended {bracket : Bracket} (hb : isBlank b = false)
    (hclose : b ≠ bracket.closing)
    (h : skipFrom .ended (bracket :: brackets) (b :: s) = .ok t) :
    b = 0x2C ∧ skipFrom bracket.item (bracket :: brackets) s = .ok t := by
  rw [skipFrom, Skip.step] at h
  cases bracket with
  | list | object =>
      rw [Bracket.closing] at hclose
      simp only [afterValue, hb, Bool.false_eq_true, if_false, beq_iff_eq, hclose] at h
      split_ifs at h with hcomma
      · exact ⟨hcomma, h⟩
      · cases h

/-- Inside brackets there is the byte that closes them, or an item. -/
theorem skipFrom_inside_cases {bracket : Bracket}
    (h : skipFrom (inside first) (bracket :: brackets) s = .ok t) :
    (∃ rest, Blanks s (bracket.closing :: rest) ∧ skipFrom .ended brackets rest = .ok t) ∨
      ∃ b u, Separated first s (b :: u) ∧ isBlank b = false ∧
        skipFrom bracket.item (bracket :: brackets) (b :: u) = .ok t := by
  rw [(blanks_skipBlank s).skipFrom_inside bracket] at h
  cases hs : skipBlank s with
  | nil =>
      rw [hs] at h
      cases first <;> cases bracket <;> cases h
  | cons b u =>
      obtain ⟨hblanks, hb⟩ := blanks_of_skipBlank hs
      rw [hs] at h
      by_cases hclose : b = bracket.closing
      · subst hclose
        refine Or.inl ⟨u, hblanks, ?_⟩
        cases first <;> cases bracket <;> exact h
      · apply Or.inr
        cases first with
        | true =>
            refine ⟨b, u, hblanks, hb, ?_⟩
            rw [← h]
            symm
            apply skipFrom_congr
            cases bracket <;>
              simp_all [Skip.step, inside, afterBracket, Bracket.closing, Bracket.item]
        | false =>
            obtain ⟨rfl, hu⟩ := of_skipFrom_ended hb hclose h
            rw [(blanks_skipBlank u).skipFrom_item bracket] at hu
            cases hskip : skipBlank u with
            | nil =>
                rw [hskip] at hu
                cases bracket <;> cases hu
            | cons c w =>
                obtain ⟨hblanks', hc⟩ := blanks_of_skipBlank hskip
                exact ⟨c, w, ⟨u, hblanks, hblanks'⟩, hc, hskip ▸ hu⟩

theorem exists_value_of_skipFrom (h : skipFrom .value brackets s = .ok t) :
    ∃ b u, Blanks s (b :: u) ∧ isBlank b = false ∧ skipFrom .value brackets (b :: u) = .ok t := by
  rw [(blanks_skipBlank s).skipFrom_value] at h
  cases hs : skipBlank s with
  | nil =>
      rw [hs] at h
      cases h
  | cons b u =>
      obtain ⟨hblanks, hb⟩ := blanks_of_skipBlank hs
      exact ⟨b, u, hblanks, hb, hs ▸ h⟩

theorem exists_colon_of_skipFrom (h : skipFrom .named brackets s = .ok t) :
    ∃ u, Blanks s (0x3A :: u) ∧ skipFrom .value brackets u = .ok t := by
  rw [(blanks_skipBlank s).skipFrom_named] at h
  cases hs : skipBlank s with
  | nil =>
      rw [hs] at h
      cases h
  | cons b u =>
      obtain ⟨hblanks, hb⟩ := blanks_of_skipBlank hs
      rw [hs, skipFrom, Skip.step] at h
      simp only [hb, Bool.false_eq_true, if_false] at h
      split_ifs at h with hcolon
      · exact ⟨u, beq_iff_eq.mp hcolon ▸ hblanks, h⟩
      · cases h

/-- A member starts with its name, behind which its value follows. -/
theorem exists_name_of_skipFrom (hb : isBlank b = false)
    (h : skipFrom .member brackets (b :: s) = .ok t) :
    ∃ name u w c x, b = 0x22 ∧ IsString s name u ∧ Blanks u (0x3A :: w) ∧ Blanks w (c :: x) ∧
      isBlank c = false ∧ skipFrom .value brackets (c :: x) = .ok t := by
  rw [skipFrom, Skip.step] at h
  simp only [hb, Bool.false_eq_true, if_false, startMember] at h
  split_ifs at h with hquote
  · obtain ⟨u, hcontent, hu⟩ := exists_content_of_skipFrom true h
    obtain ⟨name, hname⟩ := exists_isString hcontent
    obtain ⟨w, hcolon, hw⟩ := exists_colon_of_skipFrom hu
    obtain ⟨c, x, hx, hc, hvalue⟩ := exists_value_of_skipFrom hw
    exact ⟨name, u, w, c, x, beq_iff_eq.mp hquote, hname, hcolon, hx, hc, hvalue⟩
  · cases h

/-- Whatever is passed over is spelled. A part of a value is in a shorter text than the value. -/
theorem isSpelled_of_skipFrom (s : Bytes) (brackets : List Bracket) :
    (∀ b u, s = b :: u → isBlank b = false → skipFrom .value brackets s = .ok t →
      IsSpelled .value brackets s t) ∧
    (∀ first, skipFrom (inside first) (.list :: brackets) s = .ok t →
      IsSpelled (.elements first) brackets s t) ∧
    ∀ first, skipFrom (inside first) (.object :: brackets) s = .ok t →
      IsSpelled (.members first) brackets s t := by
  induction hn : s.length using Nat.strongRecOn generalizing s brackets with
  | ind n ih =>
      subst hn
      have hvalue : ∀ {b u brackets}, (b :: u).length ≤ s.length → isBlank b = false →
          skipFrom .value brackets (b :: u) = .ok t → IsSpelled .value brackets (b :: u) t :=
        fun {b u brackets} hle =>
          isSpelled_value_of_cons ((ih _ hle u brackets rfl).2.1 true)
            ((ih _ hle u brackets rfl).2.2 true)
      refine ⟨?_, ?_, ?_⟩
      · rintro b u rfl
        exact hvalue (Nat.le_refl _)
      · intro first h
        rcases skipFrom_inside_cases h with ⟨rest, hclose, hrest⟩ | ⟨b, u, hseparated, hb, hitem⟩
        · exact ⟨[], rest, .closeList hclose, hrest⟩
        · have hle := hseparated.length_le
          obtain ⟨v, w, hv, hw⟩ := hvalue hle hb hitem
          obtain ⟨vs, rest, hvs, hrest⟩ :=
            (ih _ (Nat.lt_of_lt_of_le hv.length_lt hle) w brackets rfl).2.1 false hw
          exact ⟨v :: vs, rest, .element hseparated hv hvs, hrest⟩
      · intro first h
        rcases skipFrom_inside_cases h with ⟨rest, hclose, hrest⟩ | ⟨b, u, hseparated, hb, hitem⟩
        · exact ⟨[], rest, .closeObject hclose, hrest⟩
        · have hle := hseparated.length_le
          obtain ⟨name, w, x, c, y, rfl, hname, hcolon, hy, hc, hmember⟩ :=
            exists_name_of_skipFrom hb hitem
          have hlt : (c :: y).length < s.length := by
            have hw := hname.content.length_lt
            have hx := hcolon.length_le
            have hy := hy.length_le
            simp only [List.length_cons] at hle hx hy ⊢
            omega
          obtain ⟨v, z, hv, hz⟩ := hvalue (Nat.le_of_lt hlt) hc hmember
          obtain ⟨ms, rest, hms, hrest⟩ :=
            (ih _ (Nat.lt_trans hv.length_lt hlt) z brackets rfl).2.2 false hz
          exact ⟨(name, v) :: ms, rest, .member hseparated hname hcolon hy hv hms, hrest⟩

/-- A value that is passed over is spelled as the grammar says. -/
theorem exists_spells_of_skipValue (h : skipValue s = .ok rest) :
    ∃ v t, Blanks s t ∧ Spells (.value v) t rest := by
  obtain ⟨b, u, hblanks, hb, hvalue⟩ := exists_value_of_skipFrom h
  obtain ⟨v, w, hv, hw⟩ := (isSpelled_of_skipFrom (b :: u) []).1 b u rfl hb hvalue
  have hrest : w = rest := by
    cases w <;> exact Except.ok.inj hw
  exact ⟨v, b :: u, hblanks, hrest ▸ hv⟩

end Sound

end RestGateway.Json
