import RestGateway.Json.Skip
import RestGateway.Proofs.Json.Numerals

/-!
# Strings and numbers are skipped as the grammar has them

The automaton that passes over a value comes to the end of exactly those strings and numbers that
the grammar has. Inside them it never looks at the brackets that are open.
-/

namespace RestGateway.Json

variable {state state' : Skip} {brackets brackets' : List Bracket} {s t rest ds : Bytes} {b : UInt8}

theorem skipFrom_go (h : state.step brackets b = .go state' brackets') (s : Bytes) :
    skipFrom state brackets (b :: s) = skipFrom state' brackets' s := by
  rw [skipFrom, h]

theorem skipFrom_congr (h : state.step brackets b = state'.step brackets b) (s : Bytes) :
    skipFrom state brackets (b :: s) = skipFrom state' brackets (b :: s) := by
  rw [skipFrom, h, skipFrom]

/-- The automaton goes around over bytes that it does not leave a state for. -/
theorem skipFrom_append (h : ∀ b ∈ ds, state.step brackets b = .go state brackets) (s : Bytes) :
    skipFrom state brackets (ds ++ s) = skipFrom state brackets s := by
  induction ds with
  | nil => rfl
  | cons b ds ih =>
      rw [List.cons_append, skipFrom_go (h b List.mem_cons_self),
        ih fun b hb => h b (List.mem_cons_of_mem _ hb)]

theorem Blanks.skipFrom_eq (h : Blanks s t)
    (hstate : ∀ b, isBlank b = true → state.step brackets b = .go state brackets) :
    skipFrom state brackets s = skipFrom state brackets t := by
  obtain ⟨blanks, hblanks, rfl⟩ := h
  exact skipFrom_append (fun b hb => hstate b (hblanks b hb)) t

section Strings

theorem isSome_hexNumber? {a b c d : UInt8} :
    (hexNumber? a b c d).isSome =
      (Ascii.isHexDigit a && Ascii.isHexDigit b && Ascii.isHexDigit c && Ascii.isHexDigit d) := by
  simp only [Ascii.isHexDigit, hexNumber?]
  cases Ascii.hexValue? a <;> cases Ascii.hexValue? b <;> cases Ascii.hexValue? c <;>
    cases Ascii.hexValue? d <;> rfl

theorem isSome_shortEscape? (letter : UInt8) :
    (shortEscape? letter).isSome =
      [0x22, 0x5C, 0x2F, 0x62, 0x66, 0x6E, 0x72, 0x74].contains letter := by
  have hall : ∀ n : Fin 256, (shortEscape? (UInt8.ofFin n)).isSome =
      [0x22, 0x5C, 0x2F, 0x62, 0x66, 0x6E, 0x72, 0x74].contains (UInt8.ofFin n) := by
    decide +kernel
  exact hall letter.toFin

variable (name : Bool)

theorem skipFrom_escape {letter : UInt8} (hletter : letter ≠ 0x75) :
    skipFrom (.escape name) brackets (letter :: s) =
      if (shortEscape? letter).isSome then skipFrom (.string name) brackets s
      else faultBefore .invalidEscape s := by
  rw [isSome_shortEscape?, skipFrom, Skip.step, if_neg (by simpa using hletter)]
  split_ifs <;> rfl

theorem skipFrom_code {a b c d : UInt8} :
    skipFrom (.code name 4 true) brackets (a :: b :: c :: d :: s) =
      if (hexNumber? a b c d).isSome then skipFrom (.string name) brackets s
      else faultBefore .invalidEscape s := by
  rw [isSome_hexNumber?]
  simp only [skipFrom, Skip.step]
  cases Ascii.isHexDigit a <;> cases Ascii.isHexDigit b <;> cases Ascii.isHexDigit c <;>
    cases Ascii.isHexDigit d <;> rfl

theorem Content.skipFrom_eq (h : Content s rest) :
    skipFrom (.string name) brackets s = skipFrom (afterString name) brackets rest := by
  induction h with
  | close rest => rfl
  | @plain b s rest hb _ ih =>
      obtain ⟨hquote, hslash, hcontrol⟩ := hb
      rw [← ih]
      apply skipFrom_go
      simp [Skip.step, hquote, hslash, hcontrol]
  | @letter letter c s rest hletter _ ih =>
      have hne : letter ≠ 0x75 := by
        rintro rfl
        cases hletter
      have hescape := @skipFrom_escape brackets s name letter hne
      rw [hletter, Option.isSome_some, if_pos rfl, ih] at hescape
      exact hescape
  | @code a b c d n s rest hn _ ih =>
      have hcode := @skipFrom_code brackets s name a b c d
      rw [hn, Option.isSome_some, if_pos rfl, ih] at hcode
      exact hcode

/-- An escape that is passed over is a letter or a code. -/
theorem exists_escape_of_skipFrom (h : skipFrom (.escape name) brackets s = .ok t) :
    ∃ u, u.length < s.length ∧ skipFrom (.string name) brackets u = .ok t ∧
      ∀ rest, Content u rest → Content (0x5C :: s) rest := by
  cases s with
  | nil => cases h
  | cons letter s =>
      by_cases hu : letter = 0x75
      · subst hu
        match s with
        | [] | [_] | [_, _] | [_, _, _] => simp [skipFrom, Skip.step, Skip.atEnd, endOf] at h
        | a :: b :: c :: d :: s =>
            have hcode := (@skipFrom_code brackets s name a b c d).symm.trans h
            split_ifs at hcode with hsome
            · obtain ⟨n, hn⟩ := Option.isSome_iff_exists.mp hsome
              exact ⟨s, by simp only [List.length_cons]; omega, hcode, fun rest => .code hn⟩
            · cases hcode
      · rw [skipFrom_escape name hu] at h
        split_ifs at h with hsome
        · obtain ⟨c, hletter⟩ := Option.isSome_iff_exists.mp hsome
          exact ⟨s, Nat.lt_succ_self _, h, fun rest => .letter hletter⟩
        · cases h

/-- A string that is passed over ends where the grammar says. -/
theorem exists_content_of_skipFrom (h : skipFrom (.string name) brackets s = .ok t) :
    ∃ rest, Content s rest ∧ skipFrom (afterString name) brackets rest = .ok t := by
  induction hn : s.length using Nat.strongRecOn generalizing s with
  | ind n ih =>
      subst hn
      cases s with
      | nil => cases h
      | cons b s =>
          have hlt : s.length < (b :: s).length := Nat.lt_succ_self _
          rw [skipFrom, Skip.step] at h
          split_ifs at h with hquote hslash hcontrol
          · exact ⟨s, beq_iff_eq.mp hquote ▸ .close s, h⟩
          · obtain ⟨u, hu, hstring, hcontent⟩ := exists_escape_of_skipFrom name h
            obtain ⟨rest, hrest, hafter⟩ := ih _ (Nat.lt_trans hu hlt) hstring rfl
            exact ⟨rest, beq_iff_eq.mp hslash ▸ hcontent rest hrest, hafter⟩
          · cases h
          · obtain ⟨rest, hrest, hafter⟩ := ih _ hlt h rfl
            have hplain : IsPlain b := ⟨by simpa using hquote, by simpa using hslash, hcontrol⟩
            exact ⟨rest, .plain hplain hrest, hafter⟩

end Strings

section Numerals

/-- The states that a number may end in. -/
def MayEnd (state : Skip) : Prop :=
  state = .zero ∨ state = .digits ∨ state = .fraction true ∨ state = .powerDigits

/-- A number ends where it does not go on. -/
theorem MayEnd.skipFrom_eq (h : MayEnd state) (hrest : Stops rest) :
    skipFrom state brackets rest = skipFrom .ended brackets rest := by
  cases rest with
  | nil => rcases h with rfl | rfl | rfl | rfl <;> rfl
  | cons b rest =>
      obtain ⟨hdigit, hpoint, hletter⟩ := hrest b rfl
      apply skipFrom_congr
      simp only [isExponentLetter] at hletter
      rcases h with rfl | rfl | rfl | rfl <;> simp [Skip.step, hdigit, hpoint, hletter]

/-- The states that go around over digits. -/
theorem skipFrom_digits (hstate : state = .digits ∨ state = .fraction true ∨ state = .powerDigits)
    (h : ∀ b ∈ ds, Ascii.isDigit b = true) (s : Bytes) :
    skipFrom state brackets (ds ++ s) = skipFrom state brackets s := by
  apply skipFrom_append
  intro b hb
  rcases hstate with rfl | rfl | rfl <;> simp [Skip.step, h b hb]

theorem AreDigits.skipFrom_power (h : AreDigits ds) (signed : Bool) (s : Bytes) :
    skipFrom (.power signed) brackets (ds ++ s) = skipFrom .powerDigits brackets s := by
  obtain ⟨hne, hdigits⟩ := h
  obtain ⟨d, ds, rfl⟩ := List.exists_cons_of_ne_nil hne
  obtain ⟨hd, hds⟩ := List.forall_mem_cons.mp hdigits
  have hstep : (Skip.power signed).step brackets d = .go .powerDigits brackets := by
    simp [Skip.step, hd]
  rw [List.cons_append, skipFrom_go hstep, skipFrom_digits (Or.inr (Or.inr rfl)) hds]

theorem skipFrom_exponentLetter
    (hstate : state = .zero ∨ state = .digits ∨ state = .fraction true) {letter : UInt8}
    (h : isExponentLetter letter = true) (s : Bytes) :
    skipFrom state brackets (letter :: s) = skipFrom (.power true) brackets s := by
  apply skipFrom_go
  rcases Bool.or_eq_true_iff.mp h with h | h <;> rw [beq_iff_eq.mp h] <;>
    rcases hstate with rfl | rfl | rfl <;> rfl

theorem IsPower.skipFrom_eq {power : Bytes} (h : IsPower power)
    (hstate : state = .zero ∨ state = .digits ∨ state = .fraction true) (hrest : Stops rest) :
    skipFrom state brackets (power ++ rest) = skipFrom .ended brackets rest := by
  have hend : MayEnd .powerDigits := Or.inr (Or.inr (Or.inr rfl))
  cases h with
  | none =>
      have hmay : MayEnd state := by
        rcases hstate with rfl | rfl | rfl
        · exact Or.inl rfl
        · exact Or.inr (Or.inl rfl)
        · exact Or.inr (Or.inr (Or.inl rfl))
      exact hmay.skipFrom_eq hrest
  | unsigned hletter hds =>
      rw [List.cons_append, skipFrom_exponentLetter hstate hletter, hds.skipFrom_power,
        hend.skipFrom_eq hrest]
  | @signed letter sign ds hletter hsign hds =>
      have hstep : (Skip.power true).step brackets sign = .go (.power false) brackets := by
        rcases hsign with rfl | rfl <;> rfl
      rw [List.cons_append, skipFrom_exponentLetter hstate hletter, List.cons_append,
        skipFrom_go hstep, hds.skipFrom_power, hend.skipFrom_eq hrest]

theorem IsFraction.skipFrom_eq {fraction power : Bytes} (h : IsFraction fraction)
    (hpower : IsPower power) (hstate : state = .zero ∨ state = .digits) (hrest : Stops rest) :
    skipFrom state brackets (fraction ++ (power ++ rest)) = skipFrom .ended brackets rest := by
  cases h with
  | none => exact hpower.skipFrom_eq (hstate.imp_right Or.inl) hrest
  | @digits ds h =>
      obtain ⟨hne, hdigits⟩ := h
      obtain ⟨d, ds, rfl⟩ := List.exists_cons_of_ne_nil hne
      obtain ⟨hd, hds⟩ := List.forall_mem_cons.mp hdigits
      have hpoint : state.step brackets 0x2E = .go (.fraction false) brackets := by
        rcases hstate with rfl | rfl <;> rfl
      have hdigit : (Skip.fraction false).step brackets d = .go (.fraction true) brackets := by
        simp [Skip.step, hd]
      rw [List.cons_append, skipFrom_go hpoint, List.cons_append, skipFrom_go hdigit,
        skipFrom_digits (Or.inr (Or.inl rfl)) hds,
        hpower.skipFrom_eq (Or.inr (Or.inr rfl)) hrest]

theorem step_value_of_isDigit {d : UInt8} (hd : Ascii.isDigit d = true) (hne : d ≠ 0x30) :
    Skip.value.step brackets d = .go .digits brackets := by
  have hother : ∀ w : UInt8, Ascii.isDigit w = false → d ≠ w := by
    rintro w hw rfl
    rw [hd] at hw
    cases hw
  simp [Skip.step, isBlank, startValue, hd, hne, hother 0x20 rfl, hother 0x09 rfl, hother 0x0A rfl,
    hother 0x0D rfl, hother 0x6E rfl, hother 0x74 rfl, hother 0x66 rfl, hother 0x2D rfl]

/-- A whole part leads to one of two states, whatever follows. -/
theorem IsWhole.exists_skipFrom_eq {whole : Bytes} (h : IsWhole whole)
    (hstate : state = .value ∨ state = .whole) :
    ∃ state', (state' = .zero ∨ state' = .digits) ∧
      ∀ s, skipFrom state brackets (whole ++ s) = skipFrom state' brackets s := by
  cases h with
  | zero =>
      refine ⟨.zero, Or.inl rfl, fun s => skipFrom_go ?_ s⟩
      rcases hstate with rfl | rfl <;> rfl
  | @digits d ds hne h =>
      obtain ⟨hd, hds⟩ := List.forall_mem_cons.mp h.2
      have hstep : state.step brackets d = .go .digits brackets := by
        rcases hstate with rfl | rfl
        · exact step_value_of_isDigit hd hne
        · simp [Skip.step, hd, hne]
      refine ⟨.digits, Or.inr rfl, fun s => ?_⟩
      rw [List.cons_append, skipFrom_go hstep, skipFrom_digits (Or.inl rfl) hds]

theorem Numeral.skipFrom_eq (n : Numeral) (hrest : Stops rest) :
    skipFrom .value brackets (n.spelling ++ rest) = skipFrom .ended brackets rest := by
  have htail : ∀ {state}, state = .value ∨ state = .whole →
      skipFrom state brackets (n.whole ++ (n.fraction ++ (n.power ++ rest))) =
        skipFrom .ended brackets rest := by
    intro state hstate
    obtain ⟨state', hstate', hwhole⟩ := @IsWhole.exists_skipFrom_eq _ brackets _ n.isWhole hstate
    rw [hwhole, n.isFraction.skipFrom_eq n.isPower hstate' hrest]
  rw [n.spelling_append]
  cases n.negative with
  | true => exact htail (Or.inr rfl)
  | false => exact htail (Or.inl rfl)

/-- The digits at the start of a text, and what is behind them. -/
theorem exists_digits (s : Bytes) :
    ∃ ds rest, s = ds ++ rest ∧ (∀ b ∈ ds, Ascii.isDigit b = true) ∧
      ∀ b ∈ rest.head?, Ascii.isDigit b = false := by
  induction s with
  | nil => exact ⟨[], [], rfl, fun _ hb => absurd hb List.not_mem_nil, fun _ hb => nomatch hb⟩
  | cons b s ih =>
      by_cases hb : Ascii.isDigit b = true
      · obtain ⟨ds, rest, rfl, hds, hrest⟩ := ih
        exact ⟨b :: ds, rest, rfl, List.forall_mem_cons.mpr ⟨hb, hds⟩, hrest⟩
      · refine ⟨[], b :: s, rfl, fun _ hb => absurd hb List.not_mem_nil, ?_⟩
        rintro c ⟨rfl⟩
        exact Bool.eq_false_iff.mpr hb

/-- Behind its digits, a number has ended. -/
theorem skipFrom_powerDigits (hrest : ∀ b ∈ rest.head?, Ascii.isDigit b = false) :
    skipFrom .powerDigits brackets rest = skipFrom .ended brackets rest := by
  cases rest with
  | nil => rfl
  | cons b rest =>
      apply skipFrom_congr
      simp [Skip.step, hrest b rfl]

theorem exists_digits_of_skipFrom_power (h : skipFrom (.power false) brackets s = .ok t) :
    ∃ ds rest, AreDigits ds ∧ s = ds ++ rest ∧ skipFrom .ended brackets rest = .ok t := by
  cases s with
  | nil => cases h
  | cons d s =>
      rw [skipFrom, Skip.step] at h
      simp only [Bool.false_and, Bool.false_eq_true, if_false] at h
      by_cases hd : Ascii.isDigit d = true
      · obtain ⟨ds, rest, rfl, hds, hrest⟩ := exists_digits s
        rw [if_pos hd] at h
        change skipFrom .powerDigits brackets (ds ++ rest) = _ at h
        rw [skipFrom_digits (Or.inr (Or.inr rfl)) hds, skipFrom_powerDigits hrest] at h
        exact ⟨d :: ds, rest, ⟨List.cons_ne_nil _ _, List.forall_mem_cons.mpr ⟨hd, hds⟩⟩, rfl, h⟩
      · rw [if_neg hd] at h
        cases h

/-- What is passed over behind the letter of a power is a sign, if need be, and digits. -/
theorem exists_power_of_skipFrom_power {letter : UInt8} (hletter : isExponentLetter letter = true)
    (h : skipFrom (.power true) brackets s = .ok t) :
    ∃ power rest, IsPower (letter :: power) ∧ s = power ++ rest ∧
      skipFrom .ended brackets rest = .ok t := by
  cases s with
  | nil => cases h
  | cons b s =>
      by_cases hsign : b = 0x2B ∨ b = 0x2D
      · have hstep : (Skip.power true).step brackets b = .go (.power false) brackets := by
          rcases hsign with rfl | rfl <;> rfl
        rw [skipFrom_go hstep] at h
        obtain ⟨ds, rest, hds, rfl, hrest⟩ := exists_digits_of_skipFrom_power h
        exact ⟨b :: ds, rest, .signed hletter hsign hds, rfl, hrest⟩
      · have hsame : (Skip.power true).step brackets b = (Skip.power false).step brackets b := by
          simp [Skip.step, not_or.mp hsign]
        rw [skipFrom_congr hsame] at h
        obtain ⟨ds, rest, hds, heq, hrest⟩ := exists_digits_of_skipFrom_power h
        exact ⟨ds, rest, .unsigned hletter hds, heq, hrest⟩

/-- What is passed over behind a fraction is a power, and then the number has ended. -/
theorem exists_power_of_skipFrom
    (hstate : state = .zero ∨ state = .digits ∨ state = .fraction true)
    (hs : ∀ b ∈ s.head?, Ascii.isDigit b = false ∧ (state ≠ .fraction true → b ≠ 0x2E))
    (h : skipFrom state brackets s = .ok t) :
    ∃ power rest, IsPower power ∧ s = power ++ rest ∧ skipFrom .ended brackets rest = .ok t := by
  cases s with
  | nil =>
      refine ⟨[], [], .none, rfl, ?_⟩
      rcases hstate with rfl | rfl | rfl <;> exact h
  | cons b s =>
      obtain ⟨hdigit, hpoint⟩ := hs b rfl
      by_cases hletter : isExponentLetter b = true
      · rw [skipFrom_exponentLetter hstate hletter] at h
        obtain ⟨power, rest, hpower, rfl, hrest⟩ := exists_power_of_skipFrom_power hletter h
        exact ⟨b :: power, rest, hpower, rfl, hrest⟩
      · refine ⟨[], b :: s, .none, rfl, ?_⟩
        rw [← h]
        symm
        apply skipFrom_congr
        simp only [isExponentLetter] at hletter
        rcases hstate with rfl | rfl | rfl
        · simp [Skip.step, hdigit, hpoint (by simp), hletter]
        · simp [Skip.step, hdigit, hpoint (by simp), hletter]
        · simp [Skip.step, hdigit, hletter]

theorem exists_digits_of_skipFrom_fraction (h : skipFrom (.fraction false) brackets s = .ok t) :
    ∃ ds rest, AreDigits ds ∧ s = ds ++ rest ∧ (∀ b ∈ rest.head?, Ascii.isDigit b = false) ∧
      skipFrom (.fraction true) brackets rest = .ok t := by
  cases s with
  | nil => cases h
  | cons d s =>
      by_cases hd : Ascii.isDigit d = true
      · have hdigit : (Skip.fraction false).step brackets d = .go (.fraction true) brackets := by
          simp [Skip.step, hd]
        obtain ⟨ds, rest, rfl, hds, hrest⟩ := exists_digits s
        rw [skipFrom_go hdigit, skipFrom_digits (Or.inr (Or.inl rfl)) hds] at h
        have hdigits : AreDigits (d :: ds) :=
          ⟨List.cons_ne_nil _ _, List.forall_mem_cons.mpr ⟨hd, hds⟩⟩
        exact ⟨d :: ds, rest, hdigits, rfl, hrest, h⟩
      · simp [skipFrom, Skip.step, hd, faultBefore] at h

/-- What is passed over behind a whole part is a fraction and a power. -/
theorem exists_fraction_of_skipFrom (hstate : state = .zero ∨ state = .digits)
    (hs : ∀ b ∈ s.head?, Ascii.isDigit b = false) (h : skipFrom state brackets s = .ok t) :
    ∃ fraction power rest, IsFraction fraction ∧ IsPower power ∧
      s = fraction ++ (power ++ rest) ∧ skipFrom .ended brackets rest = .ok t := by
  by_cases hpoint : ∃ u, s = 0x2E :: u
  · obtain ⟨u, rfl⟩ := hpoint
    have hstep : state.step brackets 0x2E = .go (.fraction false) brackets := by
      rcases hstate with rfl | rfl <;> rfl
    rw [skipFrom_go hstep] at h
    obtain ⟨ds, u, hds, rfl, hu, hfraction⟩ := exists_digits_of_skipFrom_fraction h
    have hhead : ∀ b ∈ u.head?, Ascii.isDigit b = false ∧
        (Skip.fraction true ≠ .fraction true → b ≠ 0x2E) :=
      fun b hb => ⟨hu b hb, fun hne => absurd rfl hne⟩
    obtain ⟨power, rest, hpower, rfl, hrest⟩ :=
      exists_power_of_skipFrom (Or.inr (Or.inr rfl)) hhead hfraction
    exact ⟨0x2E :: ds, power, rest, .digits hds, hpower, rfl, hrest⟩
  · have hhead : ∀ b ∈ s.head?, Ascii.isDigit b = false ∧ (state ≠ .fraction true → b ≠ 0x2E) := by
      intro b hb
      obtain ⟨u, rfl⟩ := List.head?_eq_some_iff.mp hb
      exact ⟨hs b hb, fun _ heq => hpoint ⟨u, heq ▸ rfl⟩⟩
    obtain ⟨power, rest, hpower, rfl, hrest⟩ :=
      exists_power_of_skipFrom (hstate.imp_right Or.inl) hhead h
    exact ⟨[], power, rest, .none, hpower, rfl, hrest⟩

/-- What is passed over as a whole part leads to a state with no digit to come. -/
theorem exists_whole_of_skipFrom (h : skipFrom .whole brackets s = .ok t) :
    ∃ whole rest state, IsWhole whole ∧ s = whole ++ rest ∧ (state = .zero ∨ state = .digits) ∧
      (∀ b ∈ rest.head?, Ascii.isDigit b = false) ∧ skipFrom state brackets rest = .ok t := by
  cases s with
  | nil => cases h
  | cons d s =>
      rw [skipFrom, Skip.step] at h
      split_ifs at h with hzero hd
      · refine ⟨[0x30], s, .zero, .zero, by rw [beq_iff_eq.mp hzero]; rfl, Or.inl rfl, ?_, h⟩
        intro b hb
        obtain ⟨u, rfl⟩ := List.head?_eq_some_iff.mp hb
        by_contra hdigit
        rw [Bool.not_eq_false] at hdigit
        simp [skipFrom, Skip.step, hdigit, faultBefore] at h
      · obtain ⟨ds, rest, rfl, hds, hrest⟩ := exists_digits s
        replace h : skipFrom .digits brackets (ds ++ rest) = _ := h
        rw [skipFrom_digits (Or.inl rfl) hds] at h
        have hne : d ≠ 0x30 := by simpa using hzero
        have hall : ∀ b ∈ d :: ds, Ascii.isDigit b = true := List.forall_mem_cons.mpr ⟨hd, hds⟩
        exact ⟨d :: ds, rest, .digits, .digits hne ⟨List.cons_ne_nil _ _, hall⟩, rfl, Or.inr rfl,
          hrest, h⟩
      · cases h

/-- A number that is passed over is spelled as the grammar says. -/
theorem exists_numeral_of_skipFrom (hb : startsNumber b = true)
    (h : skipFrom .value brackets (b :: s) = .ok t) :
    ∃ (n : Numeral) (rest : Bytes), b :: s = n.spelling ++ rest ∧
      skipFrom .ended brackets rest = .ok t := by
  have hnumeral : ∀ {u : Bytes} (negative : Bool), b :: s = sign negative ++ u →
      skipFrom .whole brackets u = .ok t → ∃ (n : Numeral) (rest : Bytes),
        b :: s = n.spelling ++ rest ∧ skipFrom .ended brackets rest = .ok t := by
    intro u negative hu hwhole
    obtain ⟨whole, v, state, hw, rfl, hstate, hhead, hv⟩ := exists_whole_of_skipFrom hwhole
    obtain ⟨fraction, power, rest, hf, hp, rfl, hrest⟩ :=
      exists_fraction_of_skipFrom hstate hhead hv
    refine ⟨⟨negative, whole, fraction, power, hw, hf, hp⟩, rest, ?_, hrest⟩
    rw [Numeral.spelling_append]
    exact hu
  by_cases hminus : b = 0x2D
  · subst hminus
    exact hnumeral true rfl h
  · have hdigit : Ascii.isDigit b = true := by
      simpa [startsNumber, hminus] using hb
    have hsame : Skip.value.step brackets b = Skip.whole.step brackets b := by
      by_cases hzero : b = 0x30
      · subst hzero
        rfl
      · rw [step_value_of_isDigit hdigit hzero]
        simp [Skip.step, hdigit, hzero]
    rw [skipFrom_congr hsame] at h
    exact hnumeral false rfl h

end Numerals

end RestGateway.Json
