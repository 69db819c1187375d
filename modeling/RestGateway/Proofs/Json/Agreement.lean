import RestGateway.Proofs.Json.Skipped

/-!
# Messages are read as the grammar and the meaning of trees have them

A reader agrees with a meaning of trees if it reads a spelling of a tree exactly if the tree has a
meaning, as this meaning, and reads nothing but spellings of trees. Readers of scalars agree, and so
do the readers of values that may be null, of lists and of records that are made of them.
-/

namespace RestGateway.Json

/-- What reading comes to: a value in front of the rest, or a fault if there is no value. -/
def Answers {α : Type} (answer : Reading α) (rest : Bytes) : Option α → Prop
  | some a => answer = .ok (a, rest)
  | none => ∃ f, answer = .error f

theorem Answers.map {α β : Type} {answer : Reading α} {rest : Bytes} {value : Option α}
    (h : Answers answer rest value) (g : α → β) :
    Answers (answer.map fun p => (g p.1, p.2)) rest (value.map g) := by
  cases value with
  | some a =>
      cases (h : answer = .ok (a, rest))
      rfl
  | none =>
      obtain ⟨f, rfl⟩ := h
      exact ⟨f, rfl⟩

/-- What is read first decides what comes of the whole: a fault stays a fault, and a value is read
on from. -/
theorem Answers.bind {α β : Type} {first : Reading α} {whole : Reading β} {t rest : Bytes}
    {value : Option α} {g : α → Option β} (h : Answers first t value)
    (herror : ∀ f, first = .error f → whole = .error f)
    (hok : ∀ a, first = .ok (a, t) → Answers whole rest (g a)) :
    Answers whole rest (value.bind g) := by
  cases value with
  | some a => exact hok a h
  | none =>
      obtain ⟨f, hf⟩ := h
      exact ⟨f, herror f hf⟩

/-- A reader reads trees as what they mean. -/
structure Agrees {α : Type} (read : Bytes → Reading α) (value? : Tree → Option α) : Prop where
  answers : ∀ {s t rest v}, Blanks s t → Spells (.value v) t rest → Stops rest →
    Answers (read s) rest (value? v)
  spelled : ∀ {s rest a}, read s = .ok (a, rest) → ∃ v t, Blanks s t ∧ Spells (.value v) t rest

variable {s t u rest : Bytes} {b : UInt8} {v : Tree} {vs : List Tree} {first : Bool}

/-- Behind blanks, a spelling starts with a byte that tells the kind of the tree. -/
theorem Spells.skipBlank_eq (h : Spells (.value v) t rest) (hblank : Blanks s t) :
    ∃ b u, t = b :: u ∧ skipBlank s = b :: u ∧ Shape.ofByte? b = some v.shape := by
  obtain ⟨b, u, rfl, hb⟩ := h.exists_cons
  exact ⟨b, u, rfl, hblank.skipBlank_of_cons (Shape.not_blank hb).1, hb⟩

section Scalars

theorem Content.unique {rest' : Bytes} (h : Content s rest) (h' : Content s rest') :
    rest = rest' := by
  have hskip : ∀ {r}, Content s r → skipFrom (.string false) [] s = .ok r := by
    intro r hr
    rw [hr.skipFrom_eq]
    cases r <;> rfl
  exact Except.ok.inj ((hskip h).symm.trans (hskip h'))

/-- A string is read as the text that it stands for, if there is one. -/
theorem IsString.readString_answers {text : Option String} (h : IsString s text rest) :
    Answers (readString s) rest text := by
  cases text with
  | some text => exact readString_eq_ok_iff.mpr ((h.text text).mp rfl)
  | none =>
      cases hs : readString s with
      | error f => exact ⟨f, rfl⟩
      | ok p =>
          have hstands := readString_eq_ok_iff.mp (hs : readString s = .ok (p.1, p.2))
          rw [← h.content.unique hstands.content] at hstands
          cases (h.text p.1).mpr hstands

theorem agrees_text : Agrees readText Tree.text? where
  answers {s t rest v} hblank h _ := by
    obtain ⟨b, u, ht, hskip, hb⟩ := h.skipBlank_eq hblank
    have hother : v.shape ≠ .string → Answers (readText s) rest none := by
      intro hne
      rw [readText, hskip]
      split
      · rename_i heq
        cases heq
        exact absurd (Option.some.inj hb).symm hne
      · exact ⟨_, rfl⟩
    cases h with
    | @string text _ _ h =>
        cases ht
        have hread : readText s = readString u := by
          rw [readText, hskip]
          rfl
        rw [Tree.text?, hread]
        exact h.readString_answers
    | _ => exact hother Shape.noConfusion
  spelled {s rest a} h := by
    unfold readText at h
    split at h
    · rename_i u hskip
      have hstring := isString_of_readString h
      exact ⟨.string (some a), _, (blanks_of_skipBlank hskip).1, .string hstring⟩
    · cases h

theorem agrees_integer : Agrees readInt64 Tree.integer? where
  answers {s t rest v} hblank h hrest := by
    obtain ⟨b, u, ht, hskip, hb⟩ := h.skipBlank_eq hblank
    have hother : v.shape ≠ .number → Answers (readInt64 s) rest none := by
      intro hne
      rw [readInt64, hskip]
      refine ⟨_, if_neg fun hnumber => hne ?_⟩
      exact (Option.some.inj ((if_pos hnumber).symm.trans hb)).symm
    cases h with
    | number n rest =>
        rw [Tree.integer?]
        cases hn : n.integer? with
        | some i => exact (n.readInt64_eq_ok_iff hblank hrest).mpr ⟨rfl, hn⟩
        | none =>
            cases hs : readInt64 s with
            | error f => exact ⟨f, rfl⟩
            | ok p =>
                have hp := (n.readInt64_eq_ok_iff hblank hrest).mp
                  (hs : readInt64 s = .ok (p.1, p.2))
                rw [hn] at hp
                cases hp.2
    | _ => exact hother Shape.noConfusion
  spelled {s rest a} h := by
    obtain ⟨n, hn⟩ := exists_numeral_of_readInt64 h
    exact ⟨.number n, _, hn, .number n rest⟩

end Scalars

section Optional

variable {α : Type} {read : Bytes → Reading α} {value? : Tree → Option α}

theorem eq_append_of_readWord {letters : Bytes} (h : readWord letters s = .ok rest) :
    s = letters ++ rest := by
  induction letters generalizing s with
  | nil =>
      cases s <;> exact Except.ok.inj h
  | cons letter letters ih =>
      cases s with
      | nil => cases h
      | cons b s =>
          rw [readWord] at h
          split_ifs at h with hb
          · rw [beq_iff_eq.mp hb, ih h]
            rfl
          · cases h

theorem Agrees.nullable (h : Agrees read value?) :
    Agrees (readOptional read) (Tree.nullable? value?) where
  answers {s t rest v} hblank hv hrest := by
    obtain ⟨b, u, ht, hskip, hb⟩ := hv.skipBlank_eq hblank
    have hread := h.answers (Blanks.refl _) hv hrest
    have hother : v.shape ≠ .null → Answers (readOptional read s) rest ((value? v).map some) := by
      intro hne
      rw [readOptional, hskip]
      split
      · rename_i heq
        cases heq
        exact absurd (Option.some.inj hb).symm hne
      · rw [← ht, Option.map_eq_bind]
        refine hread.bind (fun f hf => ?_) fun a ha => ?_
        · rw [hf]
        · rw [ha]
          rfl
    cases hv with
    | null rest =>
        rw [readOptional, hskip, ← ht]
        rfl
    | _ => exact hother Shape.noConfusion
  spelled {s rest a} hread := by
    unfold readOptional at hread
    split at hread
    · rename_i u hskip
      split at hread
      · rename_i rest' hword
        cases hread
        rw [eq_append_of_readWord hword] at hskip
        exact ⟨.null, _, (blanks_of_skipBlank hskip).1, .null rest⟩
      · cases hread
    · split at hread
      · rename_i a' rest' hvalue
        cases hread
        obtain ⟨v, t, hblank, hv⟩ := h.spelled hvalue
        exact ⟨v, t, (blanks_skipBlank s).trans hblank, hv⟩
      · cases hread

end Optional

section Elements

/-- In front of an item there is the item. -/
theorem nextElement_of_separated (h : Separated first s (b :: u)) (hblank : isBlank b = false)
    (hclose : b ≠ 0x5D) : nextElement first s = .ok (some (b :: u)) := by
  cases first with
  | true =>
      rw [nextElement, Blanks.skipBlank_of_cons h hblank]
      simp [hclose]
  | false =>
      obtain ⟨w, hw, hu⟩ := h
      rw [nextElement, hw.skipBlank_of_cons rfl]
      simp [hu.skipBlank_of_cons hblank, hclose]

theorem nextElement_of_closing (h : Blanks s (0x5D :: rest)) : nextElement first s = .ok none := by
  rw [nextElement, h.skipBlank_of_cons rfl]
  rfl

/-- What is in front of an item, or of the end of the list. -/
theorem of_nextElement {next : Option Bytes} (h : nextElement first s = .ok next) :
    (∃ rest, Blanks s (0x5D :: rest)) ∧ next = none ∨ ∃ t, next = some t ∧ Separated first s t := by
  unfold nextElement at h
  cases hskip : skipBlank s with
  | nil =>
      rw [hskip] at h
      cases h
  | cons b u =>
      have hblanks := (blanks_of_skipBlank hskip).1
      simp only [hskip] at h
      split_ifs at h with hclose hfirst hcomma
      · cases h
        exact Or.inl ⟨⟨u, beq_iff_eq.mp hclose ▸ hblanks⟩, rfl⟩
      · cases h
        rw [hfirst]
        exact Or.inr ⟨_, rfl, hblanks⟩
      · cases hskip' : skipBlank u with
        | nil =>
            simp only [hskip'] at h
            cases h
        | cons c w =>
            simp only [hskip'] at h
            split_ifs at h
            · cases h
            · cases h
              rw [Bool.not_eq_true] at hfirst
              rw [hfirst]
              exact Or.inr ⟨_, rfl, u, beq_iff_eq.mp hcomma ▸ hblanks,
                (blanks_of_skipBlank hskip').1⟩
      · cases h

variable {α : Type} {read : Bytes → Reading α} {value? : Tree → Option α}

/-- The elements of a list are read one by one. The clock runs as long as there is text. -/
theorem Agrees.readElements_answers (h : Agrees read value?) {done : List α} {clock : Bytes}
    (hvs : Spells (.elements done.isEmpty vs) s rest) (hclock : s.length ≤ clock.length) :
    Answers (readElements read done clock s) rest
      ((vs.mapM value?).map (done.reverse ++ ·)) := by
  induction vs generalizing done clock s with
  | nil =>
      obtain ⟨c, clock, rfl⟩ := List.exists_cons_of_length_pos
        (Nat.lt_of_lt_of_le (Nat.zero_lt_of_lt hvs.length_lt) hclock)
      cases hvs with
      | closeList hclose =>
          have hend : (skipBlank s).drop 1 = rest := by
            rw [hclose.skipBlank_of_cons rfl]
            rfl
          rw [readElements, nextElement_of_closing hclose]
          change Except.ok (done.reverse, (skipBlank s).drop 1) = .ok (done.reverse ++ [], rest)
          rw [hend, List.append_nil]
  | cons v vs ih =>
      obtain ⟨c, clock, rfl⟩ := List.exists_cons_of_length_pos
        (Nat.lt_of_lt_of_le (Nat.zero_lt_of_lt hvs.length_lt) hclock)
      cases hvs with
      | @element _ _ _ _ t u _ hseparated hv hvs =>
          have hread := h.answers (Blanks.refl _) hv hvs.stops_of_elements
          have hlt : u.length ≤ clock.length := by
            have hle := hseparated.length_le
            have hlt := hv.length_lt
            simp only [List.length_cons] at hclock
            omega
          obtain ⟨b, w, rfl, hb⟩ := hv.exists_cons
          obtain ⟨hblank, hclose⟩ := Shape.not_blank hb
          rw [readElements, nextElement_of_separated hseparated hblank hclose, List.mapM_cons]
          have hmap : ((value? v).bind fun a => (vs.mapM value?).bind fun as => some (a :: as)).map
              (done.reverse ++ ·) =
              (value? v).bind fun a => (vs.mapM value?).map ((a :: done).reverse ++ ·) := by
            cases value? v <;> cases vs.mapM value? <;> simp
          refine hmap ▸ hread.bind (fun f hf => ?_) fun a ha => ?_
          · simp only [hf]
          · simp only [ha]
            exact ih hvs hlt

/-- What is read of a list of elements: the end of the list, or the next element. -/
theorem of_readElements {done as : List α} {c : UInt8} {clock : Bytes}
    (h : readElements read done (c :: clock) s = .ok (as, rest)) :
    Blanks s (0x5D :: rest) ∨
      ∃ t u a, Separated done.isEmpty s t ∧ read t = .ok (a, u) ∧
        readElements read (a :: done) clock u = .ok (as, rest) := by
  rw [readElements] at h
  split at h
  · cases h
  · rename_i hnext
    cases h
    rcases of_nextElement hnext with ⟨⟨t, ht⟩, -⟩ | ⟨t, hsome, -⟩
    · rw [ht.skipBlank_of_cons rfl]
      exact Or.inl ht
    · cases hsome
  · rename_i t hnext
    split at h
    · cases h
    · rename_i a u hvalue
      rcases of_nextElement hnext with ⟨-, hnone⟩ | ⟨t', hsome, hseparated⟩
      · cases hnone
      · cases hsome
        exact Or.inr ⟨t, u, a, hseparated, hvalue, h⟩

/-- The elements that are read are spelled. -/
theorem Agrees.exists_elements (h : Agrees read value?) {done as : List α} {clock : Bytes}
    (hread : readElements read done clock s = .ok (as, rest)) :
    ∃ vs, Spells (.elements done.isEmpty vs) s rest := by
  induction clock generalizing done s with
  | nil => cases hread
  | cons c clock ih =>
      rcases of_readElements hread with hclose | ⟨t, u, a, hseparated, hvalue, hread⟩
      · exact ⟨[], .closeList hclose⟩
      · obtain ⟨v, w, hblank, hv⟩ := h.spelled hvalue
        obtain ⟨vs, hvs⟩ := ih hread
        exact ⟨v :: vs, .element (hseparated.trans_blanks hblank) hv hvs⟩

theorem Agrees.list (h : Agrees read value?) : Agrees (readList read) (Tree.list? value?) where
  answers {s t rest v} hblank hv hrest := by
    obtain ⟨b, u, ht, hskip, hb⟩ := hv.skipBlank_eq hblank
    have hother : v.shape ≠ .list → Answers (readList read s) rest none := by
      intro hne
      rw [readList, hskip]
      split
      · rename_i heq
        cases heq
        exact absurd (Option.some.inj hb).symm hne
      · exact ⟨_, rfl⟩
    cases hv with
    | @list vs _ _ hvs =>
        cases ht
        have hread := @Agrees.readElements_answers _ _ _ _ _ _ h [] u hvs (Nat.le_refl _)
        rw [readList, hskip]
        simpa [Tree.list?] using hread
    | _ => exact hother Shape.noConfusion
  spelled {s rest as} hread := by
    unfold readList at hread
    split at hread
    · rename_i u hskip
      obtain ⟨vs, hvs⟩ := h.exists_elements hread
      exact ⟨.list vs, _, (blanks_of_skipBlank hskip).1, .list hvs⟩
    · cases hread

end Elements

end RestGateway.Json
