import RestGateway.Proofs.Json.Agreement

/-!
# Records are read as the meaning of trees has them

The members of an object are read in the order of the text into the slots of their fields. What
comes of it depends on the members of each field alone, so their order does not matter, and neither
do members that no field has.
-/

namespace RestGateway.Json

variable {κ : Type} {Value : κ → Type} {value? : (k : κ) → Tree → Option (Value k)}
  {unset : (k : κ) → Value k} {fs : List (Field κ)} {ms : List Tree.Member} {name : String}
  {v : Tree}

namespace Tree

section Slots

variable (value? unset)

/-- The slot of a field with the value of a member, unless it is taken. -/
def take? (k : κ) (v : Tree) : Option (Value k) → Option (Option (Value k))
  | some _ => none
  | none => (value? k v).map some

/-- The slots with the value of a member in the slot of its field, if it has one. -/
def put? (name : String) (v : Tree) : {fs : List (Field κ)} → Slots Value fs →
    Option (Slots Value fs)
  | [], _ => some ()
  | f :: _, (slot, slots) =>
    if name == f.name then (take? value? f.kind v slot).map fun slot => (slot, slots)
    else (put? name v slots).map fun slots => (slot, slots)

/-- The value of a field from its slot, which is taken or free, and the members that are left. -/
def slot? (k : κ) : Option (Value k) → List Tree → Option (Value k)
  | none, vs => field? value? unset k vs
  | some a, [] => some a
  | some _, _ :: _ => none

/-- The fields of an object from slots that are partly taken. -/
def fill? (ms : List Member) : {fs : List (Field κ)} → Slots Value fs → Option (Record Value fs)
  | [], _ => some ()
  | f :: _, (slot, slots) =>
    (slot? value? unset f.kind slot (valuesOf f.name ms)).bind fun value =>
      (fill? ms slots).map fun values => (value, values)

end Slots

theorem fill?_field (f : Field κ) (slot : Option (Value f.kind)) (slots : Slots Value fs) :
    @fill? κ Value value? unset ms (f :: fs) (slot, slots) =
      (slot? value? unset f.kind slot (valuesOf f.name ms)).bind fun value =>
        (fill? value? unset ms slots).map fun values => (value, values) :=
  rfl

theorem fill?_nil (slots : Slots Value fs) :
    fill? value? unset [] slots = some (slots.close unset) := by
  induction fs with
  | nil => rfl
  | cons f fs ih =>
      obtain ⟨slot, slots⟩ := slots
      rw [fill?_field, ih slots]
      cases slot <;> rfl

theorem fill?_noSlots (ms : List Member) :
    fill? value? unset ms (noSlots fs) = fields? value? unset ms fs := by
  induction fs with
  | nil => rfl
  | cons f fs ih =>
      have hslots : noSlots (f :: fs) = ((none, noSlots fs) : Slots Value (f :: fs)) := rfl
      rw [hslots, fill?_field, ih, fields?]
      cases fields? value? unset ms fs <;> rfl

/-- A member that no field has leaves the fields as they are. -/
theorem fill?_cons_of_not_mem (h : name ∉ fs.map Field.name) (slots : Slots Value fs) :
    fill? value? unset ((some name, v) :: ms) slots = fill? value? unset ms slots := by
  induction fs with
  | nil => rfl
  | cons f fs ih =>
      obtain ⟨slot, slots⟩ := slots
      rw [List.map_cons, List.mem_cons, not_or] at h
      rw [fill?_field, fill?_field, valuesOf_cons_of_ne (by simpa using h.1), ih h.2]

/-- A member is the value of its field, or one too many. -/
theorem slot?_cons (k : κ) (slot : Option (Value k)) (v : Tree) (vs : List Tree) :
    slot? value? unset k slot (v :: vs) =
      (take? value? k v slot).bind fun slot => slot? value? unset k slot vs := by
  cases slot with
  | some a => rfl
  | none => cases hv : value? k v <;> cases vs <;> simp [slot?, take?, field?, hv]

theorem put?_field (f : Field κ) (slot : Option (Value f.kind)) (slots : Slots Value fs) :
    @put? κ Value value? name v (f :: fs) (slot, slots) =
      if name == f.name then (take? value? f.kind v slot).map fun slot => (slot, slots)
      else (put? value? name v slots).map fun slots => (slot, slots) :=
  rfl

/-- A member in front is put into the slot of its field. -/
theorem fill?_cons (hnames : NamesDistinct fs) (slots : Slots Value fs) :
    fill? value? unset ((some name, v) :: ms) slots =
      (put? value? name v slots).bind (fill? value? unset ms) := by
  induction fs with
  | nil => rfl
  | cons f fs ih =>
      obtain ⟨slot, slots⟩ := slots
      obtain ⟨hf, hnames⟩ := List.nodup_cons.mp hnames
      rw [fill?_field, put?_field]
      by_cases hname : name = f.name
      · subst hname
        rw [valuesOf_cons_self, fill?_cons_of_not_mem hf, slot?_cons, if_pos (beq_self_eq_true _)]
        cases take? value? f.kind v slot <;> rfl
      · rw [if_neg (by simpa using hname), valuesOf_cons_of_ne (by simpa using hname), ih hnames]
        cases put? value? name v slots with
        | none => cases slot? value? unset f.kind slot (valuesOf f.name ms) <;> rfl
        | some slots' => rfl

end Tree

variable {read : (k : κ) → Bytes → Reading (Value k)} {s t u w x rest : Bytes} {b : UInt8}
  {first : Bool} {vs : List Tree}

section Members

theorem nextMember_of_separated (h : Separated first s (0x22 :: t)) :
    nextMember first s = .ok (.name t) := by
  cases first with
  | true =>
      rw [nextMember, Blanks.skipBlank_of_cons h rfl]
      rfl
  | false =>
      obtain ⟨u, hu, ht⟩ := h
      rw [nextMember, hu.skipBlank_of_cons rfl]
      simp [ht.skipBlank_of_cons rfl]

theorem nextMember_of_closing (h : Blanks s (0x7D :: rest)) :
    nextMember first s = .ok (.close rest) := by
  rw [nextMember, h.skipBlank_of_cons rfl]
  rfl

/-- What is in front of a member, or of the end of the object. -/
theorem of_nextMember {next : NextMember} (h : nextMember first s = .ok next) :
    (∃ rest, next = .close rest ∧ Blanks s (0x7D :: rest)) ∨
      ∃ t, next = .name t ∧ Separated first s (0x22 :: t) := by
  unfold nextMember at h
  cases hskip : skipBlank s with
  | nil =>
      rw [hskip] at h
      cases h
  | cons b u =>
      have hblanks := (blanks_of_skipBlank hskip).1
      simp only [hskip] at h
      split_ifs at h with hclose hfirst hquote hcomma
      · cases h
        exact Or.inl ⟨u, rfl, beq_iff_eq.mp hclose ▸ hblanks⟩
      · cases h
        rw [hfirst]
        exact Or.inr ⟨_, rfl, beq_iff_eq.mp hquote ▸ hblanks⟩
      · cases h
      · cases hskip' : skipBlank u with
        | nil =>
            simp only [hskip'] at h
            cases h
        | cons c w =>
            simp only [hskip'] at h
            split_ifs at h with hquote
            · cases h
              rw [Bool.not_eq_true] at hfirst
              rw [hfirst]
              exact Or.inr ⟨_, rfl, u, beq_iff_eq.mp hcomma ▸ hblanks,
                beq_iff_eq.mp hquote ▸ (blanks_of_skipBlank hskip').1⟩
            · cases h
            · cases h
      · cases h

theorem readColon_eq_ok_iff : readColon s = .ok t ↔ Blanks s (0x3A :: t) := by
  constructor
  · intro h
    unfold readColon at h
    cases hskip : skipBlank s with
    | nil =>
        rw [hskip] at h
        cases h
    | cons b u =>
        simp only [hskip] at h
        split_ifs at h with hcolon
        · cases h
          exact beq_iff_eq.mp hcolon ▸ (blanks_of_skipBlank hskip).1
        · cases h
  · intro h
    rw [readColon, h.skipBlank_of_cons rfl]
    rfl

/-- A member of a field that has one already. -/
theorem readMember_taken (f : Field κ) (a : Value f.kind) (slots : Slots Value fs) :
    @readMember κ Value read f.name (f :: fs) (some a, slots) s =
      .error ⟨.duplicateField f.name, afterName s⟩ :=
  if_pos (beq_self_eq_true f.name)

/-- A member of a field that has none yet. -/
theorem readMember_free (f : Field κ) (slots : Slots Value fs) :
    @readMember κ Value read f.name (f :: fs) (none, slots) s =
      (readColon s).bind fun t => (read f.kind t).map fun p => ((some p.1, slots), p.2) := by
  refine (if_pos (beq_self_eq_true f.name)).trans ?_
  cases readColon s with
  | error e => rfl
  | ok t =>
      dsimp only [Except.bind]
      cases read f.kind t <;> rfl

/-- A member of another field. -/
theorem readMember_of_ne {f : Field κ} (hname : name ≠ f.name) (slot : Option (Value f.kind))
    (slots : Slots Value fs) :
    @readMember κ Value read name (f :: fs) (slot, slots) s =
      (readMember read name slots s).map fun p => ((slot, p.1), p.2) := by
  refine (if_neg (by simpa using hname)).trans ?_
  cases readMember read name slots s <;> rfl

/-- A member is read into the slot of its field, or skipped. -/
theorem readMember_answers (h : ∀ f ∈ fs, Agrees (read f.kind) (value? f.kind))
    (hcolon : Blanks s (0x3A :: t)) (hblank : Blanks t u) (hv : Spells (.value v) u rest)
    (hrest : Stops rest) (slots : Slots Value fs) :
    Answers (readMember read name slots s) rest (Tree.put? value? name v slots) := by
  have hcolon := readColon_eq_ok_iff.mpr hcolon
  induction fs with
  | nil =>
      rw [readMember, hcolon]
      simp only [hv.skipValue_eq hblank hrest]
      rfl
  | cons f fs ih =>
      obtain ⟨slot, slots⟩ := slots
      rw [Tree.put?_field]
      by_cases hname : name = f.name
      · subst hname
        have hread := (h f List.mem_cons_self).answers hblank hv hrest
        rw [if_pos (beq_self_eq_true _)]
        cases slot with
        | some a => exact ⟨_, readMember_taken f a slots⟩
        | none =>
            rw [readMember_free, hcolon, Tree.take?, Option.map_map]
            exact hread.map fun a => (some a, slots)
      · have hrest := ih (fun g hg => h g (List.mem_cons_of_mem _ hg)) slots
        rw [readMember_of_ne hname, if_neg (by simpa using hname)]
        exact hrest.map fun slots => (slot, slots)

theorem exists_of_map_eq_ok {α β : Type} {answer : Reading α} (g : α → β) {a : β}
    (h : answer.map (fun p => (g p.1, p.2)) = .ok (a, rest)) : ∃ a, answer = .ok (a, rest) := by
  cases answer with
  | error f => cases h
  | ok p =>
      cases h
      exact ⟨p.1, rfl⟩

/-- A member that is read is spelled. -/
theorem exists_value_of_readMember (h : ∀ f ∈ fs, Agrees (read f.kind) (value? f.kind))
    {slots slots' : Slots Value fs} (hread : readMember read name slots s = .ok (slots', rest)) :
    ∃ v t u, Blanks s (0x3A :: t) ∧ Blanks t u ∧ Spells (.value v) u rest := by
  induction fs with
  | nil =>
      rw [readMember] at hread
      split at hread
      · cases hread
      · rename_i t hcolon
        split at hread
        · cases hread
        · rename_i rest' hskip
          cases hread
          obtain ⟨v, u, hblank, hv⟩ := exists_spells_of_skipValue hskip
          exact ⟨v, t, u, readColon_eq_ok_iff.mp hcolon, hblank, hv⟩
  | cons f fs ih =>
      obtain ⟨slot, slots⟩ := slots
      by_cases hname : name = f.name
      · subst hname
        cases slot with
        | some a =>
            rw [readMember_taken] at hread
            cases hread
        | none =>
            rw [readMember_free] at hread
            cases hcolon : readColon s with
            | error f =>
                rw [hcolon] at hread
                cases hread
            | ok t =>
                rw [hcolon] at hread
                obtain ⟨a, ha⟩ := exists_of_map_eq_ok (fun a => (some a, slots)) hread
                obtain ⟨v, u, hblank, hv⟩ := (h f List.mem_cons_self).spelled ha
                exact ⟨v, t, u, readColon_eq_ok_iff.mp hcolon, hblank, hv⟩
      · rw [readMember_of_ne hname] at hread
        obtain ⟨slots'', hslots⟩ := exists_of_map_eq_ok (fun slots => (slot, slots)) hread
        exact ih (fun g hg => h g (List.mem_cons_of_mem _ hg)) hslots

/-- The members of an object are read one by one. The clock runs as long as there is text. -/
theorem readMembers_answers (hnames : NamesDistinct fs)
    (h : ∀ f ∈ fs, Agrees (read f.kind) (value? f.kind)) {clock : Bytes}
    (hms : Spells (.members first ms) s rest) (hclock : s.length ≤ clock.length)
    (slots : Slots Value fs) :
    Answers (readMembers read unset first slots clock s) rest
      (if ms.all fun m => m.1.isSome then Tree.fill? value? unset ms slots else none) := by
  induction ms generalizing first slots clock s with
  | nil =>
      obtain ⟨c, clock, rfl⟩ := List.exists_cons_of_length_pos
        (Nat.lt_of_lt_of_le (Nat.zero_lt_of_lt hms.length_lt) hclock)
      cases hms with
      | closeObject hclose =>
          rw [readMembers, nextMember_of_closing hclose, if_pos List.all_nil, Tree.fill?_nil]
          rfl
  | cons m ms ih =>
      obtain ⟨c, clock, rfl⟩ := List.exists_cons_of_length_pos
        (Nat.lt_of_lt_of_le (Nat.zero_lt_of_lt hms.length_lt) hclock)
      cases hms with
      | @member _ name v _ _ t u w x y _ hseparated hname hcolon hblank hv hms =>
          have hlt : y.length ≤ clock.length := by
            have h₁ := hseparated.length_le
            have h₂ := hname.content.length_lt
            have h₃ := hcolon.length_lt
            have h₄ := hblank.length_le
            have h₅ := hv.length_lt
            simp only [List.length_cons] at h₁ hclock
            omega
          rw [readMembers, nextMember_of_separated hseparated]
          cases name with
          | none =>
              rw [if_neg (by simp)]
              obtain ⟨f, hf⟩ := hname.readString_answers
              simp only [hf]
              exact ⟨f, rfl⟩
          | some name =>
              have hread : Answers (readMember read name slots u) y
                  (Tree.put? value? name v slots) :=
                readMember_answers h hcolon hblank hv hms.stops_of_members slots
              have hall : (((some name, v) :: ms).all fun m => m.1.isSome) =
                  ms.all fun m => m.1.isSome := by simp
              have hstring : readString t = .ok (name, u) := hname.readString_answers
              simp only [hstring]
              have hbind : (if ms.all fun m => m.1.isSome then
                  (Tree.put? value? name v slots).bind (Tree.fill? value? unset ms) else none) =
                  (Tree.put? value? name v slots).bind fun slots =>
                    if ms.all fun m => m.1.isSome then Tree.fill? value? unset ms slots
                    else none := by
                split <;> simp
              rw [hall, Tree.fill?_cons hnames, hbind]
              refine hread.bind (fun f hf => ?_) fun slots' hslots => ?_
              · simp only [hf]
              · simp only [hslots]
                exact ih hms hlt slots'

/-- What is read of a list of members: the end of the object, or the next member. -/
theorem of_readMembers {clock : Bytes} {slots : Slots Value fs} {c : UInt8} {r : Record Value fs}
    (h : readMembers read unset first slots (c :: clock) s = .ok (r, rest)) :
    Blanks s (0x7D :: rest) ∨
      ∃ name t u w slots', Separated first s (0x22 :: t) ∧ readString t = .ok (name, u) ∧
        readMember read name slots u = .ok (slots', w) ∧
        readMembers read unset false slots' clock w = .ok (r, rest) := by
  rw [readMembers] at h
  split at h
  · cases h
  · rename_i s' hnext
    cases h
    rcases of_nextMember hnext with ⟨rest', heq, hclose⟩ | ⟨t, heq, -⟩
    · cases heq
      exact Or.inl hclose
    · cases heq
  · rename_i t hnext
    have hseparated : Separated first s (0x22 :: t) := by
      rcases of_nextMember hnext with ⟨rest', heq, -⟩ | ⟨t', heq, hseparated⟩
      · cases heq
      · cases heq
        exact hseparated
    split at h
    · cases h
    · rename_i name u hname
      split at h
      · cases h
      · rename_i slots' w hmember
        exact Or.inr ⟨name, t, u, w, slots', hseparated, hname, hmember, h⟩

/-- The members that are read are spelled, with names that are texts. -/
theorem exists_members (h : ∀ f ∈ fs, Agrees (read f.kind) (value? f.kind)) {clock : Bytes}
    {slots : Slots Value fs} {r : Record Value fs}
    (hread : readMembers read unset first slots clock s = .ok (r, rest)) :
    ∃ ms, Spells (.members first ms) s rest := by
  induction clock generalizing first slots s with
  | nil => cases hread
  | cons c clock ih =>
      rcases of_readMembers hread with hclose | hnext
      · exact ⟨[], .closeObject hclose⟩
      · obtain ⟨name, t, u, w, slots', hseparated, hname, hmember, hread⟩ := hnext
        obtain ⟨v, x, y, hcolon, hblank, hv⟩ := exists_value_of_readMember h hmember
        obtain ⟨ms, hms⟩ := ih hread
        have hmember := Spells.member hseparated (isString_of_readString hname) hcolon hblank hv hms
        exact ⟨(some name, v) :: ms, hmember⟩

end Members

section Positions

theorem endList_eq_ok_iff : endList s = .ok t ↔ Blanks s (0x5D :: t) := by
  constructor
  · intro h
    unfold endList at h
    cases hskip : skipBlank s with
    | nil =>
        rw [hskip] at h
        cases h
    | cons b u =>
        simp only [hskip] at h
        split_ifs at h with hclose hcomma
        · cases h
          exact beq_iff_eq.mp hclose ▸ (blanks_of_skipBlank hskip).1
        · cases hskip' : skipBlank u <;> rw [hskip'] at h <;> cases h
        · cases h
  · intro h
    rw [endList, h.skipBlank_of_cons rfl]
    rfl

/-- In front of an element a list does not end. -/
theorem endList_of_separated (h : Separated first s (b :: t)) (hblank : isBlank b = false)
    (hclose : b ≠ 0x5D) : ∃ f, endList s = .error f := by
  cases hend : endList s with
  | error f => exact ⟨f, rfl⟩
  | ok rest =>
      have hskip := (endList_eq_ok_iff.mp hend).skipBlank_of_cons rfl
      cases first with
      | true =>
          rw [Blanks.skipBlank_of_cons h hblank] at hskip
          exact absurd (List.cons.inj hskip).1 hclose
      | false =>
          obtain ⟨u, hu, _⟩ := h
          rw [hu.skipBlank_of_cons rfl] at hskip
          cases hskip

/-- The fields of a list are read one by one, and those behind its end are unset. -/
theorem readPositions_answers (h : ∀ f ∈ fs, Agrees (read f.kind) (value? f.kind))
    (hvs : Spells (.elements first vs) s rest) :
    Answers (readPositions read unset first fs s) rest (Tree.positions? value? unset fs vs) := by
  induction fs generalizing first vs s with
  | nil =>
      rw [readPositions]
      cases hvs with
      | closeList hclose =>
          rw [endList_eq_ok_iff.mpr hclose]
          rfl
      | element hseparated hv _ =>
          obtain ⟨b, w, rfl, hb⟩ := hv.exists_cons
          obtain ⟨hblank, hclose⟩ := Shape.not_blank hb
          obtain ⟨f, hf⟩ := endList_of_separated hseparated hblank hclose
          rw [hf]
          exact ⟨f, rfl⟩
  | cons f fs ih =>
      have hfs : ∀ g ∈ fs, Agrees (read g.kind) (value? g.kind) :=
        fun g hg => h g (List.mem_cons_of_mem _ hg)
      rw [readPositions]
      cases hvs with
      | closeList hclose =>
          have hclosed : Spells (.elements first []) s rest := .closeList hclose
          rw [nextElement_of_closing hclose, Tree.positions?]
          refine (ih hfs hclosed).bind (fun f hf => ?_) fun values hvalues => ?_
          · simp only [hf]
          · simp only [hvalues]
            rfl
      | @element _ v vs _ t u _ hseparated hv hvs =>
          have hread := (h f List.mem_cons_self).answers (Blanks.refl t) hv hvs.stops_of_elements
          obtain ⟨b, w, rfl, hb⟩ := hv.exists_cons
          obtain ⟨hblank, hclose⟩ := Shape.not_blank hb
          rw [nextElement_of_separated hseparated hblank hclose, Tree.positions?]
          refine hread.bind (fun f hf => ?_) fun value hvalue => ?_
          · simp only [hf]
          · refine (ih hfs hvs).bind (fun f hf => ?_) fun values hvalues => ?_
            · simp only [hvalue, hf]
            · simp only [hvalue, hvalues]
              rfl

/-- What is read of a field: nothing if the list has ended, or the next element. -/
theorem of_readPositions_cons {f : Field κ} {r : Record Value (f :: fs)}
    (h : readPositions read unset first (f :: fs) s = .ok (r, rest)) :
    (∃ values, readPositions read unset first fs s = .ok (values, rest)) ∨
      ∃ t u value values, Separated first s t ∧ read f.kind t = .ok (value, u) ∧
        readPositions read unset false fs u = .ok (values, rest) := by
  rw [readPositions] at h
  split at h
  · cases h
  · split at h
    · cases h
    · rename_i values s' hvalues
      cases h
      exact Or.inl ⟨values, hvalues⟩
  · rename_i t hnext
    have hseparated : Separated first s t := by
      rcases of_nextElement hnext with ⟨-, hnone⟩ | ⟨t', ht, hseparated⟩
      · cases hnone
      · cases ht
        exact hseparated
    split at h
    · cases h
    · rename_i value u hvalue
      split at h
      · cases h
      · rename_i values s' hvalues
        cases h
        exact Or.inr ⟨t, u, value, values, hseparated, hvalue, hvalues⟩

/-- The elements that are read as fields are spelled. -/
theorem exists_positions (h : ∀ f ∈ fs, Agrees (read f.kind) (value? f.kind))
    {r : Record Value fs} (hread : readPositions read unset first fs s = .ok (r, rest)) :
    ∃ vs, Spells (.elements first vs) s rest := by
  induction fs generalizing first s with
  | nil =>
      rw [readPositions] at hread
      split at hread
      · cases hread
      · rename_i rest' hend
        cases hread
        exact ⟨[], .closeList (endList_eq_ok_iff.mp hend)⟩
  | cons f fs ih =>
      have hfs : ∀ g ∈ fs, Agrees (read g.kind) (value? g.kind) :=
        fun g hg => h g (List.mem_cons_of_mem _ hg)
      rcases of_readPositions_cons hread with ⟨values, hvalues⟩ | hnext
      · exact ih hfs hvalues
      · obtain ⟨t, u, value, values, hseparated, hvalue, hvalues⟩ := hnext
        obtain ⟨v, w, hblank, hv⟩ := (h f List.mem_cons_self).spelled hvalue
        obtain ⟨vs, hvs⟩ := ih hfs hvalues
        exact ⟨v :: vs, .element (hseparated.trans_blanks hblank) hv hvs⟩

end Positions

end RestGateway.Json
