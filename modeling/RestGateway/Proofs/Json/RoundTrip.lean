import RestGateway.Json.Record
import RestGateway.Proofs.Json.Integer
import RestGateway.Proofs.Json.Text
import RestGateway.Proofs.Text.Pieces

/-!
# Reading back records in JSON

What is written of a value is read as the value in front of everything that ends it (`Yields`).
The members of an object fill the slots of their fields one after the other (`Fills`). A field
without a member keeps its slot empty and comes back unset, which is what it was.
-/

namespace RestGateway.Json

/-- A text starts like a value, and neither like a null nor like the end of a list. -/
def StartsValue (s : Bytes) : Prop :=
  ∃ b t, s = b :: t ∧ isBlank b = false ∧ b ≠ 0x6E ∧ b ≠ 0x5D

/-- Bytes are read as a value, in front of everything that ends it. -/
structure Yields {α : Type} (read : Bytes → Reading α) (bytes : Bytes) (v : α) : Prop where
  starts : StartsValue bytes
  reads : ∀ rest, EndsValue rest → read (bytes ++ rest) = .ok (v, rest)

theorem endsValue_cons {b : UInt8} (h : b = 0x2C ∨ b = 0x5D ∨ b = 0x7D) (s : Bytes) :
    EndsValue (b :: s) :=
  Or.inr ⟨b, s, rfl, h⟩

/-- A value in front of other values and of a bracket that closes ends where it should. -/
theorem endsValue_rest (ms : List Bytes) {b : UInt8} (h : b = 0x2C ∨ b = 0x5D ∨ b = 0x7D)
    (rest : Bytes) : EndsValue (ms.flatMap (0x2C :: ·) ++ b :: rest) := by
  cases ms with
  | nil => exact endsValue_cons h rest
  | cons m ms => exact endsValue_cons (Or.inl rfl) _

theorem skipBlank_cons {b : UInt8} (h : isBlank b = false) (s : Bytes) :
    skipBlank (b :: s) = b :: s := by
  simp [skipBlank, h]

theorem StartsValue.skipBlank_append {s : Bytes} (h : StartsValue s) (rest : Bytes) :
    skipBlank (s ++ rest) = s ++ rest := by
  obtain ⟨b, t, rfl, hb, _⟩ := h
  exact skipBlank_cons hb (t ++ rest)

section Values

/-- A text in quotes is read back, whatever follows. -/
theorem readText_writeString (text : String) (rest : Bytes) :
    readText (writeString text ++ rest) = .ok (text, rest) := by
  have happend : writeString text ++ rest =
      0x22 :: (text.toList.flatMap writeChar ++ 0x22 :: rest) := by
    simp [writeString]
  rw [happend, readText, skipBlank_cons (by decide)]
  exact readString_writeChars text rest

theorem yields_writeString (text : String) : Yields readText (writeString text) text where
  starts := ⟨0x22, _, rfl, by decide, by decide, by decide⟩
  reads rest _ := readText_writeString text rest

/-- Bytes that numbers start with do not start anything else. -/
theorem not_blank_of_startsNumber {b : UInt8} (h : startsNumber b = true) :
    isBlank b = false ∧ b ≠ 0x6E ∧ b ≠ 0x5D := by
  refine ⟨?_, ?_, ?_⟩
  · rw [Bool.eq_false_iff]
    intro hb
    simp only [isBlank, Bool.or_eq_true, beq_iff_eq] at hb
    rcases hb with ((rfl | rfl) | rfl) | rfl <;> exact absurd h (by decide)
  · rintro rfl
    exact absurd h (by decide)
  · rintro rfl
    exact absurd h (by decide)

theorem yields_writeInteger (n : Int64) : Yields readInt64 (writeInteger n.toInt) n := by
  obtain ⟨b, t, hb, hs⟩ := startsNumber_writeInteger n.toInt
  have hstarts : StartsValue (writeInteger n.toInt) := ⟨b, t, hb, not_blank_of_startsNumber hs⟩
  refine ⟨hstarts, fun rest hrest => ?_⟩
  have hread := readNumber_writeInteger n.le_toInt n.toInt_lt hrest
  have hfits : n.toInt < Nat.pow 2 63 := n.toInt_lt
  rw [readInt64, hstarts.skipBlank_append]
  rw [hb, List.cons_append] at hread ⊢
  simp only [if_pos hs, hread, if_pos hfits, Int64.ofInt_toInt]

variable {α : Type} {read : Bytes → Reading α}

/-- A value that is there is read where it may be null. -/
theorem Yields.optional {bytes : Bytes} {v : α} (h : Yields read bytes v) :
    Yields (readOptional read) bytes (some v) where
  starts := h.starts
  reads rest hrest := by
    rw [readOptional, h.starts.skipBlank_append]
    obtain ⟨b, t, rfl, _, hnull, _⟩ := h.starts
    split
    · rename_i heq
      cases heq
      exact absurd rfl hnull
    · rw [h.reads rest hrest]

theorem nextElement_first {s : Bytes} (h : StartsValue s) (rest : Bytes) :
    nextElement true (s ++ rest) = .ok (some (s ++ rest)) := by
  rw [nextElement, h.skipBlank_append]
  obtain ⟨b, t, rfl, _, _, hclose⟩ := h
  simp [hclose]

theorem nextElement_comma {s : Bytes} (h : StartsValue s) (rest : Bytes) :
    nextElement false (0x2C :: (s ++ rest)) = .ok (some (s ++ rest)) := by
  rw [nextElement, skipBlank_cons (by decide)]
  simp only [h.skipBlank_append]
  obtain ⟨b, t, rfl, _, _, hclose⟩ := h
  simp [hclose]

/-- An element is read, and the next one has to follow a comma. -/
theorem readElements_some {done : List α} {s s' rest : Bytes} {v : α}
    (hnext : nextElement done.isEmpty s = .ok (some s')) (hread : read s' = .ok (v, rest))
    {clock : Bytes} (hclock : clock ≠ []) :
    readElements read done clock s = readElements read (v :: done) clock.tail rest := by
  obtain ⟨b, clock, rfl⟩ := List.exists_cons_of_ne_nil hclock
  rw [readElements, hnext]
  simp only [hread, List.tail_cons]

/-- The elements behind the first one are read up to the bracket that closes the list. -/
theorem readElements_rest {write : α → Bytes} (h : ∀ v, Yields read (write v) v) (vs : List α)
    {done : List α} (hdone : done ≠ []) (rest : Bytes) {clock : Bytes}
    (hclock : vs.length < clock.length) :
    readElements read done clock ((vs.map write).flatMap (0x2C :: ·) ++ 0x5D :: rest) =
      .ok (done.reverse ++ vs, rest) := by
  have hne : clock ≠ [] := List.ne_nil_of_length_pos (Nat.zero_lt_of_lt hclock)
  have hfirst : done.isEmpty = false := by simpa using hdone
  induction vs generalizing done clock with
  | nil =>
      obtain ⟨b, clock, rfl⟩ := List.exists_cons_of_ne_nil hne
      have hnext : nextElement false (0x5D :: rest) = .ok none := rfl
      rw [List.map_nil, List.flatMap_nil, List.nil_append, readElements, hfirst, hnext,
        List.append_nil]
      rfl
  | cons v vs ih =>
      have hlt : vs.length < clock.tail.length := by
        rw [List.length_tail]
        exact Nat.lt_sub_of_add_lt hclock
      have hends := endsValue_rest (vs.map write) (Or.inr (Or.inl rfl)) rest
      have hnext := nextElement_comma (h v).starts
        ((vs.map write).flatMap (0x2C :: ·) ++ 0x5D :: rest)
      rw [← hfirst] at hnext
      rw [List.map_cons, List.flatMap_cons, List.append_assoc, List.cons_append,
        readElements_some hnext ((h v).reads _ hends) hne,
        ih (List.cons_ne_nil v done) hlt (List.ne_nil_of_length_pos (Nat.zero_lt_of_lt hlt)) rfl,
        List.reverse_cons, List.append_assoc, List.singleton_append]

/-- A list is read back. -/
theorem yields_writeList {write : α → Bytes} (h : ∀ v, Yields read (write v) v) (vs : List α) :
    Yields (readList read) (writeList (vs.map write)) vs := by
  refine ⟨⟨0x5B, _, rfl, by decide, by decide, by decide⟩, fun rest _ => ?_⟩
  have happend : writeList (vs.map write) ++ rest =
      0x5B :: (joined 0x2C (vs.map write) ++ 0x5D :: rest) := by
    simp [writeList]
  rw [happend, readList, skipBlank_cons (by decide)]
  cases vs with
  | nil => rfl
  | cons v vs =>
      have hends := endsValue_rest (vs.map write) (Or.inr (Or.inl rfl)) rest
      have hnext := nextElement_first (h v).starts
        ((vs.map write).flatMap (0x2C :: ·) ++ 0x5D :: rest)
      have hlt : vs.length <
          (write v ++ ((vs.map write).flatMap (0x2C :: ·) ++ 0x5D :: rest)).tail.length := by
        have hle := length_le_length_flatMap_cons (0x2C : UInt8) (vs.map write)
        obtain ⟨b, t, hw, _⟩ := (h v).starts
        rw [List.length_map] at hle
        rw [hw, List.cons_append, List.tail_cons, List.length_append, List.length_append,
          List.length_cons]
        omega
      rw [List.map_cons, joined_cons, List.append_assoc]
      refine (@readElements_some α read [] _ _ _ v hnext ((h v).reads _ hends) _ ?_).trans ?_
      · exact List.ne_nil_of_length_pos (Nat.lt_of_lt_of_le (Nat.zero_lt_of_lt hlt) (by simp))
      · exact readElements_rest h vs (List.cons_ne_nil v []) rest hlt

end Values

section Records

variable {κ : Type} {Value : κ → Type}

/-- What is written of a value is read back, and a value of which nothing is written is unset. -/
structure Keeps (read : (k : κ) → Bytes → Reading (Value k)) (unset : (k : κ) → Value k)
    (write : (k : κ) → Value k → Option Bytes) (k : κ) (v : Value k) : Prop where
  unset : write k v = none → v = unset k
  reads : ∀ bytes, write k v = some bytes → Yields (read k) bytes v

/-- The members of an object fill slots of fields. -/
inductive Fills (read : (k : κ) → Bytes → Reading (Value k)) {fs : List (Field κ)} :
    Slots Value fs → List Bytes → Slots Value fs → Prop
  | none {slots : Slots Value fs} : Fills read slots [] slots
  | one {slots slots' slots'' : Slots Value fs} {name : String} {bytes : Bytes} {ms : List Bytes}
      (hname : name ∈ fs.map Field.name)
      (hread : ∀ rest, EndsValue rest →
        readMember read name slots (0x3A :: (bytes ++ rest)) = .ok (slots', rest))
      (hrest : Fills read slots' ms slots'') :
      Fills read slots ((writeString name ++ 0x3A :: bytes) :: ms) slots''

variable {read : (k : κ) → Bytes → Reading (Value k)} {unset : (k : κ) → Value k}
  {write : (k : κ) → Value k → Option Bytes}

/-- Members of other fields leave the slot of the first field as it is. -/
theorem Fills.cons {f : Field κ} {fs : List (Field κ)} (hf : f.name ∉ fs.map Field.name)
    {slots slots' : Slots Value fs} {ms : List Bytes} (h : Fills read slots ms slots')
    (slot : Option (Value f.kind)) :
    @Fills κ Value read (f :: fs) (slot, slots) ms (slot, slots') := by
  induction h with
  | none => exact Fills.none
  | @one slots slots' slots'' name bytes ms hname hread hrest ih =>
      refine Fills.one (List.mem_cons_of_mem _ hname) (fun rest hends => ?_) ih
      have hne : ¬ (name == f.name) = true := by
        rw [beq_iff_eq]
        exact fun heq => hf (heq ▸ hname)
      -- The slots of a record are a pair, and the member is looked for in the second part.
      refine (if_neg hne).trans ?_
      rw [hread rest hends]

/-- What is written of a record fills its slots with the values of the record. -/
theorem fills_members {fs : List (Field κ)} (hnames : (fs.map Field.name).Nodup)
    (h : ∀ f ∈ fs, ∀ v, Keeps read unset write f.kind v) (r : Record Value fs) :
    ∃ slots, Fills read (noSlots fs) (members write r) slots ∧ slots.close unset = r := by
  induction fs with
  | nil => exact ⟨(), Fills.none, rfl⟩
  | cons f fs ih =>
      obtain ⟨v, vs⟩ := r
      obtain ⟨hf, hnames⟩ := List.nodup_cons.mp hnames
      obtain ⟨slots, hfills, hclose⟩ := ih hnames (fun g hg => h g (List.mem_cons_of_mem _ hg)) vs
      have hv := h f List.mem_cons_self v
      cases hw : write f.kind v with
      | none =>
          refine ⟨(none, slots), ?_, Prod.ext (hv.unset hw).symm hclose⟩
          rw [members, hw]
          exact hfills.cons hf none
      | some bytes =>
          refine ⟨(some v, slots), ?_, Prod.ext rfl hclose⟩
          rw [members, hw]
          refine Fills.one List.mem_cons_self (fun rest hends => ?_) (hfills.cons hf (some v))
          have hcolon : readColon (0x3A :: (bytes ++ rest)) = .ok (bytes ++ rest) := rfl
          rw [noSlots, Record.fill, readMember, if_pos (beq_self_eq_true f.name)]
          simp only [hcolon, (hv.reads bytes hw).reads rest hends]
          rfl

/-- A member is read into the slots, and the next one has to follow a comma. -/
theorem readMembers_name {fs : List (Field κ)} {slots slots' : Slots Value fs} {first : Bool}
    {name : String} {bytes s rest : Bytes}
    (hnext : nextMember first s =
      .ok (.name (name.toList.flatMap writeChar ++ 0x22 :: 0x3A :: (bytes ++ rest))))
    (hread : readMember read name slots (0x3A :: (bytes ++ rest)) = .ok (slots', rest))
    (b : UInt8) (clock : Bytes) :
    readMembers read unset first slots (b :: clock) s =
      readMembers read unset false slots' clock rest := by
  rw [readMembers, hnext]
  simp only [readString_writeChars, hread]

/-- The members behind the first one are read up to the brace that closes the object. -/
theorem Fills.readMembers_rest {fs : List (Field κ)} {slots slots' : Slots Value fs}
    {ms : List Bytes} (h : Fills read slots ms slots') (rest : Bytes) {clock : Bytes}
    (hclock : ms.length < clock.length) :
    readMembers read unset false slots clock (ms.flatMap (0x2C :: ·) ++ 0x7D :: rest) =
      .ok (slots'.close unset, rest) := by
  induction h generalizing clock with
  | none =>
      obtain ⟨b, clock, rfl⟩ := List.exists_cons_of_length_pos hclock
      rfl
  | @one slots slots' slots'' name bytes ms hname hread hrest ih =>
      obtain ⟨b, clock, rfl⟩ := List.exists_cons_of_length_pos (Nat.zero_lt_of_lt hclock)
      have happend : ((writeString name ++ 0x3A :: bytes) :: ms).flatMap (0x2C :: ·) ++
          0x7D :: rest = 0x2C :: 0x22 :: (name.toList.flatMap writeChar ++
            0x22 :: 0x3A :: (bytes ++ (ms.flatMap (0x2C :: ·) ++ 0x7D :: rest))) := by
        simp [writeString]
      rw [happend, readMembers_name rfl (hread _ (endsValue_rest ms (Or.inr (Or.inr rfl)) rest))]
      exact ih (Nat.lt_of_succ_lt_succ hclock)

/-- The members of an object are read up to the brace that closes it. -/
theorem Fills.readMembers {fs : List (Field κ)} {slots slots' : Slots Value fs}
    {ms : List Bytes} (h : Fills read slots ms slots') (rest : Bytes) :
    Json.readMembers read unset true slots (joined 0x2C ms ++ 0x7D :: rest)
      (joined 0x2C ms ++ 0x7D :: rest) = .ok (slots'.close unset, rest) := by
  cases h with
  | none => rfl
  | @one _ slots' _ name bytes ms hname hread hrest =>
      have happend : joined 0x2C ((writeString name ++ 0x3A :: bytes) :: ms) ++ 0x7D :: rest =
          0x22 :: (name.toList.flatMap writeChar ++
            0x22 :: 0x3A :: (bytes ++ (ms.flatMap (0x2C :: ·) ++ 0x7D :: rest))) := by
        rw [joined_cons]
        simp [writeString]
      rw [happend, readMembers_name rfl (hread _ (endsValue_rest ms (Or.inr (Or.inr rfl)) rest))]
      refine hrest.readMembers_rest rest ?_
      have hle := length_le_length_flatMap_cons (0x2C : UInt8) ms
      simp only [List.length_append, List.length_cons]
      omega

/-- An object with what is written of a record is read back. -/
theorem yields_writeObject {fs : List (Field κ)} (hnames : (fs.map Field.name).Nodup)
    (h : ∀ f ∈ fs, ∀ v, Keeps read unset write f.kind v) (name : String) (r : Record Value fs) :
    Yields (readRecord read unset name fs) (writeObject (members write r)) r := by
  refine ⟨⟨0x7B, _, rfl, by decide, by decide, by decide⟩, fun rest _ => ?_⟩
  have happend : writeObject (members write r) ++ rest =
      0x7B :: (joined 0x2C (members write r) ++ 0x7D :: rest) := by
    simp [writeObject]
  obtain ⟨slots, hfills, hclose⟩ := fills_members hnames h r
  rw [happend, readRecord, skipBlank_cons (by decide)]
  exact (hfills.readMembers rest).trans (by rw [hclose])

end Records

/-- Every scalar is read back, or left out if it is unset. -/
theorem keeps_writeScalar (k : Scalar) (v : k.Value) :
    Keeps readScalar Scalar.unset writeScalar k v := by
  constructor
  · intro hw
    cases k with
    | text =>
        by_cases hv : v = ""
        · exact hv
        · exact absurd ((if_neg hv).symm.trans hw) (by simp)
    | optionalText => exact Option.map_eq_none_iff.mp hw
    | optionalInt => exact Option.map_eq_none_iff.mp hw
  · intro bytes hw
    cases k with
    | text =>
        by_cases hv : v = ""
        · exact absurd ((if_pos hv).symm.trans hw) (by simp)
        · cases (if_neg hv).symm.trans hw
          exact yields_writeString v
    | optionalText =>
        obtain ⟨s, rfl, rfl⟩ := Option.map_eq_some_iff.mp hw
        exact (yields_writeString s).optional
    | optionalInt =>
        obtain ⟨n, rfl, rfl⟩ := Option.map_eq_some_iff.mp hw
        exact (yields_writeInteger n).optional

/-- Names of fields that do not collide. -/
def NamesDistinct {κ : Type} (fs : List (Field κ)) : Prop := (fs.map Field.name).Nodup

instance {κ : Type} (fs : List (Field κ)) : Decidable (NamesDistinct fs) :=
  inferInstanceAs (Decidable (List.Nodup _))

/-- A record of scalars is read back. -/
theorem yields_writeFlat {t : RecordType} (ht : NamesDistinct t.fields) (r : t.Value) :
    Yields (readFlat t) (writeFlat r) r :=
  yields_writeObject ht (fun _ _ v => keeps_writeScalar _ v) t.name r

/-- Names of the fields in a kind do not collide. -/
def NestedNamesDistinct : Kind → Prop
  | .scalar _ => True
  | .optional t => NamesDistinct t.fields
  | .repeated t => NamesDistinct t.fields

instance : (k : Kind) → Decidable (NestedNamesDistinct k)
  | .scalar _ => inferInstanceAs (Decidable True)
  | .optional t => inferInstanceAs (Decidable (NamesDistinct t.fields))
  | .repeated t => inferInstanceAs (Decidable (NamesDistinct t.fields))

/-- Every value of a field is read back, or left out if it is unset. -/
theorem keeps_writeKind {k : Kind} (hk : NestedNamesDistinct k) (v : k.Value) :
    Keeps readKind Kind.unset writeKind k v := by
  cases k with
  | scalar k =>
      obtain ⟨hunset, hreads⟩ := keeps_writeScalar k v
      exact ⟨hunset, hreads⟩
  | optional t =>
      constructor
      · intro hw
        exact Option.map_eq_none_iff.mp hw
      · intro bytes hw
        obtain ⟨r, rfl, rfl⟩ := Option.map_eq_some_iff.mp hw
        exact (yields_writeFlat hk r).optional
  | repeated t =>
      constructor
      · intro hw
        cases hw
      · intro bytes hw
        cases hw
        exact yields_writeList (yields_writeFlat hk) v

/-- Names of the fields of a message and of the messages in it do not collide. -/
def Named (schema : Schema) : Prop :=
  NamesDistinct schema.fields ∧ ∀ f ∈ schema.fields, NestedNamesDistinct f.kind

instance (schema : Schema) : Decidable (Named schema) := inferInstanceAs (Decidable (_ ∧ _))

/-- A message that is written is read back. -/
theorem decode_encode {α : Type} [Message α] (hs : Named (Message.schema α)) (m : α) :
    decode α (encode m) = .ok m := by
  have hyields := yields_writeObject hs.1 (fun f hf v => keeps_writeKind (hs.2 f hf) v)
    (Message.schema α).name (Message.toRecord m)
  have hread := hyields.reads [] (Or.inl rfl)
  rw [List.append_nil] at hread
  have hrecord : decodeRecord (Message.schema α) (encode m) = .ok (Message.toRecord m) := by
    rw [decodeRecord, encode, hread]
    rfl
  rw [decode, hrecord]
  exact congrArg Except.ok (Message.ofRecord_toRecord m)

end RestGateway.Json
