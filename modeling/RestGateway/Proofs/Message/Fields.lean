import RestGateway.Message.Schema

/-!
# Single fields of a message

A message is determined by what its fields hold. A field is found by its position in the schema, and
changing one field leaves the others as they are.
-/

namespace RestGateway

namespace Record

variable {κ : Type} {Value : κ → Type}

/-- The value of the field at a position. -/
def get : {fs : List (Field κ)} → Record Value fs → (i : Fin fs.length) → Value fs[i].kind
  | _ :: _, (v, _), ⟨0, _⟩ => v
  | _ :: _, (_, vs), ⟨i + 1, h⟩ => get vs ⟨i, Nat.lt_of_succ_lt_succ h⟩

/-- The record with another value at a position. -/
def set : {fs : List (Field κ)} → Record Value fs → (i : Fin fs.length) → Value fs[i].kind →
    Record Value fs
  | _ :: _, (_, vs), ⟨0, _⟩, w => (w, vs)
  | _ :: _, (v, vs), ⟨i + 1, h⟩, w => (v, set vs ⟨i, Nat.lt_of_succ_lt_succ h⟩ w)

variable {fs : List (Field κ)}

theorem get_set_self (r : Record Value fs) (i : Fin fs.length) (v : Value fs[i].kind) :
    (r.set i v).get i = v := by
  induction fs with
  | nil => exact i.elim0
  | cons f fs ih =>
      obtain ⟨w, ws⟩ := r
      obtain ⟨_ | i, hi⟩ := i
      · rfl
      · exact ih ws ⟨i, Nat.lt_of_succ_lt_succ hi⟩ v

theorem get_set_of_ne (r : Record Value fs) {i j : Fin fs.length} (hne : j ≠ i)
    (v : Value fs[i].kind) : (r.set i v).get j = r.get j := by
  induction fs with
  | nil => exact i.elim0
  | cons f fs ih =>
      obtain ⟨w, ws⟩ := r
      obtain ⟨_ | i, hi⟩ := i
      · obtain ⟨_ | j, hj⟩ := j
        · exact absurd rfl hne
        · rfl
      · obtain ⟨_ | j, hj⟩ := j
        · rfl
        · apply ih
          intro heq
          apply hne
          exact Fin.ext (congrArg (· + 1) (Fin.mk.inj heq))

theorem ext {r r' : Record Value fs} (h : ∀ i, r.get i = r'.get i) : r = r' := by
  induction fs with
  | nil => rfl
  | cons f fs ih =>
      apply Prod.ext
      · exact h ⟨0, Nat.zero_lt_succ _⟩
      · apply ih
        intro i
        exact h ⟨i.val + 1, Nat.succ_lt_succ i.isLt⟩

end Record

namespace Message

/-- The positions of the fields of a message. -/
abbrev Position (α : Type) [Message α] : Type := Fin (schema α).fields.length

/-- What the field at a position holds. -/
abbrev FieldValue (α : Type) [Message α] (i : Position α) : Type := (schema α).fields[i].kind.Value

variable {α : Type} [Message α]

/-- What a message holds at a position. -/
def field (m : α) (i : Position α) : FieldValue α i := (toRecord m).get i

/-- The message with another value at a position. -/
def setField (i : Position α) (m : α) (v : FieldValue α i) : α := ofRecord ((toRecord m).set i v)

@[simp] theorem field_setField_self (i : Position α) (m : α) (v : FieldValue α i) :
    field (setField i m v) i = v := by
  rw [field, setField, toRecord_ofRecord, Record.get_set_self]

theorem field_setField_of_ne {i j : Position α} (hne : j ≠ i) (m : α) (v : FieldValue α i) :
    field (setField i m v) j = field m j := by
  rw [field, setField, toRecord_ofRecord, Record.get_set_of_ne _ hne]
  rfl

/-- Messages that hold the same in every field are the same. -/
theorem eq_of_field_eq {m m' : α} (h : ∀ i, field m i = field m' i) : m = m' := by
  rw [← ofRecord_toRecord m, ← ofRecord_toRecord m', Record.ext h]

/-- Two messages hold the same in every field outside some positions. -/
def AgreeOutside (is : List (Position α)) (m m' : α) : Prop := ∀ i ∉ is, field m i = field m' i

theorem eq_of_agreeOutside_nil {m m' : α} (h : AgreeOutside [] m m') : m = m' :=
  eq_of_field_eq fun i => h i List.not_mem_nil

/-- Where both messages get the same value at a position, they agree there too. -/
theorem AgreeOutside.setField {i : Position α} {is : List (Position α)} {m m' : α}
    (h : AgreeOutside (i :: is) m m') (v : FieldValue α i) :
    AgreeOutside is (setField i m v) (setField i m' v) := by
  intro j hj
  by_cases hji : j = i
  · subst hji
    rw [field_setField_self, field_setField_self]
  · rw [field_setField_of_ne hji, field_setField_of_ne hji]
    apply h
    rw [List.mem_cons]
    exact not_or.mpr ⟨hji, hj⟩

end Message

end RestGateway
