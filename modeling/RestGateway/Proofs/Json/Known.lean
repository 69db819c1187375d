import RestGateway.Proofs.Json.RoundTrip
import RestGateway.Proofs.Json.Same

/-!
# What is known of a tree

Members that no field has can be left out, at the top and in the records inside, and the tree means
the same. What is left out leaves no trace because every field without a member is unset.
-/

namespace RestGateway.Json

namespace Tree

section Definitions

variable {κ : Type}

/-- A member that is kept: with the name of a field, and what is known of its value. A name that is
no text stays, because no record has such a member. -/
def knownMember? (known : κ → Tree → Tree) (fs : List (Field κ)) : Member → Option Member
  | (none, v) => some (none, v)
  | (some name, v) => (fs.find? fun f => f.name == name).map fun f => (some name, known f.kind v)

/-- What is known of a record. -/
def knownRecord (known : κ → Tree → Tree) (fs : List (Field κ)) : Tree → Tree
  | .object ms => .object (ms.filterMap (knownMember? known fs))
  | v => v

/-- What is known of a record of scalars. -/
def knownFlat (t : RecordType) : Tree → Tree := knownRecord (fun _ v => v) t.fields

/-- What is known of the value of a field. -/
def knownKind : Kind → Tree → Tree
  | .scalar _, v => v
  | .optional t, v => knownFlat t v
  | .repeated t, .list vs => .list (vs.map (knownFlat t))
  | .repeated _, v => v

/-- What is known of a message. -/
def known (schema : Schema) : Tree → Tree := knownRecord knownKind schema.fields

end Definitions

section Records

variable {κ : Type} {Value : κ → Type} {value? : (k : κ) → Tree → Option (Value k)}
  {unset : (k : κ) → Value k} {known : κ → Tree → Tree} {fs : List (Field κ)} {ms : List Member}

theorem find?_name {f : Field κ} (hnames : NamesDistinct fs) (hf : f ∈ fs) :
    (fs.find? fun g => g.name == f.name) = some f := by
  induction fs with
  | nil => cases hf
  | cons g fs ih =>
      obtain ⟨hg, hnames⟩ := List.nodup_cons.mp hnames
      rcases List.mem_cons.mp hf with rfl | hf
      · exact List.find?_cons_of_pos (beq_self_eq_true f.name)
      · rw [List.find?_cons_of_neg, ih hnames hf]
        intro heq
        rw [beq_iff_eq.mp heq] at hg
        exact hg (List.mem_map_of_mem hf)

theorem knownMember?_cases (known : κ → Tree → Tree) (fs : List (Field κ)) (m : Member) :
    knownMember? known fs m = none ∨ ∃ v, knownMember? known fs m = some (m.1, v) := by
  obtain ⟨name, v⟩ := m
  cases name with
  | none => exact Or.inr ⟨v, rfl⟩
  | some name =>
      rw [knownMember?]
      cases fs.find? fun f => f.name == name with
      | none => exact Or.inl rfl
      | some f => exact Or.inr ⟨known f.kind v, rfl⟩

/-- The values of a field are kept. -/
theorem valuesOf_known {f : Field κ} (hnames : NamesDistinct fs) (hf : f ∈ fs) :
    valuesOf f.name (ms.filterMap (knownMember? known fs)) =
      (valuesOf f.name ms).map (known f.kind) := by
  induction ms with
  | nil => rfl
  | cons m ms ih =>
      obtain ⟨name, v⟩ := m
      by_cases hname : name = some f.name
      · subst hname
        have hkept : knownMember? known fs (some f.name, v) =
            some (some f.name, known f.kind v) := by
          rw [knownMember?, find?_name hnames hf]
          rfl
        rw [List.filterMap_cons_some hkept, valuesOf_cons_self, valuesOf_cons_self, ih]
        rfl
      · rw [valuesOf_cons_of_ne hname, ← ih]
        rcases knownMember?_cases known fs (name, v) with hkept | ⟨v', hkept⟩
        · rw [List.filterMap_cons_none hkept]
        · rw [List.filterMap_cons_some hkept, valuesOf_cons_of_ne hname]

theorem all_isSome_known :
    ((ms.filterMap (knownMember? known fs)).all fun m => m.1.isSome) =
      ms.all fun m => m.1.isSome := by
  induction ms with
  | nil => rfl
  | cons m ms ih =>
      obtain ⟨name, v⟩ := m
      rw [List.filterMap_cons, List.all_cons, ← ih]
      cases name with
      | none => rfl
      | some name => rw [knownMember?]; cases fs.find? fun f => f.name == name <;> rfl

theorem field?_map {k : κ} (hvalue : ∀ v, value? k (known k v) = value? k v) (vs : List Tree) :
    field? value? unset k (vs.map (known k)) = field? value? unset k vs := by
  match vs with
  | [] => rfl
  | [v] => exact hvalue v
  | _ :: _ :: _ => rfl

theorem fields?_known (hnames : NamesDistinct fs)
    (hvalue : ∀ f ∈ fs, ∀ v, value? f.kind (known f.kind v) = value? f.kind v)
    {gs : List (Field κ)} (hgs : gs ⊆ fs) :
    fields? value? unset (ms.filterMap (knownMember? known fs)) gs =
      fields? value? unset ms gs := by
  induction gs with
  | nil => rfl
  | cons g gs ih =>
      obtain ⟨hg, hgs⟩ := List.cons_subset.mp hgs
      rw [fields?, fields?, valuesOf_known hnames hg, field?_map (hvalue g hg), ih hgs]

/-- What is known of a record means the same. -/
theorem record?_known (hnames : NamesDistinct fs)
    (hvalue : ∀ f ∈ fs, ∀ v, value? f.kind (known f.kind v) = value? f.kind v) (v : Tree) :
    record? value? unset fs (knownRecord known fs v) = record? value? unset fs v := by
  cases v with
  | object ms =>
      rw [knownRecord, record?, record?, all_isSome_known,
        fields?_known hnames hvalue (List.Subset.refl fs)]
  | _ => rfl

end Records

theorem flat?_known {t : RecordType} (ht : NamesDistinct t.fields) (v : Tree) :
    flat? t (knownFlat t v) = flat? t v :=
  record?_known ht (fun _ _ _ => rfl) v

theorem kind?_known {k : Kind} (hk : NestedNamesDistinct k) (v : Tree) :
    kind? k (knownKind k v) = kind? k v := by
  cases k with
  | scalar k => rfl
  | optional t =>
      have hflat := flat?_known hk v
      cases v with
      | object ms => exact congrArg (Option.map some) hflat
      | _ => rfl
  | repeated t =>
      cases v with
      | list vs =>
          rw [knownKind, kind?, list?, list?, List.mapM_map]
          exact congrArg (vs.mapM ·) (funext (flat?_known hk))
      | _ => rfl

/-- What is known of a message means the same. -/
theorem message?_known {schema : Schema} (hs : Named schema) (v : Tree) :
    message? schema (Tree.known schema v) = message? schema v :=
  record?_known hs.1 (fun f hf => kind?_known (hs.2 f hf)) v

section Absent

section Definitions

variable {κ : Type} {Value : κ → Type}

/-- The fields of an object that no member is for are unset, and so are those inside the values of
the others. -/
def LeavesUnset (unset : (k : κ) → Value k) (inside : (k : κ) → Tree → Value k → Prop)
    (ms : List Member) : {fs : List (Field κ)} → Record Value fs → Prop
  | [], _ => True
  | f :: _, (value, values) =>
    (valuesOf f.name ms = [] → value = unset f.kind) ∧
      (∀ v, valuesOf f.name ms = [v] → inside f.kind v value) ∧ LeavesUnset unset inside ms values

/-- The fields of a record of scalars that no member is for are unset. -/
def FlatLeavesUnset (t : RecordType) (v : Tree) (r : t.Value) : Prop :=
  ∀ ms, v = .object ms → LeavesUnset Scalar.unset (fun _ _ _ => True) ms r

/-- So are those of the records in the value of a field. -/
def KindLeavesUnset : (k : Kind) → Tree → k.Value → Prop
  | .scalar _, _, _ => True
  | .optional t, v, r => ∀ r' : t.Value, r = some r' → FlatLeavesUnset t v r'
  | .repeated t, v, rs => ∀ vs, v = .list vs → List.Forall₂ (FlatLeavesUnset t) vs rs

end Definitions

section Records

variable {κ : Type} {Value : κ → Type} {value? : (k : κ) → Tree → Option (Value k)}
  {unset : (k : κ) → Value k} {fs : List (Field κ)} {ms : List Member} {r : Record Value fs}

theorem fields?_of_record? (h : record? value? unset fs (.object ms) = some r) :
    fields? value? unset ms fs = some r := by
  rw [record?] at h
  split at h
  · exact h
  · cases h

/-- What a record means leaves the fields unset that no member is for. -/
theorem leavesUnset_of_fields? {inside : (k : κ) → Tree → Value k → Prop}
    (hinside : ∀ k v value, value? k v = some value → inside k v value)
    (h : fields? value? unset ms fs = some r) : LeavesUnset unset inside ms r := by
  induction fs with
  | nil => exact trivial
  | cons f fs ih =>
      rw [fields?] at h
      obtain ⟨value, hvalue, h⟩ := Option.bind_eq_some_iff.mp h
      obtain ⟨values, hvalues, h⟩ := Option.bind_eq_some_iff.mp h
      cases h
      refine ⟨?_, ?_, ih hvalues⟩
      · intro hnone
        rw [hnone] at hvalue
        exact (Option.some.inj hvalue).symm
      · intro v hv
        rw [hv] at hvalue
        exact hinside f.kind v value hvalue

end Records

theorem of_nullable?_eq_some {α : Type} {value? : Tree → Option α} {v : Tree} {a : α}
    (h : nullable? value? v = some (some a)) : value? v = some a := by
  cases v with
  | null => cases h
  | _ =>
      obtain ⟨a', ha, heq⟩ := Option.map_eq_some_iff.mp h
      cases heq
      exact ha

theorem forall₂_of_mapM_eq_some {α : Type} {value? : Tree → Option α} {vs : List Tree}
    {as : List α} (h : vs.mapM value? = some as) :
    List.Forall₂ (fun v a => value? v = some a) vs as := by
  induction vs generalizing as with
  | nil =>
      cases h
      exact .nil
  | cons v vs ih =>
      rw [List.mapM_cons] at h
      obtain ⟨a, ha, h⟩ := Option.bind_eq_some_iff.mp h
      obtain ⟨as', has, h⟩ := Option.bind_eq_some_iff.mp h
      cases h
      exact .cons ha (ih has)

theorem flatLeavesUnset_of_flat? {t : RecordType} {v : Tree} {r : t.Value}
    (h : flat? t v = some r) : FlatLeavesUnset t v r := by
  rintro ms rfl
  exact leavesUnset_of_fields? (fun _ _ _ _ => trivial) (fields?_of_record? h)

theorem kindLeavesUnset_of_kind? {k : Kind} {v : Tree} {value : k.Value}
    (h : kind? k v = some value) : KindLeavesUnset k v value := by
  cases k with
  | scalar k => exact trivial
  | optional t =>
      rintro r rfl
      exact flatLeavesUnset_of_flat? (of_nullable?_eq_some h)
  | repeated t =>
      rintro vs rfl
      exact (forall₂_of_mapM_eq_some h).imp fun v r hr => flatLeavesUnset_of_flat? hr

end Absent

end Tree

end RestGateway.Json
