import Mathlib.Data.List.Forall2
import RestGateway.Proofs.Json.Meaning

/-!
# Trees that are the same up to the order of members

The members of an object have no order. Trees that differ only in the order of members, at any
depth, mean the same: scalars are in no object, and the members of a record are looked up by name.
-/

namespace RestGateway.Json

namespace Tree

/-- The same value in JSON: objects have the same members in any order. -/
inductive Same : Tree → Tree → Prop
  | refl (v : Tree) : Same v v
  | list {vs vs' : List Tree} (h : List.Forall₂ Same vs vs') : Same (.list vs) (.list vs')
  | object {ms ms₁ ms' : List Member} (hperm : ms.Perm ms₁)
      (hnames : ms₁.map Prod.fst = ms'.map Prod.fst)
      (hvalues : List.Forall₂ Same (ms₁.map Prod.snd) (ms'.map Prod.snd)) :
      Same (.object ms) (.object ms')

variable {v v' : Tree} {vs vs' : List Tree} {ms ms' : List Member}

theorem Same.scalar?_eq (h : Same v v') (k : Scalar) : scalar? k v = scalar? k v' := by
  cases h with
  | refl => rfl
  | list => cases k <;> rfl
  | object => cases k <;> rfl

theorem Same.nullable?_eq {α : Type} {value? : Tree → Option α} (h : Same v v')
    (hvalue : value? v = value? v') : nullable? value? v = nullable? value? v' := by
  cases h with
  | refl => rfl
  | list => exact congrArg (Option.map some) hvalue
  | object => exact congrArg (Option.map some) hvalue

theorem Same.list?_eq {α : Type} {value? : Tree → Option α} (h : Same v v')
    (hvalue : ∀ v v', Same v v' → value? v = value? v') : list? value? v = list? value? v' := by
  cases h with
  | refl => rfl
  | object => rfl
  | list h =>
      rw [list?, list?]
      induction h with
      | nil => rfl
      | cons h _ ih => rw [List.mapM_cons, List.mapM_cons, hvalue _ _ h, ih]

/-- The values under a name are the same, one by one. -/
theorem forall₂_valuesOf (name : String) (hnames : ms.map Prod.fst = ms'.map Prod.fst)
    (hvalues : List.Forall₂ Same (ms.map Prod.snd) (ms'.map Prod.snd)) :
    List.Forall₂ Same (valuesOf name ms) (valuesOf name ms') := by
  induction ms generalizing ms' with
  | nil =>
      cases ms' with
      | nil => exact .nil
      | cons => cases hnames
  | cons m ms ih =>
      cases ms' with
      | nil => cases hnames
      | cons m' ms' =>
          obtain ⟨hname, hnames⟩ := List.cons.inj hnames
          obtain ⟨hvalue, hvalues⟩ := List.forall₂_cons.mp hvalues
          have hrest := ih hnames hvalues
          rw [valuesOf, valuesOf, List.filter_cons, List.filter_cons, ← hname]
          split
          · exact .cons hvalue hrest
          · exact hrest

section Records

variable {κ : Type} {Value : κ → Type} {value? : (k : κ) → Tree → Option (Value k)}
  {unset : (k : κ) → Value k}

theorem field?_of_perm (k : κ) (h : vs.Perm vs') :
    field? value? unset k vs = field? value? unset k vs' := by
  match vs, vs', h.length_eq with
  | [], [], _ => rfl
  | [v], [v'], _ => rw [List.singleton_perm_singleton.mp h]
  | _ :: _ :: _, _ :: _ :: _, _ => rfl

theorem field?_of_forall₂ {k : κ} (hvalue : ∀ v v', Same v v' → value? k v = value? k v')
    (h : List.Forall₂ Same vs vs') : field? value? unset k vs = field? value? unset k vs' := by
  match h with
  | .nil => rfl
  | .cons h .nil => exact hvalue _ _ h
  | .cons _ (.cons _ _) => rfl

theorem positions?_of_forall₂ (hvalue : ∀ k v v', Same v v' → value? k v = value? k v')
    (h : List.Forall₂ Same vs vs') (fs : List (Field κ)) :
    positions? value? unset fs vs = positions? value? unset fs vs' := by
  induction fs generalizing vs vs' with
  | nil => cases h <;> rfl
  | cons f fs ih =>
      cases h with
      | nil => rfl
      | cons hv hvs => rw [positions?, positions?, hvalue _ _ _ hv, ih hvs]

/-- Members in another order fill the fields alike. -/
theorem fields?_of_perm {ms₁ : List Member}
    (hvalue : ∀ k v v', Same v v' → value? k v = value? k v')
    (hperm : ms.Perm ms₁) (hnames : ms₁.map Prod.fst = ms'.map Prod.fst)
    (hvalues : List.Forall₂ Same (ms₁.map Prod.snd) (ms'.map Prod.snd)) (fs : List (Field κ)) :
    fields? value? unset ms fs = fields? value? unset ms' fs := by
  induction fs with
  | nil => rfl
  | cons f fs ih =>
      have hfield : field? value? unset f.kind (valuesOf f.name ms) =
          field? value? unset f.kind (valuesOf f.name ms') :=
        calc
          field? value? unset f.kind (valuesOf f.name ms)
            = field? value? unset f.kind (valuesOf f.name ms₁) :=
              field?_of_perm f.kind ((hperm.filter _).map Prod.snd)
          _ = field? value? unset f.kind (valuesOf f.name ms') :=
              field?_of_forall₂ (hvalue f.kind) (forall₂_valuesOf f.name hnames hvalues)
      rw [fields?, fields?, hfield, ih]

theorem Same.record?_eq (h : Same v v')
    (hvalue : ∀ k v v', Same v v' → value? k v = value? k v') (fs : List (Field κ)) :
    record? value? unset fs v = record? value? unset fs v' := by
  cases h with
  | refl => rfl
  | list h => exact positions?_of_forall₂ hvalue h fs
  | @object ms ms₁ ms' hperm hnames hvalues =>
      have hall : (ms.all fun m => m.1.isSome) = ms'.all fun m => m.1.isSome :=
        calc
          (ms.all fun m => m.1.isSome)
            = ms₁.all fun m => m.1.isSome := hperm.all_eq
          _ = (ms₁.map Prod.fst).all Option.isSome := by rw [List.all_map]; rfl
          _ = (ms'.map Prod.fst).all Option.isSome := by rw [hnames]
          _ = ms'.all fun m => m.1.isSome := by rw [List.all_map]; rfl
      rw [record?, record?, hall, fields?_of_perm hvalue hperm hnames hvalues]

end Records

theorem Same.flat?_eq (h : Same v v') (t : RecordType) : flat? t v = flat? t v' :=
  h.record?_eq (fun k _ _ h => h.scalar?_eq k) t.fields

theorem Same.kind?_eq (h : Same v v') (k : Kind) : kind? k v = kind? k v' := by
  cases k with
  | scalar k => exact h.scalar?_eq k
  | optional t => exact h.nullable?_eq (h.flat?_eq t)
  | repeated t => exact h.list?_eq fun _ _ h => h.flat?_eq t

/-- The same values mean the same message. -/
theorem Same.message?_eq (h : Same v v') (schema : Schema) :
    message? schema v = message? schema v' :=
  h.record?_eq (fun k _ _ h => h.kind?_eq k) schema.fields

end Tree

end RestGateway.Json
