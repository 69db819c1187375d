import RestGateway.Proofs.Wire.Varint
import RestGateway.Wire.Record

/-!
# Reading back messages

The bytes of a message are a sequence of occurrences of its fields, in order. Each occurrence merges
a value into its own field (`Occurs`), so the sequence takes the record without values to that of
the message (`Reads`), whatever comes behind it.
-/

namespace RestGateway.Wire

/-- A text is read back. -/
theorem readText_writeDelimited {s : String} (h : (Utf8.encode s).length < 2 ^ 64) (rest : Bytes) :
    readText (Input.ofBytes (writeDelimited (Utf8.encode s) ++ rest)) =
      .ok (s, Input.ofBytes rest) := by
  simp only [readText, readDelimited_writeDelimited h, Utf8.decode?_encode]

/-- A whole number is read back. -/
theorem readInt64_writeVarint (n : Int64) (rest : Bytes) :
    readInt64 (Input.ofBytes (writeVarint n.toUInt64.toNat ++ rest)) =
      .ok (n, Input.ofBytes rest) := by
  have hn : Int64.ofInt n.toUInt64.toNat = n := by
    apply Int64.toBitVec.inj
    rw [Int64.toBitVec_ofInt, BitVec.ofInt_natCast]
    exact BitVec.ofNat_toNat _ _
  simp only [readInt64, readVarint_writeVarint n.toUInt64.toNat_lt, hn]

section Records

variable {κ : Type} {Value : κ → Type}

/-- How values are merged into the fields of a record. -/
abbrev Merge (Value : κ → Type) := (k : κ) → Value k → Key → Input → Reading (Value k)

/-- Bytes that are occurrences of a field of kind `k`, and that merge into its value. -/
inductive Occurs (merge : Merge Value) (k : κ) (tag : Nat) : Value k → Bytes → Value k → Prop
  | none {v : Value k} : Occurs merge k tag v [] v
  | one {v v' v'' : Value k} {shape : Shape} {payload s : Bytes}
      (hread : ∀ rest, merge k v ⟨tag, shape⟩ (Input.ofBytes (payload ++ rest)) =
        .ok (v', Input.ofBytes rest))
      (hrest : Occurs merge k tag v' s v'') :
      Occurs merge k tag v (writeKey ⟨tag, shape⟩ ++ (payload ++ s)) v''

/-- A field that occurs once. -/
theorem Occurs.single {merge : Merge Value} {k : κ} {tag : Nat} {v v' : Value k} {shape : Shape}
    {payload : Bytes}
    (hread : ∀ rest, merge k v ⟨tag, shape⟩ (Input.ofBytes (payload ++ rest)) =
      .ok (v', Input.ofBytes rest)) :
    Occurs merge k tag v (writeKey ⟨tag, shape⟩ ++ payload) v' := by
  simpa using Occurs.one hread Occurs.none

/-- Bytes that are occurrences of fields of a record, and that merge into it. -/
inductive Reads (merge : Merge Value) (depth : Nat) (message : String) {fs : List (Field κ)} :
    Record Value fs → Bytes → Record Value fs → Prop
  | none {r : Record Value fs} : Reads merge depth message r [] r
  | one {r r' r'' : Record Value fs} {key : Key} {payload s : Bytes}
      (hkey : key.tag ∈ fs.map Field.tag)
      (hread : ∀ rest, mergeField merge depth message key r (Input.ofBytes (payload ++ rest)) =
        .ok (r', Input.ofBytes rest))
      (hrest : Reads merge depth message r' s r'') :
      Reads merge depth message r (writeKey key ++ (payload ++ s)) r''

variable {merge : Merge Value} {depth : Nat} {message : String}

theorem Reads.append {fs : List (Field κ)} {r r' r'' : Record Value fs} {s t : Bytes}
    (h : Reads merge depth message r s r') (h' : Reads merge depth message r' t r'') :
    Reads merge depth message r (s ++ t) r'' := by
  induction h with
  | none => exact h'
  | one hkey hread _ ih =>
      rw [List.append_assoc, List.append_assoc]
      exact Reads.one hkey hread (ih h')

/-- The fields of a record are read up to where the bytes behind it start. -/
theorem Reads.mergeFields {fs : List (Field κ)} (htags : ∀ f ∈ fs, IsTag f.tag)
    {r r' : Record Value fs} {s : Bytes} (h : Reads merge depth message r s r') (rest : Bytes)
    {clock : Bytes} (hclock : s.length ≤ clock.length) :
    mergeFields merge depth message rest.length r clock (Input.ofBytes (s ++ rest)) =
      .ok (r', Input.ofBytes rest) := by
  induction h generalizing clock with
  | none =>
      cases clock with
      | nil => rfl
      | cons b clock => simp [Wire.mergeFields, Input.ofBytes]
  | @one r r' r'' key payload s hkey hread hrest ih =>
      have hpos := List.length_pos_iff.mpr (writeKey_ne_nil key)
      simp only [List.length_append] at hclock
      cases clock with
      | nil => rw [List.length_nil] at hclock; omega
      | cons b clock =>
          have htag : IsTag key.tag := by
            obtain ⟨f, hf, heq⟩ := List.mem_map.mp hkey
            exact heq ▸ htags f hf
          have hsize : ¬ (Input.ofBytes (writeKey key ++ (payload ++ s) ++ rest)).size ≤
              rest.length := by
            simp only [Input.ofBytes, List.length_append]
            omega
          have hlen : s.length ≤ clock.length := by
            simp only [List.length_cons] at hclock
            omega
          rw [Wire.mergeFields, if_neg hsize, List.append_assoc, readKey_writeKey htag]
          simp only [List.append_assoc]
          rw [hread]
          exact ih hlen

/-- What is read of the other fields of a record leaves its first one as it is. -/
theorem Reads.cons {f : Field κ} {fs : List (Field κ)} (hf : f.tag ∉ fs.map Field.tag)
    {r r' : Record Value fs} {s : Bytes} (h : Reads merge depth message r s r')
    (v : Value f.kind) :
    @Reads κ Value merge depth message (f :: fs) (v, r) s (v, r') := by
  induction h with
  | none => exact Reads.none
  | @one r r' r'' key payload s hkey hread hrest ih =>
      refine Reads.one (List.mem_cons_of_mem _ hkey) (fun rest => ?_) ih
      have hne : key.tag ≠ f.tag := fun heq => hf (heq ▸ hkey)
      rw [mergeField, if_neg hne, hread]
      rfl

/-- Occurrences of the first field of a record merge into it. -/
theorem Occurs.reads {f : Field κ} {fs : List (Field κ)} {v v' : Value f.kind} {s : Bytes}
    (h : Occurs merge f.kind f.tag v s v') (r : Record Value fs) :
    @Reads κ Value merge depth message (f :: fs) (v, r) s (v', r) := by
  induction h with
  | none => exact Reads.none
  | @one v v' v'' shape payload s hread hrest ih =>
      refine Reads.one (List.mem_cons_self) (fun rest => ?_) ih
      rw [mergeField, if_pos rfl, hread]

/-- If what is written of each field merges into its value, what is written of a record merges into
the record. -/
theorem reads_writeFields {write : (k : κ) → Nat → Value k → Bytes} {unset : (k : κ) → Value k}
    {merged : (k : κ) → Value k → Value k} {fs : List (Field κ)}
    (hnodup : (fs.map Field.tag).Nodup) (r : Record Value fs)
    (hlen : (writeFields write r).length < 2 ^ 64)
    (hw : ∀ f ∈ fs, ∀ v : Value f.kind, (write f.kind f.tag v).length < 2 ^ 64 →
      Occurs merge f.kind f.tag (unset f.kind) (write f.kind f.tag v) (merged f.kind v)) :
    Reads merge depth message (Record.fill unset fs) (writeFields write r) (r.map merged) := by
  induction fs with
  | nil => exact Reads.none
  | cons f fs ih =>
      obtain ⟨v, vs⟩ := r
      obtain ⟨hf, hnodup⟩ := List.nodup_cons.mp hnodup
      simp only [writeFields, List.length_append] at hlen
      have hfirst := @Occurs.reads κ Value merge depth message f fs _ _ _
        (hw f List.mem_cons_self v (by omega)) (Record.fill unset fs)
      have hrest := (ih hnodup vs (by omega) fun g hg => hw g (List.mem_cons_of_mem _ hg)).cons hf
        (merged f.kind v)
      exact hfirst.append hrest

end Records

theorem length_lt_of_writeText {tag : Nat} {s : String} (h : (writeText tag s).length < 2 ^ 64) :
    (Utf8.encode s).length < 2 ^ 64 := by
  simp only [writeText, writeDelimited, List.length_append] at h
  omega

/-- Every scalar that is written is read back. -/
theorem occurs_writeScalar {k : Scalar} {tag : Nat} {v : k.Value}
    (h : (writeScalar k tag v).length < 2 ^ 64) :
    Occurs (fun k _ => readScalar k) k tag k.unset (writeScalar k tag v) v := by
  cases k with
  | text =>
      by_cases hv : v = ""
      · subst hv
        exact Occurs.none
      · have hs : writeScalar .text tag v = writeText tag v := if_neg hv
        rw [hs] at h ⊢
        refine Occurs.single fun rest => ?_
        exact readText_writeDelimited (length_lt_of_writeText h) rest
  | optionalText =>
      cases v with
      | none => exact Occurs.none
      | some s =>
          refine Occurs.single fun rest => ?_
          simp only [readScalar, expectShape, if_pos,
            readText_writeDelimited (length_lt_of_writeText h) rest]
          rfl
  | optionalInt =>
      cases v with
      | none => exact Occurs.none
      | some n =>
          refine Occurs.single fun rest => ?_
          simp only [readScalar, expectShape, if_pos, readInt64_writeVarint n rest]
          rfl

/-- Numbers of fields that can be written and that do not collide. -/
def TagsDistinct {κ : Type} (fs : List (Field κ)) : Prop :=
  (∀ f ∈ fs, IsTag f.tag) ∧ (fs.map Field.tag).Nodup

instance {κ : Type} (fs : List (Field κ)) : Decidable (TagsDistinct fs) :=
  inferInstanceAs (Decidable (_ ∧ _))

theorem record_map_self {κ : Type} {Value : κ → Type} {fs : List (Field κ)}
    (r : Record Value fs) : r.map (fun _ v => v) = r := by
  induction fs with
  | nil => rfl
  | cons f fs ih => exact congrArg (Prod.mk r.1) (ih r.2)

/-- A record of scalars is read back. -/
theorem mergeFlat_writeDelimited {t : RecordType} (ht : TagsDistinct t.fields) {tag : Nat}
    (r : t.Value) (h : (writeFields writeScalar r).length < 2 ^ 64) (rest : Bytes) :
    mergeFlat t t.unset ⟨tag, .lengthDelimited⟩
        (Input.ofBytes (writeDelimited (writeFields writeScalar r) ++ rest)) =
      .ok (r, Input.ofBytes rest) := by
  have hreads : Reads (fun k _ => readScalar k) (depthLimit - 1) t.name t.unset
      (writeFields writeScalar r) r := by
    have hscalars := @reads_writeFields _ _ (fun k _ => readScalar k) (depthLimit - 1) t.name
      writeScalar Scalar.unset (fun _ v => v) _ ht.2 r h fun _ _ _ hv => occurs_writeScalar hv
    rwa [record_map_self] at hscalars
  let s := writeFields writeScalar r ++ rest
  have hlen : (writeFields writeScalar r).length ≤ s.length := by simp [s]
  have hstop : (Input.ofBytes s).size - (writeFields writeScalar r).length = rest.length := by
    simp [s, Input.ofBytes]
  have hmerge : mergeFields (fun k _ => readScalar k) (depthLimit - 1) t.name rest.length t.unset
      (Input.ofBytes s).bytes (Input.ofBytes s) = .ok (r, Input.ofBytes rest) :=
    hreads.mergeFields ht.1 rest hlen
  rw [writeDelimited, List.append_assoc, mergeFlat]
  simp only [expectShape, if_pos, readLength_writeVarint h hlen, hstop, s, hmerge]
  simp [Input.ofBytes]

/-- Numbers of the fields of a kind can be written and do not collide. -/
def NestedTagsDistinct : Kind → Prop
  | .scalar _ => True
  | .optional t => TagsDistinct t.fields
  | .repeated t => TagsDistinct t.fields

instance : (k : Kind) → Decidable (NestedTagsDistinct k)
  | .scalar _ => inferInstanceAs (Decidable True)
  | .optional t => inferInstanceAs (Decidable (TagsDistinct t.fields))
  | .repeated t => inferInstanceAs (Decidable (TagsDistinct t.fields))

theorem length_lt_of_writeFlat {t : RecordType} {tag : Nat} {r : t.Value}
    (h : (writeFlat tag r).length < 2 ^ 64) : (writeFields writeScalar r).length < 2 ^ 64 := by
  simp only [writeFlat, writeDelimited, List.length_append] at h
  omega

/-- Records are collected in front of those that were read before. -/
theorem occurs_flatMap_writeFlat {t : RecordType} (ht : TagsDistinct t.fields) {tag : Nat}
    (rs done : List t.Value) (h : (rs.flatMap (writeFlat tag)).length < 2 ^ 64) :
    Occurs mergeKind (.repeated t) tag done (rs.flatMap (writeFlat tag))
      (rs.reverse ++ done : List t.Value) := by
  induction rs generalizing done with
  | nil => exact Occurs.none
  | cons r rs ih =>
      rw [List.flatMap_cons, List.length_append] at h
      have hr := @length_lt_of_writeFlat t tag r (by omega)
      rw [List.flatMap_cons, writeFlat, List.append_assoc, List.reverse_cons, List.append_assoc]
      refine Occurs.one (fun rest => ?_) (ih (r :: done) (by omega))
      simp only [mergeKind, mergeFlat_writeDelimited ht r hr rest]
      rfl

theorem occurs_scalar {k : Scalar} {tag : Nat} {v v' : k.Value} {s : Bytes}
    (h : Occurs (fun k _ => readScalar k) k tag v s v') :
    Occurs mergeKind (.scalar k) tag v s v' := by
  induction h with
  | none => exact Occurs.none
  | one hread _ ih => exact Occurs.one hread ih

/-- Every value that is written is read back, up to closing it. -/
theorem occurs_writeKind {k : Kind} (hk : NestedTagsDistinct k) {tag : Nat} {v : k.Value}
    (h : (writeKind k tag v).length < 2 ^ 64) :
    Occurs mergeKind k tag k.unset (writeKind k tag v) (closeKind k v) := by
  cases k with
  | scalar k => exact occurs_scalar (occurs_writeScalar h)
  | optional t =>
      cases v with
      | none => exact Occurs.none
      | some r =>
          refine Occurs.single fun rest => ?_
          have hr := @length_lt_of_writeFlat t tag r h
          exact congrArg (Except.map fun p => (some p.1, p.2))
            (mergeFlat_writeDelimited hk r hr rest)
  | repeated t =>
      have hrs := occurs_flatMap_writeFlat hk v [] h
      rwa [List.append_nil] at hrs

theorem closeKind_closeKind (k : Kind) (v : k.Value) : closeKind k (closeKind k v) = v := by
  cases k with
  | scalar k => rfl
  | optional t => rfl
  | repeated t => exact List.reverse_reverse v

theorem record_map_closeKind {fs : List (Field Kind)} (r : Record Kind.Value fs) :
    (r.map closeKind).map closeKind = r := by
  induction fs with
  | nil => rfl
  | cons f fs ih => exact congr (congrArg Prod.mk (closeKind_closeKind f.kind r.1)) (ih r.2)

/-- Numbers of the fields of a message and of the messages in it can be written and do not
collide. -/
def Numbered (schema : Schema) : Prop :=
  TagsDistinct schema.fields ∧ ∀ f ∈ schema.fields, NestedTagsDistinct f.kind

instance (schema : Schema) : Decidable (Numbered schema) := inferInstanceAs (Decidable (_ ∧ _))

/-- A record that is written is read back. -/
theorem decodeRecord_writeFields {schema : Schema} (hs : Numbered schema) (r : schema.Value)
    (h : (writeFields writeKind r).length < 2 ^ 64) :
    decodeRecord schema (writeFields writeKind r) = .ok r := by
  have hreads : Reads mergeKind depthLimit schema.name schema.unset (writeFields writeKind r)
      (r.map closeKind) :=
    reads_writeFields hs.1.2 r h fun f hf _ hv => occurs_writeKind (hs.2 f hf) hv
  have hmerge := hreads.mergeFields hs.1.1 [] le_rfl
  rw [List.append_nil] at hmerge
  simp only [decodeRecord]
  rw [List.length_nil] at hmerge
  rw [hmerge]
  simp [record_map_closeKind]

/-- A message that is written is read back. -/
theorem decode_encode {α : Type} [Message α] (hs : Numbered (Message.schema α)) (m : α)
    (h : (encode m).length < 2 ^ 64) : decode α (encode m) = .ok m := by
  simp only [decode, encode, decodeRecord_writeFields hs _ h]
  exact congrArg Except.ok (Message.ofRecord_toRecord m)

end RestGateway.Wire
