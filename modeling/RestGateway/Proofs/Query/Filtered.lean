import RestGateway.Proofs.Query.Reached
import RestGateway.Proofs.Query.RoundTrip

/-!
# Filtered fields

The filter looks at keys as they are written, and the reader at what they mean. A filtered field can
only be set by a pair that means the field but does not start with its name: with escapes in the
name, with the name in brackets, or with empty brackets, which mean the first fields.
-/

namespace RestGateway

namespace Query

variable {name : String} {pair : Bytes} {filter ps : List Bytes}

/-- A pair means a field although it does not start with its name. `first` are the fields that can
be set without a name. -/
inductive Disguises (first : List String) (name : String) (pair : Bytes) : Prop
  /-- The key is a pair of brackets, which leads to the first fields. -/
  | position (h : keyOf pair = [0x5B, 0x5D]) (hname : name ∈ first)
  /-- The name stands in brackets. -/
  | brackets (h : [0x5B] <+: pair) (hname : Percent.decodeForm (headOf pair) = Utf8.encode name)
  /-- The name has escapes. -/
  | escapes (h : 0x25 ∈ headOf pair) (hname : Percent.decodeForm (headOf pair) = Utf8.encode name)

/-- Names that are cut nowhere when a key is read or filtered. -/
def IsUncutName (name : String) : Prop := IsPlainName name ∧ 0x2E ∉ Utf8.encode name

instance (name : String) : Decidable (IsUncutName name) := inferInstanceAs (Decidable (_ ∧ _))

section Pairs

theorem decodeForm_of_ofWritten {s t : Bytes} (h : Key.ofWritten s = .name t) :
    Percent.decodeForm s = t := by
  unfold Key.ofWritten at h
  split at h
  · cases h
  · exact Key.name.inj h

/-- What means a plain name and has no escapes is the name. -/
theorem eq_of_decodeForm_eq (hname : IsPlainName name) {s : Bytes} (hescapes : 0x25 ∉ s)
    (h : Percent.decodeForm s = Utf8.encode name) : s = Utf8.encode name := by
  rw [Percent.decodeForm, Percent.decodeOnto_of_not_mem hescapes, List.reverse_nil,
    List.nil_append] at h
  -- A plus sign would have become a space, which plain names do not have.
  have hplus : ∀ b ∈ s, (b == 0x2B) = false := by
    intro b hb
    refine beq_false_of_ne ?_
    rintro rfl
    have hspace : (0x20 : UInt8) ∈ Utf8.encode name := h ▸ List.mem_map.mpr ⟨0x2B, hb, rfl⟩
    exact hname.not_mem rfl hspace
  rw [← h]
  refine ((List.map_congr_left fun b hb => ?_).trans (List.map_id s)).symm
  rw [hplus b hb]
  rfl

/-- A pair that starts with a key without points is rooted at it. -/
theorem rootOf_keyOf_eq (hand : 0x26 ∉ pair) (hbracket : ¬ [0x5B] <+: pair)
    (hpoint : 0x2E ∉ headOf pair) : rootOf (keyOf pair) = headOf pair := by
  have hhead : headOf pair = pair.takeWhile fun b => b != 0x26 && b != 0x3D && b != 0x5B := by
    cases pair with
    | nil => rfl
    | cons b t =>
        have hb : ¬ (b == 0x5B) = true := by
          intro hb
          rw [beq_iff_eq.mp hb] at hbracket
          exact hbracket (List.prefix_append [0x5B] t)
        rw [headOf, if_neg hb]
  rw [hhead] at hpoint ⊢
  rw [rootOf, keyOf, List.takeWhile_takeWhile]
  refine Eq.trans (Eq.symm (List.takeWhile_eq_self_iff.mpr fun b hb => ?_))
    (takeWhile_takeWhile_of_forall fun b hb => ?_)
  · have hne : b ≠ 0x26 := fun heq => hand (heq ▸ (List.takeWhile_subset _ hb))
    have hstops := List.mem_takeWhile_imp hb
    simp_all
  · have hne : b ≠ 0x2E := fun heq => hpoint (heq ▸ hb)
    have hstops := List.mem_takeWhile_imp hb
    simp_all

/-- A kept pair whose key means a filtered name disguises it. -/
theorem disguises_of_ofWritten {names : List String} (hname : IsUncutName name)
    (hfilter : name ∈ names) (hand : 0x26 ∉ pair)
    (hroot : rootOf (keyOf pair) ∉ names.map Utf8.encode)
    (hkey : Key.ofWritten (headOf pair) = keyOfName name) (first : List String) :
    Disguises first name pair := by
  have hmeans := decodeForm_of_ofWritten hkey
  by_cases hbracket : [0x5B] <+: pair
  · exact .brackets hbracket hmeans
  · by_cases hescapes : 0x25 ∈ headOf pair
    · exact .escapes hescapes hmeans
    · have hhead := eq_of_decodeForm_eq hname.1 hescapes hmeans
      have hpoint : 0x2E ∉ headOf pair := hhead ▸ hname.2
      rw [rootOf_keyOf_eq hand hbracket hpoint, hhead] at hroot
      exact absurd (List.mem_map_of_mem hfilter) hroot

theorem keyCount_le_one (h : (ps.map keyOf).Nodup) (key : Bytes) : keyCount ps key ≤ 1 :=
  List.nodup_iff_count_le_one.mp h key

end Pairs

section Fields

variable {fs : List (Field Scalar)}

theorem setText?_unset (k : Scalar) : setText? k k.unset = none := by
  cases k <;> rfl

theorem mem_setFields_cons {f : Field Scalar} {v : f.kind.Value} {vs : Record Scalar.Value fs}
    {p : String × String} :
    p ∈ @setFields (f :: fs) (v, vs) ↔
      p.1 = f.name ∧ setText? f.kind v = some p.2 ∨ p ∈ setFields vs := by
  rw [setFields, List.mem_append]
  apply or_congr_left
  cases setText? f.kind v with
  | none => simp
  | some s =>
      obtain ⟨name, text⟩ := p
      simp [eq_comm]

/-- Nothing is set where nothing was read. -/
theorem setFields_eq_nil {r : Record Scalar.Value fs}
    (h : Record.flat r = Record.fill Kind.unset (flatFields fs)) : setFields r = [] := by
  induction fs with
  | nil => rfl
  | cons f fs ih =>
      obtain ⟨v, vs⟩ := r
      obtain ⟨hv, hvs⟩ := Prod.mk.inj h
      have hunset : setText? f.kind v = none := by
        rw [show v = f.kind.unset from hv, setText?_unset]
      rw [setFields, hunset, ih hvs]
      rfl

section Records

variable {κ : Type} {Value : κ → Type} {read : (k : κ) → Tree → Reading (Value k)}
  {unset : (k : κ) → Value k} {fs : List (Field κ)}

/-- The first field is unset if nothing has its name, and the others are read on their own. -/
theorem of_readEntries_cons {entries : Entries} {f : Field κ} {v : Value f.kind}
    {vs : Record Value fs} (h : readEntries read unset entries (f :: fs) = .ok (v, vs)) :
    (entries.get? (keyOfName f.name) = none → v = unset f.kind) ∧
      readEntries read unset entries fs = .ok vs := by
  rw [readEntries] at h
  cases hrest : readEntries read unset entries fs with
  | error fault =>
      simp only [hrest, bind, Except.bind] at h
      split at h
      · split at h <;> cases h
      · cases h
  | ok ws =>
      simp only [hrest, bind, Except.bind] at h
      split at h
      · rename_i tree hget
        split at h
        · cases h
        · cases h
          exact ⟨fun hnone => absurd (hget.symm.trans hnone) (Option.some_ne_none tree), rfl⟩
      · cases h
        exact ⟨fun _ => rfl, rfl⟩

/-- Without leaves the first field is unset, and with leaves the others get all but the first. -/
theorem of_readPositions_cons {ls : List Leaf} {f : Field κ} {v : Value f.kind}
    {vs : Record Value fs} (h : readPositions read unset ls (f :: fs) = .ok (v, vs)) :
    (ls = [] → v = unset f.kind) ∧ readPositions read unset ls.tail fs = .ok vs := by
  cases ls with
  | nil =>
      rw [readPositions] at h
      cases hrest : readPositions read unset [] fs with
      | error fault =>
          rw [hrest] at h
          cases h
      | ok ws =>
          rw [hrest] at h
          cases h
          exact ⟨fun _ => rfl, hrest⟩
  | cons l ls =>
      rw [readPositions] at h
      cases hrest : readPositions read unset ls fs with
      | error fault =>
          simp only [hrest, bind, Except.bind] at h
          split at h <;> cases h
      | ok ws =>
          simp only [hrest, bind, Except.bind] at h
          split at h
          · cases h
          · cases h
            exact ⟨fun hnil => absurd hnil (List.cons_ne_nil l ls), hrest⟩

/-- What a record is read from: nothing, the leaves of a sequence, or the entries of a map. -/
theorem readRecord_cases {name : String} {tree : Tree} {r : Record Value fs}
    (h : readRecord read unset name fs tree = .ok r) :
    r = Record.fill unset fs ∨
      (∃ ls, tree = .sequence ls ∧ readPositions read unset ls fs = .ok r) ∨
      ∃ entries, tree = .map entries ∧ readEntries read unset entries fs = .ok r := by
  match tree with
  | .leaf (.text s) =>
      simp only [readRecord] at h
      cases htext : text s with
      | error f =>
          rw [htext] at h
          cases h
      | ok shown =>
          rw [htext] at h
          cases h
  | .leaf .blank => exact Or.inl (Except.ok.inj h).symm
  | .leaf .bare => exact Or.inl (Except.ok.inj h).symm
  | .sequence ls => exact Or.inr (Or.inl ⟨ls, rfl, h⟩)
  | .map entries =>
      right; right
      refine ⟨entries, rfl, ?_⟩
      simp only [readRecord, bind, Except.bind] at h
      split at h
      · cases h
      · rename_i values hvalues
        split at h
        · cases h
        · cases h
          exact hvalues

end Records

theorem Entries.mem_keys_of_get? {entries : Entries} {key : Key} {tree : Tree}
    (h : entries.get? key = some tree) : key ∈ entries.map Prod.fst := by
  obtain ⟨entry, hentry, _⟩ := Option.map_eq_some_iff.mp h
  have hkey : entry.1 = key := by simpa using List.find?_some hentry
  exact hkey ▸ List.mem_map_of_mem (List.mem_of_find?_eq_some hentry)

variable {r : Record Scalar.Value fs} {p : String × String}

/-- A field that is set was found under its name. -/
theorem mem_keys_of_readEntries {entries : Entries}
    (h : readEntries readKind Kind.unset entries (flatFields fs) = .ok (Record.flat r))
    (hp : p ∈ setFields r) : keyOfName p.1 ∈ entries.map Prod.fst := by
  induction fs with
  | nil => cases hp
  | cons f fs ih =>
      obtain ⟨v, vs⟩ := r
      obtain ⟨hfirst, hrest⟩ := of_readEntries_cons h
      rcases mem_setFields_cons.mp hp with ⟨hname, hset⟩ | hp
      · cases hget : entries.get? (keyOfName f.name) with
        | some tree => exact hname ▸ Entries.mem_keys_of_get? hget
        | none =>
            rw [hfirst hget] at hset
            cases (setText?_unset f.kind).symm.trans hset
      · exact ih hrest hp

/-- Leaves without keys set no more fields than there are leaves, the first ones. -/
theorem mem_take_of_readPositions {ls : List Leaf}
    (h : readPositions readKind Kind.unset ls (flatFields fs) = .ok (Record.flat r))
    (hp : p ∈ setFields r) : p.1 ∈ (fs.map Field.name).take ls.length := by
  induction fs generalizing ls with
  | nil => cases hp
  | cons f fs ih =>
      obtain ⟨v, vs⟩ := r
      obtain ⟨hfirst, hrest⟩ := of_readPositions_cons h
      cases ls with
      | nil =>
          rcases mem_setFields_cons.mp hp with ⟨_, hset⟩ | hp
          · rw [hfirst rfl] at hset
            cases (setText?_unset f.kind).symm.trans hset
          · cases ih hrest hp
      | cons l ls =>
          rw [List.map_cons, List.length_cons, List.take_succ_cons, List.mem_cons]
          rcases mem_setFields_cons.mp hp with ⟨hname, _⟩ | hp
          · exact Or.inl hname
          · exact Or.inr (ih hrest hp)

/-- A field that is set was read from a sequence that is long enough, or it is a key of the map. -/
theorem exists_tree_of_set {t : RecordType} {s : Bytes} {r : t.Value}
    (h : decodeRecord t.schema s = .ok (Record.flat r)) (hp : p ∈ setFields r) :
    ∃ tree, parse s = .ok (some tree) ∧
      ((∃ ls, tree = .sequence ls ∧ p.1 ∈ (t.fields.map Field.name).take ls.length) ∨
      ∃ entries, tree = .map entries ∧ keyOfName p.1 ∈ entries.map Prod.fst) := by
  have hread : Record.flat r ≠ Record.fill Kind.unset (flatFields t.fields) := by
    intro hunset
    rw [setFields_eq_nil hunset] at hp
    cases hp
  unfold decodeRecord at h
  split at h
  · cases h
  · exact absurd (Except.ok.inj h).symm hread
  · rename_i tree hparse
    refine ⟨tree, hparse, ?_⟩
    cases hrecord : readRecord readKind Kind.unset t.schema.name t.schema.fields tree with
    | error f =>
        rw [hrecord] at h
        cases h
    | ok r' =>
        rw [hrecord] at h
        cases h
        rcases readRecord_cases hrecord with hunset | ⟨ls, rfl, hls⟩ | ⟨entries, rfl, hentries⟩
        · exact absurd hunset hread
        · exact Or.inl ⟨ls, rfl, mem_take_of_readPositions hls hp⟩
        · exact Or.inr ⟨entries, rfl, mem_keys_of_readEntries hentries hp⟩

end Fields

end Query

/-- A filtered field that a query sets is disguised in one of the pairs that are kept. -/
theorem exists_disguise_of_set {α : Type} [Flat α]
    (ht : ∀ f ∈ (Flat.type α).fields, Query.IsUncutName f.name) {filter : List String}
    {query : Bytes} {m : α} (h : decodeQuery α filter query = .ok m) {p : String × String}
    (hp : p ∈ Query.setFields (Flat.toRecord m)) (hfilter : p.1 ∈ filter) :
    ∃ pair ∈ Query.keptPairs filter query,
      Query.Disguises (((Flat.type α).fields.map Field.name).take 2) p.1 pair := by
  obtain ⟨_, hnodup, hdecode⟩ := decodeQuery_eq_ok_iff.mp h
  have huncut : ∀ pair ∈ Query.keptPairs filter query, 0x26 ∉ pair := fun pair hpair =>
    not_mem_of_mem_pieces (List.mem_filter.mp (Query.mem_unfiltered_iff.mp hpair).1).1
  obtain ⟨f, hf, hname⟩ := List.mem_map.mp (Query.mem_names_of_mem_setFields hp)
  have huncutName : Query.IsUncutName p.1 := hname ▸ ht f hf
  obtain ⟨tree, hparse, htree⟩ := Query.exists_tree_of_set (Query.decode_eq_ok_iff.mp hdecode) hp
  have hreaches := Query.reaches_of_parse huncut hparse
  rcases htree with ⟨ls, rfl, hfirst⟩ | ⟨entries, rfl, hkey⟩
  · have hkeyless := Query.keyCount_le_one hnodup []
    have hbrackets := Query.keyCount_le_one hnodup [0x5B, 0x5D]
    obtain ⟨hlength, hone⟩ := hreaches
    obtain ⟨pair, hpair, hkey⟩ := Query.exists_of_keyCount_pos (hone.resolve_left (by omega))
    refine ⟨pair, hpair, .position hkey ?_⟩
    exact List.take_subset_take_left _ (by omega) hfirst
  · rcases hreaches _ hkey with ⟨pair, hpair, hhead⟩ | ⟨s, hs, hand⟩
    · have hroot := (Query.mem_unfiltered_iff.mp hpair).2
      exact ⟨pair, hpair,
        Query.disguises_of_ofWritten huncutName hfilter (huncut pair hpair) hroot hhead.symm _⟩
    · rw [← Query.Key.name.inj hs] at hand
      exact absurd hand (huncutName.1.not_mem rfl)

set_option maxRecDepth 4000 in
/-- A filtered field of an audit listing is unset unless a kept pair disguises it: no pair that is
written without escapes and brackets in its key sets it. -/
theorem decodeQuery_filtered {filter : List String} {query : Bytes} {m : Message.AuditListRequest}
    (h : decodeQuery Message.AuditListRequest filter query = .ok m) {name text : String}
    (hset : (name, text) ∈ Query.setFields (Flat.toRecord m)) (hfilter : name ∈ filter) :
    ∃ pair ∈ Query.keptPairs filter query, Query.Disguises ["ge", "le"] name pair :=
  exists_disguise_of_set (by decide) h hset hfilter

/-- A subject with an escape in its name. -/
def disguised : List Query.Spelling := [⟨Utf8.encode "%73ubject", "subject", "a"⟩]

/-- Which audits to list if the subject gets through. -/
def disguisedRequest : Message.AuditListRequest := { subject := some "a" }

theorem spells_disguised : ∀ w ∈ disguised, Query.Spells w.key w.name :=
  List.forall_mem_singleton.mpr ⟨by decide +kernel, by decide, by decide⟩

theorem decodeQuery_disguised :
    decodeQuery Message.AuditListRequest ["subject"] (Query.spelled disguised) =
      .ok disguisedRequest := by
  apply decodeQuery_spelled Query.plainNames_auditListRequest spells_disguised (by decide)
    (by decide)
  exact fun _ => rfl

theorem decodeQuery_disguised_filtered :
    decodeQuery Message.AuditListRequest ["subject"] (Query.spelled disguised) =
        .ok disguisedRequest ∧
      ∃ pair ∈ Query.keptPairs ["subject"] (Query.spelled disguised),
        Query.Disguises ["ge", "le"] "subject" pair := by
  have hset : ("subject", "a") ∈ Query.setFields (Flat.toRecord disguisedRequest) := by decide
  exact ⟨decodeQuery_disguised, decodeQuery_filtered decodeQuery_disguised hset (by decide)⟩

/-- A filtered field can be set. -/
theorem not_unset_of_filtered :
    ¬ ∀ (filter : List String) (query : Bytes) (m : Message.AuditListRequest),
      decodeQuery Message.AuditListRequest filter query = .ok m →
        ∀ name ∈ filter, (Query.setFields (Flat.toRecord m)).lookup name = none := by
  intro h
  have hnone := h ["subject"] (Query.spelled disguised) _ decodeQuery_disguised "subject"
    List.mem_cons_self
  cases hnone

end RestGateway
