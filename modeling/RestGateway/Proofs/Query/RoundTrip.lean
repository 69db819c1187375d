import Mathlib.Data.List.Perm.Basic
import RestGateway.Message.Types
import RestGateway.Proofs.Number.Integer
import RestGateway.Proofs.Query.Pairs
import RestGateway.Query.Writer

/-!
# Reading back query strings

The fields of a record are looked up under their names, where the last leaf counts, so the order of
different names does not matter, and fields without a pair come back unset. A message of scalars is
read from every query string whose last pair of each name has the text of the field, however the
names are spelled. In particular it is read back from what writes its set fields.
-/

namespace RestGateway

namespace Query

section Values

/-- The leaves are a value with the text: the only one, or the last of several, has it. -/
inductive Shows (s : String) : Tree → Prop
  | leaf : Shows s (.leaf (leafOf s))
  | sequence {ls : List Leaf} (h : lastLeaf ls = Utf8.encode s) : Shows s (.sequence ls)

theorem bytes_leafOf (s : String) : (leafOf s).bytes = Utf8.encode s := by
  unfold leafOf
  split
  · rename_i h
    rw [h]
    rfl
  · rfl

theorem leafOf_ne_bare (s : String) : leafOf s ≠ .bare := by
  unfold leafOf
  split <;> exact Leaf.noConfusion

theorem readText_of_shows {s : String} {tree : Tree} (h : Shows s tree) :
    readText tree = .ok s := by
  cases h with
  | leaf =>
      rw [readText, bytes_leafOf, text, Utf8.decode_encode]
      rfl
  | sequence h =>
      rw [readText, h, text, Utf8.decode_encode]
      rfl

/-- A value that is there is read where it may be left out. -/
theorem readOptional_of_shows {α : Type} {read : Tree → Reading α} {s : String} {tree : Tree}
    {v : α} (h : Shows s tree) (hread : read tree = .ok v) :
    readOptional read tree = .ok (some v) := by
  cases h with
  | leaf =>
      unfold readOptional
      split
      · rename_i hbare
        exact absurd (Tree.leaf.inj hbare) (leafOf_ne_bare s)
      · rw [hread]
        rfl
  | sequence h =>
      rw [readOptional, hread]
      · rfl
      · exact fun hbare => Tree.noConfusion hbare

theorem toString_toInt_ne_empty (n : Int64) : toString n.toInt ≠ "" := by
  intro h
  have hread := Integer.readBytes_toString n
  rw [h] at hread
  cases hread

theorem integer_toString (n : Int64) : integer (Utf8.encode (toString n.toInt)) = .ok n := by
  rw [integer, text, Utf8.decode_encode, Integer.readBytes_toString]
  simp only [Except.mapError, Int64.ofInt_toInt]

theorem readInt64_of_shows {n : Int64} {tree : Tree} (h : Shows (toString n.toInt) tree) :
    readInt64 tree = .ok n := by
  cases h with
  | leaf =>
      rw [leafOf, if_neg (toString_toInt_ne_empty n), readInt64, integer_toString]
  | sequence h =>
      rw [readInt64, h, integer_toString]

variable {k : Scalar} {v : k.Value}

/-- A value that is set is read from its text. -/
theorem readScalar_of_shows {s : String} {tree : Tree} (hset : setText? k v = some s)
    (h : Shows s tree) : readScalar k tree = .ok v := by
  cases k with
  | text =>
      by_cases hv : v = ""
      · exact absurd ((if_pos hv).symm.trans hset) (by simp)
      · cases (if_neg hv).symm.trans hset
        exact readText_of_shows h
  | optionalText =>
      cases hset
      exact readOptional_of_shows h (readText_of_shows h)
  | optionalInt =>
      obtain ⟨n, rfl, rfl⟩ := Option.map_eq_some_iff.mp hset
      exact readOptional_of_shows h (readInt64_of_shows h)

/-- A value that is not set is the one that nothing set. -/
theorem eq_unset_of_setText? (h : setText? k v = none) : v = Scalar.unset k := by
  cases k with
  | text =>
      by_cases hv : v = ""
      · exact hv
      · exact absurd ((if_neg hv).symm.trans h) (by simp)
  | optionalText => exact h
  | optionalInt => exact Option.map_eq_none_iff.mp h

end Values

section Leaves

/-- The tree of the leaves of a key. -/
def treeOf : List Leaf → Option Tree
  | [] => none
  | [l] => some (.leaf l)
  | ls => some (.sequence ls)

theorem add_treeOf (ls : List Leaf) (l : Leaf) :
    some (Tree.add (treeOf ls) l) = treeOf (ls ++ [l]) := by
  match ls with
  | [] => rfl
  | [_] => rfl
  | _ :: _ :: _ => rfl

/-- The leaf that counts is the last one. -/
theorem shows_treeOf {ls : List Leaf} {s : String} (h : ls.getLast? = some (leafOf s)) :
    ∃ tree, treeOf ls = some tree ∧ Shows s tree := by
  match ls with
  | [] => cases h
  | [_] =>
      cases h
      exact ⟨_, rfl, .leaf⟩
  | _ :: _ :: _ =>
      refine ⟨_, rfl, .sequence ?_⟩
      rw [lastLeaf, h]
      exact bytes_leafOf s

/-- The leaves of the pairs with a name. -/
def leavesOf (ws : List Spelling) (name : String) : List Leaf :=
  (ws.filter fun w => w.name = name).map fun w => leafOf w.text

/-- A name has the leaves of its pairs behind those that it had before. -/
theorem Entries.get?_collect {entries : Entries} {name : String} {ls : List Leaf}
    (h : entries.get? (keyOfName name) = treeOf ls) (ws : List Spelling) :
    (entries.collect ws).get? (keyOfName name) = treeOf (ls ++ leavesOf ws name) := by
  induction ws generalizing entries ls with
  | nil => simpa [collect, leavesOf] using h
  | cons w ws ih =>
      have hcollect : entries.collect (w :: ws) =
          (entries.put (keyOfName w.name) (leafOf w.text)).collect ws := rfl
      rw [hcollect]
      by_cases hname : w.name = name
      · subst hname
        have hput : (entries.put (keyOfName w.name) (leafOf w.text)).get? (keyOfName w.name) =
            treeOf (ls ++ [leafOf w.text]) := by
          rw [put, get?_set, if_pos rfl, h, add_treeOf]
        have hself : leavesOf (w :: ws) w.name = leafOf w.text :: leavesOf ws w.name := by
          simp [leavesOf]
        rw [ih hput, hself, List.append_assoc]
        rfl
      · have hput : (entries.put (keyOfName w.name) (leafOf w.text)).get? (keyOfName name) =
            treeOf ls := by
          rw [put, get?_set, if_neg fun heq => hname (keyOfName_injective heq), h]
        have hother : leavesOf (w :: ws) name = leavesOf ws name := by
          simp [leavesOf, hname]
        rw [ih hput, hother]

/-- The text of the last pair with a name. -/
def lastText? (ws : List Spelling) (name : String) : Option String :=
  (ws.reverse.map fun w => (w.name, w.text)).lookup name

theorem getLast?_leavesOf (ws : List Spelling) (name : String) :
    (leavesOf ws name).getLast? = (lastText? ws name).map leafOf := by
  have hlookup : ∀ us : List Spelling, (us.map fun w => (w.name, w.text)).lookup name =
      (us.find? fun w => w.name = name).map Spelling.text := by
    intro us
    induction us with
    | nil => rfl
    | cons u us ih =>
        by_cases hname : u.name = name
        · simp [hname]
        · have hne : (name == u.name) = false := beq_false_of_ne (Ne.symm hname)
          simp [List.lookup_cons, hname, hne, ih]
  rw [leavesOf, List.getLast?_map, lastText?, hlookup, List.getLast?_eq_head?_reverse,
    ← List.filter_reverse, List.head?_filter, Option.map_map]
  rfl

end Leaves

section Records

variable {fs : List (Field Scalar)}

/-- Fields that are set come in the order of the fields. -/
theorem setFields_sublist (r : Record Scalar.Value fs) :
    ((setFields r).map Prod.fst).Sublist (fs.map Field.name) := by
  induction fs with
  | nil => exact List.Sublist.refl []
  | cons f fs ih =>
      obtain ⟨v, vs⟩ := r
      rw [setFields, List.map_append]
      cases setText? f.kind v with
      | none => exact (ih vs).cons f.name
      | some s => exact (ih vs).cons_cons f.name

theorem mem_of_lookup {ps : List (String × String)} {name s : String}
    (h : ps.lookup name = some s) : (name, s) ∈ ps := by
  obtain ⟨before, after, rfl, _⟩ := List.lookup_eq_some_iff.mp h
  exact List.mem_append_right before List.mem_cons_self

/-- Where each name comes once, the order does not matter for what it comes with. -/
theorem lookup_eq_of_perm {ps qs : List (String × String)} (h : ps.Perm qs)
    (hnodup : (ps.map Prod.fst).Nodup) (name : String) : ps.lookup name = qs.lookup name := by
  induction h with
  | nil => rfl
  | cons p _ ih =>
      rw [List.lookup_cons, List.lookup_cons, ih (List.nodup_cons.mp hnodup).2]
  | swap p q rest =>
      have hne : q.1 ≠ p.1 := fun heq => (List.nodup_cons.mp hnodup).1 (heq ▸ List.mem_cons_self)
      rw [List.lookup_cons, List.lookup_cons, List.lookup_cons, List.lookup_cons]
      by_cases hp : name = p.1
      · have hq : (name == q.1) = false := beq_false_of_ne fun heq => hne (heq.symm.trans hp)
        rw [hq]
      · rw [beq_false_of_ne hp]
  | trans hps _ ih ih' => exact (ih hnodup).trans (ih' ((hps.map Prod.fst).nodup_iff.mp hnodup))

theorem mem_names_of_mem_setFields {r : Record Scalar.Value fs} {p : String × String}
    (h : p ∈ setFields r) : p.1 ∈ fs.map Field.name :=
  (setFields_sublist r).subset (List.mem_map_of_mem h)

/-- The text of the first field, if it is set. -/
theorem lookup_setFields_self {f : Field Scalar} (hf : f.name ∉ fs.map Field.name)
    (v : f.kind.Value) (vs : Record Scalar.Value fs) :
    (@setFields (f :: fs) (v, vs)).lookup f.name = setText? f.kind v := by
  rw [setFields]
  cases setText? f.kind v with
  | none =>
      rw [Option.map_none, Option.toList_none, List.nil_append, List.lookup_eq_none_iff]
      intro p hp
      refine bne_iff_ne.mpr fun heq => hf ?_
      rw [heq]
      exact mem_names_of_mem_setFields hp
  | some s => simp

theorem lookup_setFields_of_ne {f : Field Scalar} {name : String} (hne : name ≠ f.name)
    (v : f.kind.Value) (vs : Record Scalar.Value fs) :
    (@setFields (f :: fs) (v, vs)).lookup name = (setFields vs).lookup name := by
  rw [setFields]
  cases setText? f.kind v with
  | none => rfl
  | some s => simp [List.lookup_cons, beq_false_of_ne hne]

/-- A map whose last leaves are the texts of the fields that are set is read as the record. -/
theorem readEntries_of_last (hnames : (fs.map Field.name).Nodup) {entries : Entries}
    {r : Record Scalar.Value fs}
    (h : ∀ name ∈ fs.map Field.name, ∃ ls, entries.get? (keyOfName name) = treeOf ls ∧
      ls.getLast? = ((setFields r).lookup name).map leafOf) :
    readEntries readKind Kind.unset entries (flatFields fs) = .ok (Record.flat r) := by
  induction fs with
  | nil => rfl
  | cons f fs ih =>
      obtain ⟨v, vs⟩ := r
      obtain ⟨hf, hnames⟩ := List.nodup_cons.mp hnames
      have hrest : readEntries readKind Kind.unset entries (flatFields fs) =
          .ok (Record.flat vs) := by
        apply ih hnames
        intro name hname
        obtain ⟨ls, hget, hlast⟩ := h name (List.mem_cons_of_mem _ hname)
        have hne : name ≠ f.name := fun heq => hf (heq ▸ hname)
        exact ⟨ls, hget, hlast.trans (by rw [lookup_setFields_of_ne hne])⟩
      obtain ⟨ls, hget, hlast⟩ := h f.name List.mem_cons_self
      rw [lookup_setFields_self hf] at hlast
      rw [keyOfName] at hget
      cases hs : setText? f.kind v with
      | none =>
          rw [hs, Option.map_none, List.getLast?_eq_none_iff] at hlast
          subst hlast
          simp only [flatFields, readEntries, hget, treeOf, hrest]
          rw [eq_unset_of_setText? hs]
          rfl
      | some s =>
          rw [hs] at hlast
          obtain ⟨tree, htree, hshows⟩ := shows_treeOf hlast
          have hread : readKind (.scalar f.kind) tree = .ok v := readScalar_of_shows hs hshows
          simp only [flatFields, readEntries, hget, htree, hrest, hread]
          rfl

/-- An empty map sets nothing. -/
theorem readEntries_nil {κ : Type} {Value : κ → Type} (read : (k : κ) → Tree → Reading (Value k))
    (unset : (k : κ) → Value k) (fs : List (Field κ)) :
    readEntries read unset [] fs = .ok (Record.fill unset fs) := by
  induction fs with
  | nil => rfl
  | cons f fs ih =>
      have hnone : Entries.get? [] (.name (Utf8.encode f.name)) = none := rfl
      simp only [readEntries, hnone, ih]
      rfl

theorem checkNames_nil : checkNames [] = .ok () := by
  rw [checkNames, List.mergeSort_nil]
  rfl

theorem any_name_flatFields {name : String} (h : name ∈ fs.map Field.name) :
    ((flatFields fs).any fun f => Utf8.encode f.name == Utf8.encode name) = true := by
  induction fs with
  | nil => cases h
  | cons f fs ih =>
      rw [flatFields, List.any_cons, Bool.or_eq_true]
      rcases List.mem_cons.mp h with rfl | h
      · exact Or.inl (beq_self_eq_true _)
      · exact Or.inr (ih h)

theorem Entries.exists_of_mem_collect {entries : Entries} {ws : List Spelling} {key : Key}
    (h : key ∈ (entries.collect ws).map Prod.fst) :
    key ∈ entries.map Prod.fst ∨ ∃ w ∈ ws, key = keyOfName w.name := by
  induction ws generalizing entries with
  | nil => exact Or.inl h
  | cons w ws ih =>
      rcases ih h with hput | ⟨v, hv, hkey⟩
      · rcases Entries.mem_keys_set hput with rfl | hentries
        · exact Or.inr ⟨w, List.mem_cons_self, rfl⟩
        · exact Or.inl hentries
      · exact Or.inr ⟨v, List.mem_cons_of_mem w hv, hkey⟩

/-- Names of fields are no other names. -/
theorem otherNames_collect {ws : List Spelling} (h : ∀ w ∈ ws, w.name ∈ fs.map Field.name) :
    otherNames (flatFields fs) (Entries.collect [] ws) = [] := by
  rw [otherNames, List.filterMap_eq_nil_iff]
  intro e he
  rcases Entries.exists_of_mem_collect (List.mem_map_of_mem he) with hnone | ⟨w, hw, hkey⟩
  · cases hnone
  · rw [hkey]
    exact if_pos (any_name_flatFields (h w hw))

end Records

/-- The fields of a record have plain names, each its own. -/
def PlainNames (t : RecordType) : Prop :=
  (∀ f ∈ t.fields, IsPlainName f.name) ∧ (t.fields.map Field.name).Nodup

instance (t : RecordType) : Decidable (PlainNames t) := inferInstanceAs (Decidable (_ ∧ _))

set_option maxRecDepth 4000 in
theorem plainNames_auditListRequest : PlainNames (Flat.type Message.AuditListRequest) := by decide

/-- A record is read from pairs of which the last one of each name has the text of its field. -/
theorem decodeRecord_spelled {t : RecordType} (ht : PlainNames t) {r : t.Value}
    {ws : List Spelling} (hws : ∀ w ∈ ws, Spells w.key w.name)
    (hlast : ∀ name, lastText? ws name = (setFields r).lookup name) :
    decodeRecord t.schema (spelled ws) = .ok (Record.flat r) := by
  have hnames : ∀ w ∈ ws, w.name ∈ t.fields.map Field.name := by
    intro w hw
    cases hs : lastText? ws w.name with
    | none =>
        have hnone := List.lookup_eq_none_iff.mp hs (w.name, w.text)
          (List.mem_map.mpr ⟨w, List.mem_reverse.mpr hw, rfl⟩)
        exact absurd rfl (bne_iff_ne.mp hnone)
    | some s => exact mem_names_of_mem_setFields (mem_of_lookup ((hlast w.name).symm.trans hs))
  have hread : readEntries readKind Kind.unset (Entries.collect [] ws) (flatFields t.fields) =
      .ok (Record.flat r) := by
    apply readEntries_of_last ht.2
    intro name _
    refine ⟨leavesOf ws name, ?_, ?_⟩
    · exact @Entries.get?_collect [] name [] rfl ws
    · rw [getLast?_leavesOf, hlast]
  by_cases hne : ws = []
  · -- Without pairs there is no map, which comes to the same as an empty one.
    subst hne
    exact congrArg _ (Except.ok.inj ((readEntries_nil _ _ _).symm.trans hread))
  · have hplain : ∀ w ∈ ws, IsPlainName w.name := by
      intro w hw
      obtain ⟨f, hf, hname⟩ := List.mem_map.mp (hnames w hw)
      exact hname ▸ ht.1 f hf
    rw [decodeRecord, parse_spelled hne hws hplain]
    simp only [readRecord, RecordType.schema, hread, otherNames_collect hnames, checkNames_nil]
    rfl

end Query

/-- A message of scalars is read from a query if the last pair of each name has the text of the
field, whatever the spelling of the names, as long as no key is repeated as it is written and none
is rooted at a filtered name. -/
theorem decodeQuery_spelled {α : Type} [Flat α] (ht : Query.PlainNames (Flat.type α)) {m : α}
    {filter : List String} {ws : List Query.Spelling}
    (hws : ∀ w ∈ ws, Query.Spells w.key w.name) (hkeys : (ws.map Query.Spelling.key).Nodup)
    (hroots : ∀ w ∈ ws, Query.rootOf w.key ∉ filter.map Utf8.encode)
    (hlast : ∀ name, Query.lastText? ws name = (Query.setFields (Flat.toRecord m)).lookup name) :
    decodeQuery α filter (Query.spelled ws) = .ok m := by
  have hkept := Query.keptPairs_spelled hws hroots
  have hraw : (ws.map Query.Spelling.pair).map Query.keyOf = ws.map Query.Spelling.key := by
    rw [List.map_map]
    exact List.map_congr_left fun w hw => Query.Spelling.keyOf_pair (hws w hw)
  refine decodeQuery_eq_ok_iff.mpr ⟨?_, ?_, ?_⟩
  · rw [Query.pairs_spelled hws]
    intro p hp
    obtain ⟨w, hw, rfl⟩ := List.mem_map.mp hp
    exact Query.Spelling.badEscape?_pair (hws w hw)
  · rwa [hkept, hraw]
  · rw [hkept]
    exact Query.decode_eq_ok_iff.mpr (Query.decodeRecord_spelled ht hws hlast)

/-- A message of scalars is read back from every query string that writes its set fields, and the
checks in front of the reader let such a query string pass. -/
theorem decodeQuery_write {α : Type} [Flat α] (ht : Query.PlainNames (Flat.type α)) (m : α)
    {ps : List (String × String)} (hps : ps.Perm (Query.setFields (Flat.toRecord m))) :
    decodeQuery α [] (Query.write ps) = .ok m := by
  let spell : String × String → Query.Spelling := fun p => ⟨Utf8.encode p.1, p.1, p.2⟩
  have hnames := (Query.setFields_sublist (Flat.toRecord m)).nodup ht.2
  have hnodup : (ps.map Prod.fst).Nodup := (hps.map Prod.fst).nodup_iff.mpr hnames
  have hwrite : Query.write ps = Query.spelled (ps.map spell) := by
    rw [Query.write, Query.spelled, List.map_map]
    rfl
  rw [hwrite]
  apply decodeQuery_spelled ht
  · intro w hw
    obtain ⟨p, hp, rfl⟩ := List.mem_map.mp hw
    obtain ⟨f, hf, hname⟩ := List.mem_map.mp (Query.mem_names_of_mem_setFields (hps.subset hp))
    exact (hname ▸ ht.1 f hf : Query.IsPlainName p.1).spells
  · have hkeys : (ps.map spell).map Query.Spelling.key = (ps.map Prod.fst).map Utf8.encode := by
      rw [List.map_map, List.map_map]
      rfl
    rw [hkeys]
    exact hnodup.map fun _ _ => Utf8.encode_injective
  · exact fun _ _ => List.not_mem_nil
  · intro name
    have hlast : Query.lastText? (ps.map spell) name = ps.reverse.lookup name := by
      rw [Query.lastText?, ← List.map_reverse, List.map_map]
      exact congrArg (List.lookup name) (List.map_id _)
    rw [hlast]
    apply Query.lookup_eq_of_perm ((List.reverse_perm ps).trans hps)
    rwa [List.map_reverse, List.nodup_reverse]

set_option maxRecDepth 4000 in
/-- Which audits to list is read back from a query string with one pair for each field that is set,
whatever the values are and in whatever order the pairs stand. -/
theorem decodeQuery_auditListRequest (m : Message.AuditListRequest) {ps : List (String × String)}
    (hps : ps.Perm (Query.setFields (Flat.toRecord m))) :
    decodeQuery Message.AuditListRequest [] (Query.write ps) = .ok m :=
  decodeQuery_write (by decide) m hps

/-- A request whose values are made of everything that means something in a query string. -/
def punctuated : Message.AuditListRequest where
  ge := some "a&b=c"
  limit := some Int64.minValue
  status := some ""
  actor := some "100%+[é]"

/-- The pairs may stand in the reverse order. -/
theorem decodeQuery_punctuated :
    (Query.setFields (Flat.toRecord punctuated)).reverse.Perm
        (Query.setFields (Flat.toRecord punctuated)) ∧
      decodeQuery Message.AuditListRequest []
        (Query.write (Query.setFields (Flat.toRecord punctuated)).reverse) = .ok punctuated :=
  ⟨List.reverse_perm _, decodeQuery_auditListRequest punctuated (List.reverse_perm _)⟩

end RestGateway
