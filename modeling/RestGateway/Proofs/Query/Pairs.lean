import RestGateway.Proofs.Query.Kept
import RestGateway.Proofs.Text.Percent
import RestGateway.Proofs.Text.Pieces

/-!
# Spelled pairs

The key of a pair may be spelled with escapes and plus signs in place of the bytes of a name. Pairs
with such keys are cut out of the text that they are joined to, and no percent sign in them is bad.
Reading puts their leaves into a map under the names, in the order of the pairs, so names that come
several times collect their leaves.
-/

namespace RestGateway.Query

/-- Names that mean nothing but themselves in a query string: their bytes are unreserved, and they
are no numbers. -/
def IsPlainName (name : String) : Prop :=
  (∀ b ∈ Utf8.encode name, Percent.isUnreserved b = true) ∧
    ∃ b ∈ Utf8.encode name, Ascii.isDigit b = false

instance (name : String) : Decidable (IsPlainName name) := inferInstanceAs (Decidable (_ ∧ _))

/-- The key of a field. -/
def keyOfName (name : String) : Key := .name (Utf8.encode name)

/-- The leaf of a text. -/
def leafOf (text : String) : Leaf := if text = "" then .blank else .text (Utf8.encode text)

theorem keyOfName_injective {name name' : String} (h : keyOfName name = keyOfName name') :
    name = name' :=
  Utf8.encode_injective (Key.name.inj h)

/-- What is written as `key` is the name: it has no byte that ends a key, its percent signs start
escapes, and reading it as a part of a form gives the name. -/
structure Spells (key : Bytes) (name : String) : Prop where
  uncut : ∀ b ∈ key, b ≠ 0x26 ∧ b ≠ 0x3D ∧ b ≠ 0x5B
  escapes : Percent.badEscape? key = none
  decodes : Percent.decodeForm key = Utf8.encode name

section Names

variable {name : String} {key : Bytes}

theorem IsPlainName.ne {a : UInt8} (h : IsPlainName name) (ha : Percent.isUnreserved a = false) :
    ∀ b ∈ Utf8.encode name, b ≠ a := by
  rintro b hb rfl
  rw [h.1 b hb] at ha
  cases ha

theorem IsPlainName.not_mem {a : UInt8} (h : IsPlainName name)
    (ha : Percent.isUnreserved a = false) : a ∉ Utf8.encode name :=
  fun hmem => h.ne ha a hmem rfl

theorem IsPlainName.ne_nil (h : IsPlainName name) : Utf8.encode name ≠ [] := by
  obtain ⟨b, hb, _⟩ := h.2
  exact List.ne_nil_of_mem hb

/-- A plain name spells itself. -/
theorem IsPlainName.spells (h : IsPlainName name) : Spells (Utf8.encode name) name where
  uncut b hb := ⟨h.ne rfl b hb, h.ne rfl b hb, h.ne rfl b hb⟩
  escapes := Percent.badEscape?_of_not_mem (h.not_mem rfl)
  decodes := by
    have hencode : Percent.encodeText name = Utf8.encode name :=
      Percent.encode_eq_self fun b hb => by simp [h.1 b hb]
    rw [← hencode, Percent.decodeForm_encodeText, hencode]

theorem Spells.ne_nil (h : Spells key name) (hname : IsPlainName name) : key ≠ [] := by
  rintro rfl
  exact hname.ne_nil h.decodes.symm

/-- However a plain name is spelled, it is read as its key: digits spell digits only. -/
theorem Spells.ofWritten_eq (h : Spells key name) (hname : IsPlainName name) :
    Key.ofWritten key = keyOfName name := by
  have hdigits : key.all Ascii.isDigit = false := by
    refine Bool.eq_false_iff.mpr fun hall => ?_
    have hdigit := List.all_eq_true.mp hall
    have hpercent : 0x25 ∉ key := fun hmem => absurd (hdigit _ hmem) (by decide)
    have hself : Percent.decodeForm key = key := by
      rw [Percent.decodeForm, Percent.decodeOnto_of_not_mem hpercent, List.reverse_nil,
        List.nil_append]
      refine (List.map_congr_left fun b hb => if_neg fun hplus => ?_).trans (List.map_id key)
      rw [beq_iff_eq.mp hplus] at hb
      exact absurd (hdigit _ hb) (by decide)
    obtain ⟨b, hb, hnot⟩ := hname.2
    rw [← h.decodes, hself] at hb
    rw [hdigit b hb] at hnot
    cases hnot
  rw [Key.ofWritten, hdigits, h.decodes]
  simp [keyOfName]

end Names

/-- A pair: its key as it is written, the name that the key means, and the text of its value. -/
structure Spelling where
  key : Bytes
  name : String
  text : String

/-- Writes the key and the value. -/
def Spelling.pair (w : Spelling) : Bytes := w.key ++ 0x3D :: Percent.encodeText w.text

variable {w : Spelling} {ws : List Spelling}

section Checks

theorem Spelling.pair_ne_nil (w : Spelling) : w.pair ≠ [] := by
  simp [pair]

theorem Spelling.not_mem_pair (hw : Spells w.key w.name) : 0x26 ∉ w.pair := by
  intro h
  rcases List.mem_append.mp h with h | h
  · exact (hw.uncut _ h).1 rfl
  · rcases List.mem_cons.mp h with h | h
    · cases h
    · exact Percent.not_mem_encodeText (by decide) rfl w.text h

theorem Spelling.badEscape?_pair (hw : Spells w.key w.name) : Percent.badEscape? w.pair = none := by
  rw [pair, Percent.badEscape?_append hw.escapes, Percent.badEscape?_cons_of_ne (by decide),
    Percent.badEscape?_encodeText]

theorem Spelling.keyOf_pair (hw : Spells w.key w.name) : keyOf w.pair = w.key := by
  have hall : ∀ b ∈ w.key, (b != 0x3D) = true := by
    intro b hb
    simpa using (hw.uncut b hb).2.1
  rw [keyOf, pair, List.takeWhile_append_of_pos hall]
  simp

/-- Pieces without the separator are the pairs that they are joined to, if none is empty. -/
theorem pairs_joined {ps : List Bytes} (hne : ∀ p ∈ ps, p ≠ []) (huncut : ∀ p ∈ ps, 0x26 ∉ p) :
    pairs (joined 0x26 ps) = ps := by
  cases ps with
  | nil => rfl
  | cons p ps =>
      rw [pairs, pieces_joined (List.cons_ne_nil p ps) huncut]
      apply List.filter_eq_self.mpr
      intro q hq
      simpa using hne q hq

/-- Writes pairs in their order. -/
def spelled (ws : List Spelling) : Bytes := joined 0x26 (ws.map Spelling.pair)

theorem pairs_spelled (hws : ∀ w ∈ ws, Spells w.key w.name) :
    pairs (spelled ws) = ws.map Spelling.pair := by
  apply pairs_joined
  · intro p hp
    obtain ⟨w, _, rfl⟩ := List.mem_map.mp hp
    exact w.pair_ne_nil
  · intro p hp
    obtain ⟨w, hw, rfl⟩ := List.mem_map.mp hp
    exact Spelling.not_mem_pair (hws w hw)

/-- Pairs whose keys are rooted at no name in the filter are all kept. -/
theorem keptPairs_spelled {filter : List String} (hws : ∀ w ∈ ws, Spells w.key w.name)
    (hroots : ∀ w ∈ ws, rootOf w.key ∉ filter.map Utf8.encode) :
    keptPairs filter (spelled ws) = ws.map Spelling.pair := by
  rw [keptPairs, pairs_spelled hws, unfiltered, List.filter_eq_self]
  intro p hp
  obtain ⟨w, hw, rfl⟩ := List.mem_map.mp hp
  simpa [Spelling.keyOf_pair (hws w hw)] using hroots w hw

end Checks

section Reading

/-- The text in front of which a pair ends. -/
def following : Rest → Bytes
  | none => []
  | some rest => 0x26 :: rest

/-- A text that was written is read as its leaf, up to the end of the pair. -/
theorem readValue_encodeText (text : String) (rest : Rest) :
    readValue (Percent.encodeText text ++ following rest) = (leafOf text, rest) := by
  have hall : ∀ b ∈ Percent.encodeText text, (b != 0x26) = true := by
    intro b hb
    have hne : b ≠ 0x26 := by
      rintro rfl
      exact Percent.not_mem_encodeText (by decide) rfl text hb
    simpa using hne
  have hrest : ∀ b ∈ (following rest).head?, (b != 0x26) = false := by
    intro b hb
    cases rest with
    | none => cases hb
    | some rest =>
        cases hb
        rfl
  have hleaf : (if (Percent.encodeText text).isEmpty then Leaf.blank
      else .text (Percent.decodeForm (Percent.encodeText text))) = leafOf text := by
    simp [leafOf, Percent.decodeForm_encodeText, Percent.encodeText_eq_nil_iff]
  simp only [readValue, span_append hall hrest, hleaf]
  cases rest <;> rfl

theorem Entries.get?_set (entries : Entries) (key key' : Key) (value : Tree) :
    (entries.set key value).get? key' = if key = key' then some value else entries.get? key' := by
  induction entries with
  | nil => by_cases h : key = key' <;> simp [Entries.set, Entries.get?, h]
  | cons entry rest ih =>
      rw [Entries.set]
      by_cases hentry : entry.1 = key
      · subst hentry
        by_cases h : entry.1 = key' <;> simp [Entries.get?, h]
      · rw [if_neg hentry]
        by_cases h : entry.1 = key'
        · have hne : key ≠ key' := fun heq => hentry (h.trans heq.symm)
          simp [Entries.get?, h, hne]
        · simpa [Entries.get?, h] using ih

theorem Entries.mem_keys_set {entries : Entries} {key key' : Key} {value : Tree}
    (h : key' ∈ (entries.set key value).map Prod.fst) :
    key' = key ∨ key' ∈ entries.map Prod.fst := by
  induction entries with
  | nil => exact Or.inl (by simpa [Entries.set] using h)
  | cons entry rest ih =>
      rw [Entries.set] at h
      split at h
      · rw [List.map_cons, List.mem_cons] at h
        exact h.imp_right (List.mem_cons_of_mem _)
      · rw [List.map_cons, List.mem_cons] at h
        rcases h with h | h
        · exact Or.inr (h ▸ List.mem_cons_self)
        · exact (ih h).imp_right (List.mem_cons_of_mem _)

/-- One more leaf of a key. -/
def Entries.put (entries : Entries) (key : Key) (l : Leaf) : Entries :=
  entries.set key (Tree.add (entries.get? key) l)

/-- A pair with a plain name adds its leaf to those of the name. -/
theorem readPair_pair {root : Option Tree} {entries : Entries}
    (hroot : Tree.entries? root = .ok entries) (hw : Spells w.key w.name)
    (hname : IsPlainName w.name) (rest : Rest) :
    readPair root (w.pair ++ following rest) =
      .ok (some (.map (entries.put (keyOfName w.name) (leafOf w.text))), rest) := by
  have hall : ∀ b ∈ w.key, (b != 0x26 && b != 0x3D && b != 0x5B) = true := by
    intro b hb
    obtain ⟨hand, hequals, hbracket⟩ := hw.uncut b hb
    simp [hand, hequals, hbracket]
  have hspan : (w.pair ++ following rest).span (fun b => b != 0x26 && b != 0x3D && b != 0x5B) =
      (w.key, 0x3D :: (Percent.encodeText w.text ++ following rest)) := by
    rw [Spelling.pair, List.append_assoc, List.cons_append]
    apply span_append hall
    rintro b ⟨⟩
    rfl
  obtain ⟨a, s, hs⟩ := List.exists_cons_of_ne_nil (hw.ne_nil hname)
  have hwritten : w.pair ++ following rest =
      a :: (s ++ 0x3D :: (Percent.encodeText w.text ++ following rest)) := by
    rw [Spelling.pair, hs]
    simp
  obtain ⟨hand, hequals, hbracket⟩ := hw.uncut a (hs ▸ List.mem_cons_self)
  rw [hwritten] at hspan ⊢
  simp only [readPair, beq_iff_eq, hand, hequals, hbracket, if_false, hspan, hroot,
    readValue_encodeText, hw.ofWritten_eq hname]
  rfl

/-- The entries with the leaves of all pairs. -/
def Entries.collect (entries : Entries) (ws : List Spelling) : Entries :=
  ws.foldl (fun entries w => entries.put (keyOfName w.name) (leafOf w.text)) entries

/-- Pairs are read behind what was read before. -/
theorem readPairs_spelled (hne : ws ≠ []) {root : Option Tree} {entries : Entries}
    (hroot : Tree.entries? root = .ok entries) (hws : ∀ w ∈ ws, Spells w.key w.name)
    (hnames : ∀ w ∈ ws, IsPlainName w.name) {clock : Bytes} (hclock : ws.length ≤ clock.length) :
    readPairs root clock (spelled ws) = .ok (some (.map (entries.collect ws))) := by
  induction ws generalizing root entries clock with
  | nil => exact absurd rfl hne
  | cons w ws ih =>
      obtain ⟨c, clock, rfl⟩ := List.exists_cons_of_length_pos (Nat.zero_lt_of_lt hclock)
      have hread := readPair_pair hroot (hws w List.mem_cons_self) (hnames w List.mem_cons_self)
      cases ws with
      | nil =>
          have hlast : spelled [w] = w.pair ++ following none := by
            simp [spelled, joined, following]
          rw [hlast, readPairs, hread none]
          rfl
      | cons v vs =>
          have hmore : spelled (w :: v :: vs) = w.pair ++ following (some (spelled (v :: vs))) := by
            simp [spelled, joined, following, List.intercalate_cons_cons]
          rw [hmore, readPairs, hread (some _)]
          exact ih (List.cons_ne_nil v vs) rfl (fun u hu => hws u (List.mem_cons_of_mem w hu))
            (fun u hu => hnames u (List.mem_cons_of_mem w hu)) (Nat.le_of_succ_le_succ hclock)

/-- There are no more pairs than bytes. -/
theorem length_le_length_spelled (ws : List Spelling) : ws.length ≤ (spelled ws).length := by
  cases ws with
  | nil => exact Nat.zero_le _
  | cons w ws =>
      have hfirst := List.length_pos_of_ne_nil w.pair_ne_nil
      have hrest := length_le_length_flatMap_cons (0x26 : UInt8) (ws.map Spelling.pair)
      rw [List.length_map] at hrest
      rw [spelled, List.map_cons, joined_cons, List.length_append, List.length_cons]
      omega

/-- Pairs are read as a map with the leaves of all of them. -/
theorem parse_spelled (hne : ws ≠ []) (hws : ∀ w ∈ ws, Spells w.key w.name)
    (hnames : ∀ w ∈ ws, IsPlainName w.name) :
    parse (spelled ws) = .ok (some (.map (Entries.collect [] ws))) :=
  readPairs_spelled hne rfl hws hnames (length_le_length_spelled ws)

end Reading

end RestGateway.Query
