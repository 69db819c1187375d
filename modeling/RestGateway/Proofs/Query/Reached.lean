import Mathlib.Data.List.TakeWhile
import RestGateway.Proofs.Query.Pairs

/-!
# What pairs reach

What a query string is read as goes back to its pairs. Each key of the map comes from a pair that
starts with the key, as it stands or in brackets, unless brackets took an ampersand into the key.
Without a map the leaves come from pairs that have no key or empty brackets for one.
-/

namespace RestGateway.Query

section Ends

variable {s t : Bytes} {rest : Rest}

/-- What follows a pair stands behind an ampersand of the text. -/
def EndsPair (s : Bytes) (rest : Rest) : Prop := ∀ r, rest = some r → 0x26 :: r <:+ s

theorem endsPair_none (s : Bytes) : EndsPair s none := by
  rintro r ⟨⟩

theorem endsPair_some {r : Bytes} (h : 0x26 :: r <:+ s) : EndsPair s (some r) := by
  rintro _ ⟨⟩
  exact h

theorem EndsPair.of_suffix (h : EndsPair t rest) (ht : t <:+ s) : EndsPair s rest :=
  fun r hr => (h r hr).trans ht

theorem endsPair_readValue (s : Bytes) : EndsPair s (readValue s).2 := by
  rw [readValue, List.span_eq_takeWhile_dropWhile]
  cases hrest : s.dropWhile (· != 0x26) with
  | nil => simpa [hrest] using endsPair_none s
  | cons b r =>
      have hb : b = 0x26 := by
        have hhead := List.head?_dropWhile_not (· != 0x26) s
        simpa [hrest] using hhead
      have hsuffix := List.dropWhile_suffix (l := s) (· != 0x26)
      rw [hrest, hb] at hsuffix
      simpa [hrest] using endsPair_some hsuffix

/-- Behind empty brackets a leaf is added to a sequence, and the key ends there. -/
theorem readAppended_ends {ls : List Leaf} {tree : Tree}
    (h : readAppended ls s = .ok (tree, rest)) :
    EndsPair s rest ∧ (∃ l, tree = .sequence (ls ++ [l])) ∧
      (s.takeWhile (· != 0x26)).takeWhile (· != 0x3D) = [] := by
  unfold readAppended at h
  split at h
  · cases h
    exact ⟨endsPair_none _, ⟨_, rfl⟩, rfl⟩
  · rename_i b t
    split at h
    · rename_i hb
      cases h
      cases beq_iff_eq.mp hb
      exact ⟨endsPair_some (List.suffix_refl _), ⟨_, rfl⟩, rfl⟩
    · split at h
      · rename_i hb
        cases h
        cases beq_iff_eq.mp hb
        exact ⟨(endsPair_readValue t).of_suffix (List.suffix_cons _ _), ⟨_, rfl⟩, rfl⟩
      · split at h <;> cases h

variable {whole : Bytes} {node : Option Tree} {tree : Tree}

theorem endsPair_readNested_zero (h : readNested whole 0 node s = .ok (tree, rest)) :
    EndsPair s rest := by
  cases s with
  | nil => cases h
  | cons b t =>
      cases hentries : Tree.entries? node with
      | error use =>
          rw [readNested, hentries] at h
          cases h
      | ok entries =>
          rw [readNested, hentries, List.span_eq_takeWhile_dropWhile] at h
          have hsuffix := List.dropWhile_suffix (l := b :: t) fun c => c != 0x26 && c != 0x3D
          simp only [Except.mapError, bind, Except.bind] at h
          split at h
          · cases h
            exact endsPair_none _
          · rename_i c r hrest
            rw [hrest] at hsuffix
            split at h
            · rename_i hc
              cases h
              cases beq_iff_eq.mp hc
              exact endsPair_some hsuffix
            · cases h
              exact (endsPair_readValue r).of_suffix ((List.suffix_cons c r).trans hsuffix)

/-- What reading a key in brackets does: empty brackets append to a sequence, and others set the key
of a map to something that is read from there on. -/
theorem readNested_succ {depth : Nat} (h : readNested whole (depth + 1) node s = .ok (tree, rest)) :
    (∃ t ls written, s = 0x5D :: t ∧ Tree.leaves? node written = .ok ls ∧
      readAppended ls t = .ok (tree, rest)) ∨
    ∃ entries child, Tree.entries? node = .ok entries ∧
      tree = .map (entries.set (Key.ofWritten (s.takeWhile (· != 0x5D))) child) ∧
      (EndsPair s rest ∨
        ∃ node' t, t <:+ s ∧ readNested whole depth node' t = .ok (child, rest)) := by
  cases s with
  | nil => cases h
  | cons b t =>
      rw [readNested] at h
      split at h
      · rename_i hb
        cases beq_iff_eq.mp hb
        split at h
        · cases h
        · rename_i ls hls
          exact Or.inl ⟨t, ls, _, rfl, hls, h⟩
      · right
        cases hentries : Tree.entries? node with
        | error use =>
            rw [hentries] at h
            cases h
        | ok entries =>
            rw [hentries, List.span_eq_takeWhile_dropWhile] at h
            have hsuffix := List.dropWhile_suffix (l := b :: t) (· != 0x5D)
            simp only [Except.mapError, bind, Except.bind] at h
            split at h
            · cases h
            · cases h
              exact ⟨entries, _, rfl, rfl, Or.inl (endsPair_none _)⟩
            · rename_i c d r hrest
              rw [hrest] at hsuffix
              have hr := (List.suffix_cons d r).trans ((List.suffix_cons c (d :: r)).trans hsuffix)
              split at h
              · rename_i hd
                cases h
                cases beq_iff_eq.mp hd
                exact ⟨entries, _, rfl, rfl,
                  Or.inl (endsPair_some ((List.suffix_cons c _).trans hsuffix))⟩
              · split at h
                · cases h
                  exact ⟨entries, _, rfl, rfl, Or.inl ((endsPair_readValue r).of_suffix hr)⟩
                · split at h
                  · split at h
                    · cases h
                    · rename_i child hchild
                      cases h
                      exact ⟨entries, _, rfl, rfl, Or.inr ⟨_, r, hr, hchild⟩⟩
                  · cases h

theorem endsPair_readNested {depth : Nat} (h : readNested whole depth node s = .ok (tree, rest)) :
    EndsPair s rest := by
  induction depth generalizing node s tree with
  | zero => exact endsPair_readNested_zero h
  | succ depth ih =>
      rcases readNested_succ h with ⟨t, ls, _, rfl, _, happended⟩ | ⟨entries, child, _, _, hends⟩
      · exact (readAppended_ends happended).1.of_suffix (List.suffix_cons _ _)
      · rcases hends with hends | ⟨node', t, ht, hchild⟩
        · exact hends
        · exact (ih hchild).of_suffix ht

/-- The key that a pair starts with: what stands in brackets, or what stands in front of the first
bracket or equals sign. -/
def headOf : Bytes → Bytes
  | [] => []
  | b :: t =>
    if b == 0x5B then t.takeWhile (· != 0x5D)
    else (b :: t).takeWhile fun c => c != 0x26 && c != 0x3D && c != 0x5B

variable {root root' : Option Tree}

/-- A pair that starts with a bracket appends a leaf, and then its key is a pair of brackets, or it
sets the key in the brackets. -/
theorem readPair_of_bracket (h : readPair root (0x5B :: t) = .ok (root', rest)) :
    EndsPair (0x5B :: t) rest ∧
    ((∃ ls l written, keyOf ((0x5B :: t).takeWhile (· != 0x26)) = [0x5B, 0x5D] ∧
        Tree.leaves? root written = .ok ls ∧ root' = some (.sequence (ls ++ [l]))) ∨
      ∃ entries child, Tree.entries? root = .ok entries ∧
        root' = some (.map (entries.set (Key.ofWritten (headOf (0x5B :: t))) child))) := by
  have hread : readPair root (0x5B :: t) = (readNested (0x5B :: t) depthLimit root t).map
      fun read => (some read.1, read.2) := rfl
  rw [hread] at h
  cases hnested : readNested (0x5B :: t) depthLimit root t with
  | error f =>
      rw [hnested] at h
      cases h
  | ok read =>
      obtain ⟨tree, rest'⟩ := read
      rw [hnested] at h
      cases h
      refine ⟨(endsPair_readNested hnested).of_suffix (List.suffix_cons _ _), ?_⟩
      rcases readNested_succ hnested with ⟨u, ls, written, rfl, hls, happended⟩ |
        ⟨entries, child, hentries, rfl, _⟩
      · obtain ⟨_, ⟨l, rfl⟩, hend⟩ := readAppended_ends happended
        exact Or.inl ⟨ls, l, written, congrArg (fun key => 0x5B :: 0x5D :: key) hend, hls, rfl⟩
      · exact Or.inr ⟨entries, child, hentries, rfl⟩

/-- A pair with a key sets the key. -/
theorem readPair_of_key {b : UInt8} (hand : b ≠ 0x26) (hequals : b ≠ 0x3D) (hbracket : b ≠ 0x5B)
    (h : readPair root (b :: t) = .ok (root', rest)) :
    EndsPair (b :: t) rest ∧ ∃ entries child, Tree.entries? root = .ok entries ∧
      root' = some (.map (entries.set (Key.ofWritten (headOf (b :: t))) child)) := by
  have hhead : headOf (b :: t) =
      (b :: t).takeWhile fun c => c != 0x26 && c != 0x3D && c != 0x5B := by
    rw [headOf, if_neg (by simpa using hbracket)]
  have hsuffix := List.dropWhile_suffix (l := b :: t) fun c => c != 0x26 && c != 0x3D && c != 0x5B
  rw [readPair, if_neg (by simpa using hand), if_neg (by simpa using hequals),
    if_neg (by simpa using hbracket), List.span_eq_takeWhile_dropWhile] at h
  cases hentries : Tree.entries? root with
  | error use =>
      simp only [hentries, Except.mapError, bind, Except.bind, faultAt] at h
      split at h
      · cases h
      · split at h
        · cases h
        · split at h <;> cases h
  | ok entries =>
      simp only [hentries, ← hhead, Except.mapError, bind, Except.bind] at h
      split at h
      · cases h
        exact ⟨endsPair_none _, entries, _, rfl, rfl⟩
      · rename_i c r hrest
        rw [hrest] at hsuffix
        have hr := (List.suffix_cons c r).trans hsuffix
        split at h
        · rename_i hc
          cases h
          cases beq_iff_eq.mp hc
          exact ⟨endsPair_some hsuffix, entries, _, rfl, rfl⟩
        · split at h
          · cases h
            exact ⟨(endsPair_readValue r).of_suffix hr, entries, _, rfl, rfl⟩
          · split at h
            · cases h
            · rename_i read hnested
              cases h
              exact ⟨(endsPair_readNested hnested).of_suffix hr, entries, _, rfl, rfl⟩

/-- What reading a pair does: nothing, a leaf added to the tree itself, a leaf appended behind empty
brackets, or the key that the pair starts with set to something. -/
theorem readPair_cases (h : readPair root s = .ok (root', rest)) :
    EndsPair s rest ∧
    (root' = root ∨ (∃ t l, s = 0x3D :: t ∧ root' = some (Tree.add root l)) ∨
      (∃ ls l written, keyOf (s.takeWhile (· != 0x26)) = [0x5B, 0x5D] ∧
        Tree.leaves? root written = .ok ls ∧ root' = some (.sequence (ls ++ [l]))) ∨
      ∃ entries child, Tree.entries? root = .ok entries ∧
        root' = some (.map (entries.set (Key.ofWritten (headOf s)) child))) := by
  cases s with
  | nil =>
      cases h
      exact ⟨endsPair_none _, Or.inl rfl⟩
  | cons b t =>
      by_cases hand : b = 0x26
      · subst hand
        cases h
        exact ⟨endsPair_some (List.suffix_refl _), Or.inl rfl⟩
      by_cases hequals : b = 0x3D
      · subst hequals
        cases h
        exact ⟨(endsPair_readValue t).of_suffix (List.suffix_cons _ _),
          Or.inr (Or.inl ⟨t, _, rfl, rfl⟩)⟩
      by_cases hbracket : b = 0x5B
      · subst hbracket
        obtain ⟨hends, hread⟩ := readPair_of_bracket h
        exact ⟨hends, Or.inr (Or.inr hread)⟩
      · obtain ⟨hends, hkey⟩ := readPair_of_key hand hequals hbracket h
        exact ⟨hends, Or.inr (Or.inr (Or.inr hkey))⟩

end Ends

section Origins

/-- A text starts with the same key as its first pair, if no ampersand is in the key. -/
theorem headOf_takeWhile (s : Bytes) :
    headOf (s.takeWhile (· != 0x26)) = headOf s ∨ 0x26 ∈ headOf s := by
  cases s with
  | nil => exact Or.inl rfl
  | cons b t =>
      by_cases hbracket : b = 0x5B
      · subst hbracket
        have hhead : ∀ u, headOf (0x5B :: u) = u.takeWhile (· != 0x5D) := fun _ => rfl
        rw [List.takeWhile_cons_of_pos (by decide), hhead, hhead]
        by_cases hmem : 0x26 ∈ t.takeWhile (· != 0x5D)
        · exact Or.inr hmem
        · left
          apply takeWhile_takeWhile_of_forall
          intro c hc
          simp only [bne_iff_ne]
          rintro rfl
          exact hmem hc
      · left
        have hhead : ∀ u, headOf (b :: u) =
            (b :: u).takeWhile fun c => c != 0x26 && c != 0x3D && c != 0x5B := by
          intro u
          rw [headOf, if_neg (by simpa using hbracket)]
        rw [hhead]
        by_cases hand : b = 0x26
        · subst hand
          rfl
        · rw [List.takeWhile_cons_of_pos (by simpa using hand), hhead,
            ← List.takeWhile_cons_of_pos (p := (· != 0x26)) (by simpa using hand)]
          apply takeWhile_takeWhile_of_forall
          intro c hc
          have hall := List.mem_takeWhile_imp hc
          simp only [Bool.and_eq_true] at hall
          exact hall.1.1

variable {ps done taken : List Bytes} {root root' : Option Tree}

/-- How many pairs have a key. -/
def keyCount (ps : List Bytes) (key : Bytes) : Nat := (ps.map keyOf).count key

theorem keyCount_append (ps qs : List Bytes) (key : Bytes) :
    keyCount (ps ++ qs) key = keyCount ps key + keyCount qs key := by
  rw [keyCount, List.map_append, List.count_append]
  rfl

theorem keyCount_pos {key p : Bytes} (hp : p ∈ ps) (hkey : keyOf p = key) : 1 ≤ keyCount ps key :=
  List.count_pos_iff.mpr (List.mem_map.mpr ⟨p, hp, hkey⟩)

theorem exists_of_keyCount_pos {key : Bytes} (h : 1 ≤ keyCount ps key) :
    ∃ p ∈ ps, keyOf p = key :=
  List.mem_map.mp (List.count_pos_iff.mp h)

/-- Where what was read comes from. Each leaf takes a pair of its own, without a key or with empty
brackets for one, and a sequence with one leaf takes such brackets. A key comes from the start of a
pair, or it has an ampersand. -/
def Reaches (ps : List Bytes) : Option Tree → Prop
  | none => True
  | some (.leaf _) => 1 ≤ keyCount ps []
  | some (.sequence ls) => ls.length ≤ keyCount ps [] + keyCount ps [0x5B, 0x5D] ∧
      (2 ≤ keyCount ps [] ∨ 1 ≤ keyCount ps [0x5B, 0x5D])
  | some (.map entries) => ∀ key ∈ entries.map Prod.fst,
      (∃ p ∈ ps, key = Key.ofWritten (headOf p)) ∨ ∃ s, key = .name s ∧ 0x26 ∈ s

theorem Reaches.mono (h : Reaches done root) (hsub : done.Sublist ps) : Reaches ps root := by
  have hcount : ∀ key, keyCount done key ≤ keyCount ps key := fun key =>
    (hsub.map keyOf).count_le key
  have hkeyless := hcount []
  have hbrackets := hcount [0x5B, 0x5D]
  match root, h with
  | none, _ => trivial
  | some (.leaf _), h => exact Nat.le_trans h hkeyless
  | some (.sequence ls), h =>
      rw [Reaches] at h ⊢
      omega
  | some (.map _), h =>
      intro key hkey
      rcases h key hkey with ⟨p, hp, hhead⟩ | hand
      · exact Or.inl ⟨p, hsub.subset hp, hhead⟩
      · exact Or.inr hand

theorem Tree.of_leaves?_eq_ok {ls : List Leaf} {written : Bytes}
    (h : Tree.leaves? root written = .ok ls) :
    root = none ∧ ls = [] ∨ root = some (.sequence ls) := by
  match root, h with
  | none, h => exact Or.inl ⟨rfl, (Except.ok.inj h).symm⟩
  | some (.sequence _), h => exact Or.inr (by rw [Except.ok.inj h])

theorem Tree.of_entries?_eq_ok {entries : Entries} (h : Tree.entries? root = .ok entries) :
    root = none ∧ entries = [] ∨ root = some (.map entries) := by
  match root, h with
  | none, h => exact Or.inl ⟨rfl, (Except.ok.inj h).symm⟩
  | some (.map _), h => exact Or.inr (by rw [Except.ok.inj h])

/-- A key with an ampersand is a name with an ampersand. -/
theorem exists_ofWritten_eq_name {s : Bytes} (h : 0x26 ∈ s) :
    ∃ name, Key.ofWritten s = .name name ∧ 0x26 ∈ name := by
  have hdigits : s.all Ascii.isDigit = false := List.all_eq_false.mpr ⟨0x26, h, by decide⟩
  refine ⟨Percent.decodeForm s, ?_, ?_⟩
  · rw [Key.ofWritten, hdigits]
    simp
  · exact Percent.mem_decodeOnto (by decide) rfl rfl (Or.inr h)

/-- Reading a pair keeps what is known of the pairs before it, with the text up to the first
ampersand as one more pair. -/
theorem Reaches.readPair {s : Bytes} {rest : Rest} (h : Reaches done root)
    (hread : readPair root s = .ok (root', rest)) (hfirst : s.takeWhile (· != 0x26) ∈ taken) :
    Reaches (done ++ taken) root' := by
  have hkept : Reaches (done ++ taken) root := h.mono (List.sublist_append_left done taken)
  rcases (readPair_cases hread).2 with rfl | ⟨t, l, rfl, rfl⟩ | ⟨ls, l, written, hkey, hls, rfl⟩ |
    ⟨entries, child, hentries, rfl⟩
  · exact hkept
  · have hone : 1 ≤ keyCount taken [] := keyCount_pos hfirst rfl
    match root, h, hkept with
    | none, _, _ =>
        rw [Tree.add, Reaches, keyCount_append]
        omega
    | some (.leaf _), h, _ =>
        rw [Reaches] at h
        rw [Tree.add, Reaches, keyCount_append, keyCount_append, List.length_cons,
          List.length_singleton]
        omega
    | some (.sequence ls), h, _ =>
        rw [Reaches] at h
        rw [Tree.add, Reaches, keyCount_append, keyCount_append, List.length_append,
          List.length_singleton]
        omega
    | some (.map entries), _, hkept =>
        intro key hkey
        rcases Entries.mem_keys_set hkey with rfl | hkey
        · exact Or.inl ⟨_, List.mem_append_right done hfirst, rfl⟩
        · exact hkept key hkey
  · have hone : 1 ≤ keyCount taken [0x5B, 0x5D] := keyCount_pos hfirst hkey
    rw [Reaches, keyCount_append, keyCount_append, List.length_append, List.length_singleton]
    rcases Tree.of_leaves?_eq_ok hls with ⟨_, rfl⟩ | rfl
    · rw [List.length_nil]
      omega
    · rw [Reaches] at h
      omega
  · intro key hkey
    rcases Entries.mem_keys_set hkey with rfl | hkey
    · rcases headOf_takeWhile s with hhead | hand
      · exact Or.inl ⟨_, List.mem_append_right done hfirst, by rw [hhead]⟩
      · exact Or.inr (exists_ofWritten_eq_name hand)
    · rcases Tree.of_entries?_eq_ok hentries with ⟨_, rfl⟩ | rfl
      · cases hkey
      · exact hkept key hkey

/-- Reading pairs keeps what is known of the pairs that were read. -/
theorem Reaches.readPairs {clock s : Bytes} (h : Reaches done root)
    (hread : readPairs root clock s = .ok root') : Reaches (done ++ pieces 0x26 s) root' := by
  induction clock generalizing root done s with
  | nil =>
      cases hread
      exact h.mono (List.sublist_append_left done _)
  | cons _ clock ih =>
      rw [Query.readPairs] at hread
      cases hpair : Query.readPair root s with
      | error f =>
          rw [hpair] at hread
          cases hread
      | ok read =>
          obtain ⟨next, rest⟩ := read
          rw [hpair] at hread
          have hpieces := head?_pieces 0x26 s
          cases rest with
          | none =>
              cases hread
              exact h.readPair hpair (List.mem_of_mem_head? hpieces)
          | some r =>
              obtain ⟨u, rfl⟩ := (readPair_cases hpair).1 r rfl
              rw [pieces_append] at hpieces ⊢
              rw [List.head?_append_of_ne_nil _ (pieces_ne_nil 0x26 u)] at hpieces
              rw [← List.append_assoc]
              exact ih (h.readPair hpair (List.mem_of_mem_head? hpieces)) hread

/-- What a query string is read as goes back to its pairs. -/
theorem reaches_of_parse (huncut : ∀ p ∈ ps, 0x26 ∉ p) (h : parse (joined 0x26 ps) = .ok root) :
    Reaches ps root := by
  cases ps with
  | nil =>
      cases h
      trivial
  | cons p ps =>
      have hstart : Reaches [] none := trivial
      have hreaches := hstart.readPairs h
      rwa [List.nil_append, pieces_joined (List.cons_ne_nil p ps) huncut] at hreaches

end Origins

end RestGateway.Query
