import RestGateway.Message.Types
import RestGateway.Proofs.Query.Kept
import RestGateway.Proofs.Query.Scan
import RestGateway.Proofs.Text.Pieces

/-!
# Which pair is refused

The pairs of a query are checked from left to right, and the first one with a fault is reported: a
percent sign that starts no escape, in filtered pairs as well, or else the key of an earlier pair,
in pairs that are not filtered. If no pair has a fault, fields are read from all unfiltered pairs.
-/

namespace RestGateway

namespace Query

variable {filter seen seen' ps qs kept : List Bytes} {p : Bytes} {f : PairFault}

/-- Why a pair is refused behind pairs with the keys `seen`. -/
inductive Refuses (filter seen : List Bytes) (p : Bytes) : PairFault → Prop
  /-- A percent sign starts no escape; the first one is shown. -/
  | escape {i : Nat} (h : Percent.FirstBad p i) :
      Refuses filter seen p (.badEscape (shownEscape (p.drop i)))
  /-- The key comes again. -/
  | repeated (hescaped : Percent.IsEscaped p) (hroot : rootOf (keyOf p) ∉ filter)
      (hkey : keyOf p ∈ seen) : Refuses filter seen p (.repeated (keyOf p))

/-- No pair is refused: all percent signs start escapes, and no key of an unfiltered pair comes
again. -/
structure Passes (filter ps : List Bytes) : Prop where
  escaped : ∀ p ∈ ps, Percent.IsEscaped p
  distinct : ((unfiltered filter ps).map keyOf).Nodup

/-- The pairs in front of a pair pass, and this one is refused. -/
def FirstFault (filter ps : List Bytes) (f : PairFault) : Prop :=
  ∃ before p after, ps = before ++ p :: after ∧ Passes filter before ∧
    Refuses filter ((unfiltered filter before).map keyOf) p f

theorem keep_eq_ok_iff_passes :
    keep filter [] ps = .ok kept ↔ Passes filter ps ∧ kept = unfiltered filter ps := by
  rw [keep_eq_ok_iff]
  constructor
  · rintro ⟨hescaped, hdistinct, _, hkept⟩
    exact ⟨⟨fun p hp => Percent.badEscape?_eq_none_iff.mp (hescaped p hp), hdistinct⟩, hkept⟩
  · rintro ⟨⟨hescaped, hdistinct⟩, hkept⟩
    exact ⟨fun p hp => Percent.badEscape?_eq_none_iff.mpr (hescaped p hp), hdistinct,
      fun _ _ => List.not_mem_nil, hkept⟩

theorem Refuses.congr (h : Refuses filter seen p f) (hseen : ∀ key ∈ seen, key ∈ seen') :
    Refuses filter seen' p f := by
  cases h with
  | escape hbad => exact .escape hbad
  | repeated hescaped hroot hkey => exact .repeated hescaped hroot (hseen _ hkey)

theorem keep_cons_of_refuses (h : Refuses filter seen p f) (ps : List Bytes) :
    keep filter seen (p :: ps) = .error f := by
  cases h with
  | @escape i hbad =>
      have htail := Percent.badEscape?_eq_some_iff.mpr ⟨i, hbad, rfl⟩
      simp [keep, htail]
  | repeated hescaped hroot hkey =>
      have hnone := Percent.badEscape?_eq_none_iff.mpr hescaped
      simp [keep, hnone, hroot, hkey]

/-- What becomes of a pair: it is refused, dropped or kept. -/
theorem keep_cons_cases (filter seen : List Bytes) (p : Bytes) :
    (∃ f, Refuses filter seen p f) ∨
    (∀ ps, keep filter seen (p :: ps) = keep filter seen ps) ∨
    ∀ ps, keep filter seen (p :: ps) = (keep filter (keyOf p :: seen) ps).map (p :: ·) := by
  cases hbad : Percent.badEscape? p with
  | some tail =>
      obtain ⟨i, hi, _⟩ := Percent.badEscape?_eq_some_iff.mp hbad
      exact Or.inl ⟨_, .escape hi⟩
  | none =>
      have hescaped := Percent.badEscape?_eq_none_iff.mp hbad
      by_cases hroot : rootOf (keyOf p) ∈ filter
      · exact Or.inr (Or.inl fun ps => by simp [keep, hbad, hroot])
      · by_cases hkey : keyOf p ∈ seen
        · exact Or.inl ⟨_, .repeated hescaped hroot hkey⟩
        · exact Or.inr (Or.inr fun ps => by simp [keep, hbad, hroot, hkey])

/-- Pairs are checked behind others as if the keys kept there had been seen before. -/
theorem keep_append_of_ok (h : keep filter seen ps = .ok kept) (qs : List Bytes) :
    keep filter seen (ps ++ qs) =
      (keep filter ((kept.map keyOf).reverse ++ seen) qs).map (kept ++ ·) := by
  induction ps generalizing seen kept with
  | nil =>
      cases h
      change keep filter seen qs = (keep filter seen qs).map ([] ++ ·)
      cases keep filter seen qs with
      | error f => rfl
      | ok rest => rfl
  | cons p ps ih =>
      rcases keep_cons_cases filter seen p with ⟨f, hf⟩ | hdrop | hkeep
      · rw [keep_cons_of_refuses hf] at h
        cases h
      · rw [hdrop] at h
        rw [List.cons_append, hdrop, ih h]
      · rw [hkeep] at h
        cases hrest : keep filter (keyOf p :: seen) ps with
        | error f =>
            rw [hrest] at h
            cases h
        | ok rest =>
            rw [hrest] at h
            cases h
            rw [List.cons_append, hkeep, ih hrest, List.map_cons, List.reverse_cons,
              List.append_assoc, List.singleton_append]
            cases keep filter ((rest.map keyOf).reverse ++ keyOf p :: seen) qs with
            | error f => rfl
            | ok more => rfl

/-- If the checks fail, they fail at a pair behind others that pass. -/
theorem exists_refuses_of_keep_eq_error (h : keep filter seen ps = .error f) :
    ∃ before p after kept, ps = before ++ p :: after ∧ keep filter seen before = .ok kept ∧
      Refuses filter (kept.map keyOf ++ seen) p f := by
  induction ps generalizing seen with
  | nil => cases h
  | cons p ps ih =>
      rcases keep_cons_cases filter seen p with ⟨f', hf⟩ | hdrop | hkeep
      · rw [keep_cons_of_refuses hf] at h
        cases h
        exact ⟨[], p, ps, [], rfl, rfl, hf⟩
      · rw [hdrop] at h
        obtain ⟨before, q, after, kept, rfl, hbefore, hq⟩ := ih h
        exact ⟨p :: before, q, after, kept, rfl, (hdrop before).trans hbefore, hq⟩
      · rw [hkeep] at h
        have hrest : keep filter (keyOf p :: seen) ps = .error f := by
          cases hcase : keep filter (keyOf p :: seen) ps with
          | error f' =>
              rw [hcase] at h
              cases h
              rfl
          | ok rest =>
              rw [hcase] at h
              cases h
        obtain ⟨before, q, after, kept, rfl, hbefore, hq⟩ := ih hrest
        refine ⟨p :: before, q, after, p :: kept, rfl, ?_, hq.congr ?_⟩
        · rw [hkeep, hbefore]
          rfl
        · intro key hkey
          rw [List.map_cons, List.cons_append, List.mem_cons, List.mem_append]
          rcases List.mem_append.mp hkey with hkey | hkey
          · exact Or.inr (Or.inl hkey)
          · exact (List.mem_cons.mp hkey).imp_right Or.inr

/-- The checks fail exactly at the first fault. -/
theorem keep_eq_error_iff : keep filter [] ps = .error f ↔ FirstFault filter ps f := by
  constructor
  · intro h
    obtain ⟨before, p, after, kept, hps, hbefore, hp⟩ := exists_refuses_of_keep_eq_error h
    obtain ⟨hpasses, rfl⟩ := keep_eq_ok_iff_passes.mp hbefore
    rw [List.append_nil] at hp
    exact ⟨before, p, after, hps, hpasses, hp⟩
  · rintro ⟨before, p, after, rfl, hpasses, hp⟩
    have hbefore := keep_eq_ok_iff_passes.mpr ⟨hpasses, rfl⟩
    rw [keep_append_of_ok hbefore, List.append_nil, keep_cons_of_refuses (hp.congr ?_)]
    · rfl
    · exact fun key hkey => List.mem_reverse.mpr hkey

/-- Either all pairs pass or there is a first fault. -/
theorem passes_or_exists_firstFault (filter ps : List Bytes) :
    Passes filter ps ∨ ∃ f, FirstFault filter ps f := by
  cases hkeep : keep filter [] ps with
  | error f => exact Or.inr ⟨f, keep_eq_error_iff.mp hkeep⟩
  | ok kept => exact Or.inl (keep_eq_ok_iff_passes.mp hkeep).1

section Texts

variable {b : UInt8}

/-- A text is cut at an ASCII byte between two characters. -/
theorem exists_chars_of_mem_pieces (hb : b < 0x80) (cs : List Char) :
    ∀ p ∈ pieces b (cs.flatMap Utf8.encodeChar),
      ∃ ds : List Char, p = ds.flatMap Utf8.encodeChar := by
  induction cs with
  | nil =>
      intro p hp
      exact ⟨[], List.mem_singleton.mp hp⟩
  | cons c cs ih =>
      intro p hp
      rw [List.flatMap_cons] at hp
      by_cases hmem : b ∈ Utf8.encodeChar c
      · have hbyte := Utf8.encodeChar_of_lt (Utf8.lt_of_mem_encodeChar hmem hb)
        rw [hbyte] at hmem hp
        rw [← List.mem_singleton.mp hmem, List.singleton_append, pieces_cons,
          if_pos (beq_self_eq_true b)] at hp
        rcases List.mem_cons.mp hp with rfl | hp
        · exact ⟨[], rfl⟩
        · exact ih p hp
      · rw [pieces_append_of_not_mem hmem] at hp
        cases hcut : pieces b (cs.flatMap Utf8.encodeChar) with
        | nil => exact absurd hcut (pieces_ne_nil b _)
        | cons first rest =>
            rw [hcut] at ih hp
            rcases List.mem_cons.mp hp with rfl | hp
            · obtain ⟨ds, hds⟩ := ih first List.mem_cons_self
              exact ⟨c :: ds, by rw [hds, List.flatMap_cons]⟩
            · exact ih p (List.mem_cons_of_mem first hp)

/-- The pairs of a text are texts. -/
theorem exists_text_of_mem_pairs {query : String} (hp : p ∈ pairs (Utf8.encode query)) :
    ∃ t, Utf8.encode t = p := by
  have hmem : p ∈ pieces 0x26 (query.toList.flatMap Utf8.encodeChar) := by
    rw [← Utf8.encode_eq_flatMap]
    exact List.mem_of_mem_filter hp
  obtain ⟨ds, rfl⟩ := exists_chars_of_mem_pieces (by decide) query.toList p hmem
  exact ⟨String.ofList ds, by rw [Utf8.encode_eq_flatMap, String.toList_ofList]⟩

/-- The loop over a pair of a text comes to its end, or shows the first bad escape. -/
theorem scan_of_mem_pairs {query : String} (hp : p ∈ pairs (Utf8.encode query)) :
    (Percent.IsEscaped p ∧ scan p = .passed p.length) ∨
      ∃ i, Percent.FirstBad p i ∧ scan p = .refused (shownEscape (p.drop i)) := by
  obtain ⟨t, ht⟩ := exists_text_of_mem_pairs hp
  have hscan := scanFrom_eq ht (Nat.zero_le p.length)
  rw [List.drop_zero] at hscan
  cases hbad : Percent.badEscape? p with
  | none =>
      rw [hbad] at hscan
      exact Or.inl ⟨Percent.badEscape?_eq_none_iff.mp hbad, hscan⟩
  | some tail =>
      obtain ⟨i, hi, rfl⟩ := Percent.badEscape?_eq_some_iff.mp hbad
      rw [hbad] at hscan
      exact Or.inr ⟨i, hi, hscan⟩

end Texts

end Query

/-- A query is checked before it is decoded. The checks pass exactly if in no pair a percent sign
starts no escape and no two unfiltered pairs have the same key, and then fields are read from the
unfiltered pairs, in order. Otherwise there is exactly one first fault, and it is the answer. The
search for bad escapes never leaves a pair: it stops at its end or at the first bad sign. -/
theorem decodeQuery_checks {α : Type} [Message α] (filter : List String) (query : String) :
    let names := filter.map Utf8.encode
    let ps := Query.pairs (Utf8.encode query)
    let text := joined 0x26 (Query.unfiltered names ps)
    (∀ kept, Query.keep names [] ps = .ok kept ↔
      Query.Passes names ps ∧ kept = Query.unfiltered names ps) ∧
    (∀ f, Query.keep names [] ps = .error f ↔ Query.FirstFault names ps f) ∧
    (Query.Passes names ps ∨ ∃ f, Query.FirstFault names ps f) ∧
    (Query.Passes names ps → decodeQuery α filter (Utf8.encode query) =
      (Query.decode α text).mapError fun f => .invalidArgument (f.message text)) ∧
    (∀ f, Query.FirstFault names ps f →
      decodeQuery α filter (Utf8.encode query) = .error (.invalidArgument f.message)) ∧
    ∀ p ∈ ps, (Percent.IsEscaped p ∧ Query.scan p = .passed p.length) ∨
      ∃ i, Percent.FirstBad p i ∧ Query.scan p = .refused (Query.shownEscape (p.drop i)) := by
  intro names ps text
  refine ⟨fun kept => Query.keep_eq_ok_iff_passes, fun f => Query.keep_eq_error_iff,
    Query.passes_or_exists_firstFault names ps, ?_, ?_, fun p hp => Query.scan_of_mem_pairs hp⟩
  · intro hpasses
    have hkeep : Query.keep names [] ps = .ok _ := Query.keep_eq_ok_iff_passes.mpr ⟨hpasses, rfl⟩
    rw [decodeQuery, hkeep]
  · intro f hf
    have hkeep : Query.keep names [] ps = .error f := Query.keep_eq_error_iff.mpr hf
    rw [decodeQuery, hkeep]

/-- A filtered key may come again. A bad escape is found in front of a key that comes again, and it
is shown with the character that it ends inside. -/
theorem decodeQuery_checks_text :
    decodeQuery Message.Text ["name"] (Utf8.encode "name=%41&name.a=2&text=1&name=") = .ok ⟨"1"⟩ ∧
    decodeQuery Message.Text ["name"] (Utf8.encode "name=%41&text=1&name=%é&text=2") =
      .error (.invalidArgument "invalid URL escape \"%é\"") := by
  constructor
  · have hchecks := @decodeQuery_checks Message.Text _ ["name"] "name=%41&name.a=2&text=1&name="
    obtain ⟨hok, _, _, hdecoded, _⟩ := hchecks
    obtain ⟨hpasses, _⟩ := (hok [Utf8.encode "text=1"]).mp (by decide +kernel)
    rw [hdecoded hpasses]
    decide +kernel
  · have hchecks := @decodeQuery_checks Message.Text _ ["name"] "name=%41&text=1&name=%é&text=2"
    obtain ⟨_, herror, _, _, hrefused, _⟩ := hchecks
    rw [hrefused (.badEscape "%é") ((herror _).mp (by decide +kernel))]
    decide +kernel

end RestGateway
