import Mathlib.Data.List.Nodup
import RestGateway.Request.Query

/-!
# The pairs that are kept

The checks in front of the reader keep the pairs whose key is rooted at no filtered name, in order.
They pass exactly if every percent sign starts an escape, in filtered pairs as well, and no two kept
pairs have the same key.
-/

namespace RestGateway

namespace Query

variable {filter seen ps kept : List Bytes} {p : Bytes}

/-- The pairs whose key is rooted at no name in `filter`. -/
def unfiltered (filter ps : List Bytes) : List Bytes :=
  ps.filter fun pair => !filter.contains (rootOf (keyOf pair))

theorem mem_unfiltered_iff : p ∈ unfiltered filter ps ↔ p ∈ ps ∧ rootOf (keyOf p) ∉ filter := by
  simp [unfiltered]

theorem unfiltered_cons_of_mem (h : rootOf (keyOf p) ∈ filter) :
    unfiltered filter (p :: ps) = unfiltered filter ps :=
  List.filter_cons_of_neg (by simpa using h)

theorem unfiltered_cons_of_not_mem (h : rootOf (keyOf p) ∉ filter) :
    unfiltered filter (p :: ps) = p :: unfiltered filter ps :=
  List.filter_cons_of_pos (by simpa using h)

/-- A pair that is kept stands in front of what is kept behind it. -/
theorem keep_cons_of_not_mem (hescape : Percent.badEscape? p = none)
    (hroot : rootOf (keyOf p) ∉ filter) (hkey : keyOf p ∉ seen) :
    keep filter seen (p :: ps) = .ok kept ↔
      ∃ rest, keep filter (keyOf p :: seen) ps = .ok rest ∧ kept = p :: rest := by
  have hstep : keep filter seen (p :: ps) =
      (keep filter (keyOf p :: seen) ps).map (p :: ·) := by
    simp [keep, hescape, hroot, hkey]
  rw [hstep]
  cases keep filter (keyOf p :: seen) ps with
  | error f => simp [Except.map]
  | ok rest => simp [Except.map, eq_comm]

/-- When the checks pass, and what they keep. -/
theorem keep_eq_ok_iff :
    keep filter seen ps = .ok kept ↔
      (∀ p ∈ ps, Percent.badEscape? p = none) ∧ ((unfiltered filter ps).map keyOf).Nodup ∧
        (∀ p ∈ unfiltered filter ps, keyOf p ∉ seen) ∧ kept = unfiltered filter ps := by
  induction ps generalizing seen kept with
  | nil => simp [keep, unfiltered, eq_comm]
  | cons p ps ih =>
      rw [List.forall_mem_cons]
      cases hescape : Percent.badEscape? p with
      | some tail => simp [keep, hescape]
      | none =>
          by_cases hroot : rootOf (keyOf p) ∈ filter
          · simp [keep, hescape, hroot, ih, unfiltered_cons_of_mem hroot]
          · by_cases hkey : keyOf p ∈ seen
            · simp [keep, hescape, hroot, hkey, unfiltered_cons_of_not_mem hroot]
            · rw [keep_cons_of_not_mem hescape hroot hkey, unfiltered_cons_of_not_mem hroot,
                List.map_cons, List.nodup_cons, List.forall_mem_cons]
              constructor
              · rintro ⟨rest, hrest, rfl⟩
                obtain ⟨hescapes, hnodup, hseen, rfl⟩ := ih.mp hrest
                refine ⟨⟨rfl, hescapes⟩, ⟨?_, hnodup⟩, ⟨hkey, ?_⟩, rfl⟩
                · intro hmem
                  obtain ⟨q, hq, hsame⟩ := List.mem_map.mp hmem
                  exact hseen q hq (List.mem_cons.mpr (Or.inl hsame))
                · exact fun q hq hmem => hseen q hq (List.mem_cons_of_mem _ hmem)
              · rintro ⟨⟨_, hescapes⟩, ⟨hnew, hnodup⟩, ⟨_, hseen⟩, rfl⟩
                refine ⟨_, ih.mpr ⟨hescapes, hnodup, ?_, rfl⟩, rfl⟩
                intro q hq hmem
                rcases List.mem_cons.mp hmem with hsame | hmem
                · exact hnew (hsame ▸ List.mem_map_of_mem hq)
                · exact hseen q hq hmem

/-- A message is read where its record is. -/
theorem decode_eq_ok_iff {α : Type} [Message α] {s : Bytes} {m : α} :
    decode α s = .ok m ↔ decodeRecord (Message.schema α) s = .ok (Message.toRecord m) := by
  rw [decode]
  cases decodeRecord (Message.schema α) s with
  | error f => simp [Except.map]
  | ok r =>
      simp only [Except.map, Except.ok.injEq]
      constructor
      · rintro rfl
        rw [Message.toRecord_ofRecord]
      · rintro rfl
        rw [Message.ofRecord_toRecord]

/-- The pairs of a query that are kept. -/
def keptPairs (filter : List String) (query : Bytes) : List Bytes :=
  unfiltered (filter.map Utf8.encode) (pairs query)

end Query

/-- A query is read as a message exactly if the checks pass and the pairs that they keep are read as
the message. -/
theorem decodeQuery_eq_ok_iff {α : Type} [Message α] {filter : List String} {query : Bytes}
    {m : α} :
    decodeQuery α filter query = .ok m ↔
      (∀ p ∈ Query.pairs query, Percent.badEscape? p = none) ∧
        ((Query.keptPairs filter query).map Query.keyOf).Nodup ∧
        Query.decode α (joined 0x26 (Query.keptPairs filter query)) = .ok m := by
  have hread : decodeQuery α filter query = .ok m ↔
      ∃ kept, Query.keep (filter.map Utf8.encode) [] (Query.pairs query) = .ok kept ∧
        Query.decode α (joined 0x26 kept) = .ok m := by
    rw [decodeQuery]
    cases Query.keep (filter.map Utf8.encode) [] (Query.pairs query) with
    | error f => simp
    | ok kept =>
        cases hdecode : Query.decode α (joined 0x26 kept) with
        | error f => simp [hdecode, Except.mapError]
        | ok m' => simp [hdecode, Except.mapError]
  rw [hread]
  constructor
  · rintro ⟨kept, hkeep, hdecode⟩
    obtain ⟨hescapes, hnodup, _, rfl⟩ := Query.keep_eq_ok_iff.mp hkeep
    exact ⟨hescapes, hnodup, hdecode⟩
  · rintro ⟨hescapes, hnodup, hdecode⟩
    have hkeep := Query.keep_eq_ok_iff.mpr ⟨hescapes, hnodup, fun _ _ => List.not_mem_nil, rfl⟩
    exact ⟨_, hkeep, hdecode⟩

/-- A query that is not read is an argument of the client. -/
theorem decodeQuery_error_code {α : Type} [Message α] {filter : List String} {query : Bytes}
    {f : Failure} (h : decodeQuery α filter query = .error f) : f.code = .invalidArgument := by
  unfold decodeQuery at h
  split at h
  · cases h
    rfl
  · rename_i kept _
    cases hdecode : Query.decode α (joined 0x26 kept) with
    | error e =>
        simp only [hdecode] at h
        cases h
        rfl
    | ok m =>
        simp only [hdecode] at h
        cases h

end RestGateway
