import RestGateway.Proofs.Metadata.Annotate

/-!
# What a name of metadata collects

Up to three headers give a name of metadata its values: the one that marks it, the credentials if
the name is theirs, and a standard header if the name is the one that it is passed on under. Each of
them gives all of its values in order, and no other header changes anything.
-/

namespace RestGateway.Metadata

variable {h : Header} {name : String} {r : Request}

/-- The headers that give a name of metadata its values. -/
def sources (name : String) : List String :=
  marking name :: ((if name = authorization then [authorization] else [])
    ++ permanentNames.filter fun standard => gatewayStart ++ standard = name)

theorem mem_sources_iff {header : String} :
    header ∈ sources name ↔ header = marking name ∨
      (header = authorization ∧ authorization = name) ∨
        (header ∈ permanentNames ∧ gatewayStart ++ header = name) := by
  by_cases hname : name = authorization
  · simp [sources, hname]
  · simp [sources, hname, Ne.symm hname]

theorem gatewayStart_append_ne_authorization {standard : String} (h : standard ∈ permanentNames) :
    gatewayStart ++ standard ≠ authorization := by
  have hne : ∀ s ∈ permanentNames, gatewayStart ++ s ≠ authorization := by decide
  exact hne standard h

theorem marking_ne_authorization (name : String) : marking name ≠ authorization :=
  (Header.ne_append (by decide) name).symm

theorem nodup_sources (name : String) : (sources name).Nodup := by
  have hpermanent : permanentNames.Nodup := by decide
  have hmarking := not_mem_permanentNames_of_marking name
  by_cases hname : name = authorization
  · have hnone : (permanentNames.filter fun s => gatewayStart ++ s = authorization) = [] :=
      List.filter_eq_nil_iff.mpr fun s hs => by simpa using gatewayStart_append_ne_authorization hs
    simp [sources, hname, hnone, marking_ne_authorization]
  · simp [sources, hname, hmarking, hpermanent.filter]

/-- A header gives a name its value if it is one of its sources, and nothing otherwise. -/
theorem values_ofHeader_eq (hh : Header.name? h.name = some h.name)
    (hname : Header.name? name = some name) :
    (ofHeader h).values name = if h.name ∈ sources name then [h.value] else [] := by
  rw [values_ofHeader hh hname]
  by_cases hm : h.name = marking name
  · have hcredentials : h.name ≠ authorization := hm ▸ marking_ne_authorization name
    have hstandard : h.name ∉ permanentNames := hm ▸ not_mem_permanentNames_of_marking name
    rw [if_neg fun hc => hcredentials hc.1, if_pos hm, if_neg fun hs => hstandard hs.1,
      if_pos (mem_sources_iff.mpr (Or.inl hm))]
    rfl
  · by_cases hc : h.name = authorization ∧ authorization = name
    · have hstandard : ¬ (h.name ∈ permanentNames ∧ gatewayStart ++ h.name = name) :=
        fun hs => gatewayStart_append_ne_authorization hs.1 (hs.2.trans hc.2.symm)
      rw [if_pos hc, if_neg hm, if_neg hstandard,
        if_pos (mem_sources_iff.mpr (Or.inr (Or.inl hc)))]
      rfl
    · have hmem : h.name ∈ sources name ↔
          h.name ∈ permanentNames ∧ gatewayStart ++ h.name = name := by
        rw [mem_sources_iff, or_iff_right hm, or_iff_right hc]
      rw [if_neg hc, if_neg hm, List.nil_append, List.nil_append]
      exact if_congr hmem.symm rfl rfl

/-- The metadata under a name is what its sources give it, in the order of the request. -/
theorem values_annotate_eq (hr : r.headers.IsNamed) (hname : Header.name? name = some name)
    (hhost : name ≠ forwardedHost) (hfor : name ≠ forwardedFor) :
    (annotate r).values name =
      r.headers.grouped.flatMap fun h => if h.name ∈ sources name then [h.value] else [] := by
  rw [values_annotate r hhost hfor]
  refine List.flatMap_congr fun h hh => ?_
  exact values_ofHeader_eq (hr h (Headers.mem_of_mem_grouped hh)) hname

/-- Headers that are no sources of a name may come and go. -/
theorem values_annotate_of_filter (hr : r.headers.IsNamed) (hname : Header.name? name = some name)
    (hhost : name ≠ forwardedHost) (hfor : name ≠ forwardedFor) :
    (annotate r).values name =
      (Headers.grouped (r.headers.filter fun h => h.name ∈ sources name)).map Header.value := by
  rw [values_annotate_eq hr hname hhost hfor,
    Headers.grouped_filter r.headers fun header => header ∈ sources name,
    ← List.flatMap_singleton' (List.map _ _), List.flatMap_map, Headers.flatMap_filter]
  simp only [decide_eq_true_eq]

theorem mem_of_mem_setIfSome {metadata : Headers} {other : String} {value : Option Bytes}
    (hh : h ∈ setIfSome metadata other value) (hne : h.name ≠ other) : h ∈ metadata := by
  cases value with
  | none => exact hh
  | some value =>
      rcases List.mem_append.mp hh with hh | hh
      · exact (List.mem_filter.mp hh).1
      · cases List.mem_singleton.mp hh
        exact absurd rfl hne

/-- What a header gives under a marked name it gives because it marks this name. -/
theorem marking_of_mem_ofHeader {h' : Header} (hh' : Header.name? h'.name = some h'.name)
    (hh : h ∈ ofHeader h') {rest : String} (hm : h.name = marking rest) :
    h'.name = marking h.name ∧ h'.value = h.value := by
  rcases List.mem_append.mp hh with hh | hh
  · split at hh
    · rename_i hc
      cases List.mem_singleton.mp hh
      exact absurd (hm.symm.trans hc) (marking_ne_authorization rest)
    · cases hh
  · split at hh
    · rename_i behind hs
      obtain ⟨n, hn, rfl⟩ := List.mem_map.mp hh
      have hstart : h'.name = headerStart ++ behind := Header.stripStart?_eq_some_iff.mp hs
      have hname : Header.name? (headerStart ++ behind) = some (headerStart ++ behind) := by
        rw [← hstart, hh']
      obtain rfl : n = behind := Header.name?_append hname (Option.mem_toList.mp hn)
      exact ⟨hstart, rfl⟩
    · split at hh
      · rename_i hp
        have hstandard := List.contains_iff_mem.mp hp
        obtain ⟨n, hn, rfl⟩ := List.mem_map.mp hh
        have hname : some n = some (gatewayStart ++ h'.name) :=
          (Option.mem_toList.mp hn).symm.trans (name?_gatewayStart hstandard)
        have hnone : ∀ s ∈ permanentNames, ¬ headerStart.toList <+: (gatewayStart ++ s).toList := by
          decide
        exact absurd ((Option.some.inj hname).symm.trans hm)
          (Header.ne_append (hnone h'.name hstandard) rest)
      · cases hh

/-- A field under a marked name comes from a header that marks it a second time. -/
theorem exists_header_of_marking (hr : r.headers.IsNamed) (hh : h ∈ annotate r) {rest : String}
    (hm : h.name = marking rest) :
    ∃ h' ∈ r.headers, h'.name = marking h.name ∧ h'.value = h.value := by
  have hhost : h.name ≠ forwardedHost := fun heq =>
    Header.ne_append (by decide) rest (heq.symm.trans hm)
  have hfor : h.name ≠ forwardedFor := fun heq =>
    Header.ne_append (by decide) rest (heq.symm.trans hm)
  obtain ⟨h', hh', hgives⟩ :=
    List.mem_flatMap.mp (mem_of_mem_setIfSome (mem_of_mem_setIfSome hh hfor) hhost)
  have hmem := Headers.mem_of_mem_grouped hh'
  exact ⟨h', hmem, marking_of_mem_ofHeader (hr h' hmem) hgives hm⟩

/-- The values of a name of metadata are those of its sources, source by source and each of them in
order, and depend on no other header. Only the two names that the gateway sets are left out. A field
under a marked name comes from a header that marks it a second time. -/
theorem annotate_collects {r : Request} (hr : r.headers.IsNamed) :
    (∀ name, Header.name? name = some name → name ≠ forwardedHost → name ≠ forwardedFor →
      (∃ order : List String, order.Perm (sources name) ∧
        (annotate r).values name = order.flatMap r.headers.values) ∧
      ∀ r' : Request, r'.headers.IsNamed →
        (r'.headers.filter fun h => h.name ∈ sources name) =
          r.headers.filter (fun h => h.name ∈ sources name) →
        (annotate r').values name = (annotate r).values name) ∧
    ∀ h ∈ annotate r, ∀ rest, h.name = marking rest →
      ∃ h' ∈ r.headers, h'.name = marking h.name ∧ h'.value = h.value := by
  constructor
  · intro name hname hhost hfor
    constructor
    · rw [values_annotate_eq hr hname hhost hfor]
      exact Headers.exists_order_of_grouped r.headers (nodup_sources name)
    · intro r' hr' hfilter
      rw [values_annotate_of_filter hr' hname hhost hfor, hfilter,
        values_annotate_of_filter hr hname hhost hfor]
  · intro h hh rest hm
    exact exists_header_of_marking hr hh hm

/-- A request that marks its credentials twice and sends them, and marks a marked name. -/
def credited : Request where
  uri := ⟨none, Utf8.encode "/ping", none⟩
  headers := [⟨marking authorization, Utf8.encode "first"⟩, ⟨authorization, Utf8.encode "sent"⟩,
    ⟨"x-custom", Utf8.encode "dropped"⟩, ⟨marking authorization, Utf8.encode "second"⟩,
    ⟨marking (marking "tenant"), Utf8.encode "acme"⟩]

theorem annotate_credited :
    (∃ order : List String, order.Perm (sources authorization) ∧
      (annotate credited).values authorization = order.flatMap credited.headers.values) ∧
    (annotate { credited with headers := credited.headers.erase "x-custom" }).values
      authorization = (annotate credited).values authorization ∧
    ∃ h' ∈ credited.headers, h'.name = marking (marking "tenant") ∧
      h'.value = Utf8.encode "acme" := by
  obtain ⟨hnames, hmarked⟩ := annotate_collects (r := credited) (by decide)
  obtain ⟨horder, hother⟩ := hnames authorization (by decide) (by decide) (by decide)
  refine ⟨horder, hother { credited with headers := credited.headers.erase "x-custom" }
    (by decide) (by decide), ?_⟩
  exact hmarked ⟨marking "tenant", Utf8.encode "acme"⟩ (by decide) "tenant" rfl

/-- What is sent stands among what is marked, and nothing is left out. -/
example : (annotate credited).values authorization =
    [Utf8.encode "first", Utf8.encode "second", Utf8.encode "sent"] := by decide

end RestGateway.Metadata
