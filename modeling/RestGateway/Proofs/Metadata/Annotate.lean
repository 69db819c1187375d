import RestGateway.Deadline
import RestGateway.Metadata.Annotate
import RestGateway.Proofs.Header.Values

/-!
# Where metadata comes from

A name of metadata has the values of the header that marks it. Credentials and standard headers add
to names of their own, and the two names of where a request came from and went to are set by the
gateway. What limits a call is none of these, so the metadata of a request has the limits that the
client marked.
-/

namespace RestGateway.Metadata

variable {h : Header} {name : String}

/-- The header that marks a name as metadata. -/
def marking (name : String) : String := headerStart ++ name

theorem values_under (header name : String) (value : Bytes) :
    Headers.values (under header value) name =
      if Header.name? header = some name then [value] else [] := by
  unfold under
  cases hn : Header.name? header with
  | none => rfl
  | some n => simp [Headers.values_singleton]

theorem not_mem_permanentNames_of_marking (rest : String) : marking rest ∉ permanentNames := by
  have hnone : ∀ s ∈ permanentNames, ¬ headerStart.toList <+: s.toList := by decide
  exact fun hm => Header.ne_append (hnone _ hm) rest rfl

/-- Standard headers are passed on under names. -/
theorem name?_gatewayStart {standard : String} (h : standard ∈ permanentNames) :
    Header.name? (gatewayStart ++ standard) = some (gatewayStart ++ standard) := by
  have hall : ∀ s ∈ permanentNames,
      Header.name? (gatewayStart ++ s) = some (gatewayStart ++ s) := by decide +kernel
  exact hall standard h

/-- What a header gives under a name: credentials under their own name, what marks the name, and a
standard header under the name with the start of its own. -/
theorem values_ofHeader (hh : Header.name? h.name = some h.name)
    (hname : Header.name? name = some name) :
    (ofHeader h).values name =
      (if h.name = authorization ∧ authorization = name then [h.value] else []) ++
        ((if h.name = marking name then [h.value] else []) ++
          if h.name ∈ permanentNames ∧ gatewayStart ++ h.name = name then [h.value] else []) := by
  have hcredentials : Headers.values (if h.name = authorization then [h] else []) name =
      if h.name = authorization ∧ authorization = name then [h.value] else [] := by
    by_cases ha : h.name = authorization
    · rw [if_pos ha, Headers.values_singleton]
      simp [ha]
    · simp [ha, Headers.values]
  rw [ofHeader, Headers.values_append, hcredentials]
  congr 1
  cases hs : Header.stripStart? headerStart h.name with
  | some rest =>
      have hmarking : h.name = marking rest := Header.stripStart?_eq_some_iff.mp hs
      have hpermanent : h.name ∉ permanentNames :=
        hmarking ▸ not_mem_permanentNames_of_marking rest
      have hrest : Header.name? rest = some name ↔ h.name = marking name := by
        constructor
        · intro hr
          rw [hmarking] at hh
          rw [hmarking, Header.name?_append hh hr]
        · intro hm
          have heq : rest = name := by
            have happend : headerStart ++ rest = headerStart ++ name := hmarking.symm.trans hm
            exact (String.append_right_inj _).mp happend
          rw [heq, hname]
      simp only [values_under, hrest, hpermanent, false_and, if_false, List.append_nil]
  | none =>
      have hmarking : h.name ≠ marking name := by
        intro hm
        rw [Header.stripStart?_eq_some_iff.mpr hm] at hs
        cases hs
      by_cases hp : h.name ∈ permanentNames
      · simp [hmarking, hp, values_under, name?_gatewayStart hp]
      · simp [hmarking, hp, Headers.values]

theorem values_setIfSome_of_ne {other : String} (h : name ≠ other) (metadata : Headers)
    (value : Option Bytes) :
    (setIfSome metadata other value).values name = metadata.values name := by
  cases value with
  | none => rfl
  | some value => exact Headers.values_set_of_ne h value

/-- The gateway sets two names and leaves the others as the headers give them. -/
theorem values_annotate (r : Request) (hhost : name ≠ forwardedHost) (hfor : name ≠ forwardedFor) :
    (annotate r).values name = r.headers.grouped.flatMap fun h => (ofHeader h).values name := by
  rw [annotate, values_setIfSome_of_ne hfor, values_setIfSome_of_ne hhost, Headers.values_flatMap]

/-- The metadata of a request has the limits that its headers mark. -/
theorem values_annotate_limit {r : Request} (hr : r.headers.IsNamed) :
    (annotate r).values Deadline.name = r.headers.values (marking Deadline.name) := by
  have hauthorization : authorization ≠ Deadline.name := by decide
  have hstandard : ∀ s ∈ permanentNames, gatewayStart ++ s ≠ Deadline.name := by decide
  calc
    (annotate r).values Deadline.name
        = r.headers.grouped.flatMap fun h => (ofHeader h).values Deadline.name :=
          values_annotate r (by decide) (by decide)
    _ = r.headers.grouped.flatMap fun h =>
          if h.name = marking Deadline.name then [h.value] else [] := by
        apply List.flatMap_congr
        intro h hh
        have hnamed := hr h (Headers.mem_of_mem_grouped hh)
        have hpermanent : ¬ (h.name ∈ permanentNames ∧ gatewayStart ++ h.name = Deadline.name) :=
          fun hp => hstandard h.name hp.1 hp.2
        rw [values_ofHeader hnamed (by decide), if_neg (fun ha => hauthorization ha.2),
          if_neg hpermanent, List.nil_append, List.append_nil]
    _ = r.headers.values (marking Deadline.name) := by
        rw [← Headers.values_eq_flatMap, Headers.values_grouped]

end RestGateway.Metadata
