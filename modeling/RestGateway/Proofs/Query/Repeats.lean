import RestGateway.Proofs.Query.RoundTrip

/-!
# Repeated keys

Keys are compared as they are written. Two pairs that are kept and have the same key are refused,
but a name may come again in another spelling; then the last pair counts.
-/

namespace RestGateway

open Query

/-- A query with two kept pairs of the same key is refused. A message of scalars is read from every
query whose keys are all written differently, although they may mean the same names, and each field
has the text of the last pair with its name. -/
theorem decodeQuery_repeats (filter : List String) :
    (∀ {α : Type} [Message α] (query p q : Bytes), [p, q].Sublist (keptPairs filter query) →
      keyOf p = keyOf q →
        ∃ f, decodeQuery α filter query = .error f ∧ f.code = .invalidArgument) ∧
    ∀ {α : Type} [Flat α], PlainNames (Flat.type α) → ∀ (m : α) (ws : List Spelling),
      (∀ w ∈ ws, Spells w.key w.name) → (ws.map Spelling.key).Nodup →
      (∀ w ∈ ws, rootOf w.key ∉ filter.map Utf8.encode) →
      (∀ name, lastText? ws name = (setFields (Flat.toRecord m)).lookup name) →
        decodeQuery α filter (spelled ws) = .ok m := by
  constructor
  · intro α _ query p q hpairs hkeys
    cases hdecode : decodeQuery α filter query with
    | ok m =>
        obtain ⟨_, hnodup, _⟩ := decodeQuery_eq_ok_iff.mp hdecode
        have hboth : [keyOf p, keyOf q].Nodup := (hpairs.map keyOf).nodup hnodup
        rw [hkeys] at hboth
        exact absurd hboth (by simp)
    | error f => exact ⟨f, rfl, decodeQuery_error_code hdecode⟩
  · intro α _ ht m ws hws hkeys hroots hlast
    exact decodeQuery_spelled ht hws hkeys hroots hlast

/-- Two statuses, the second one in another spelling. -/
def restated : List Spelling :=
  [⟨Utf8.encode "status", "status", "a"⟩, ⟨Utf8.encode "%73tatus", "status", "b"⟩]

theorem spells_restated : ∀ w ∈ restated, Spells w.key w.name := by
  have hplain : IsPlainName "status" := by decide +kernel
  have hescaped : Spells (Utf8.encode "%73tatus") "status" :=
    ⟨by decide +kernel, by decide, by decide⟩
  intro w hw
  rcases List.mem_pair.mp hw with rfl | rfl
  · exact hplain.spells
  · exact hescaped

/-- Which audits to list if the second status counts. -/
def restatedRequest : Message.AuditListRequest := { status := some "b" }

theorem lastText?_restated (name : String) :
    lastText? restated name = (setFields (Flat.toRecord restatedRequest)).lookup name := by
  have hpairs : lastText? restated name = [("status", "b"), ("status", "a")].lookup name := rfl
  have hfields : setFields (Flat.toRecord restatedRequest) = [("status", "b")] := rfl
  rw [hpairs, hfields]
  by_cases hname : name = "status"
  · rw [hname]
    rfl
  · simp [List.lookup_cons, beq_false_of_ne hname]

theorem decodeQuery_restated :
    (∃ f, decodeQuery Message.AuditListRequest [] (Utf8.encode "status=a&status=b") = .error f ∧
      f.code = .invalidArgument) ∧
    spelled restated = Utf8.encode "status=a&%73tatus=b" ∧
    decodeQuery Message.AuditListRequest [] (spelled restated) = .ok restatedRequest := by
  obtain ⟨hrefused, hread⟩ := decodeQuery_repeats []
  refine ⟨hrefused _ (Utf8.encode "status=a") (Utf8.encode "status=b") (by decide) (by decide),
    by decide, ?_⟩
  exact hread plainNames_auditListRequest _ restated spells_restated (by decide)
    (fun _ _ => List.not_mem_nil) lastText?_restated

/-- Not every key that comes again is refused. -/
theorem not_refused_of_respelled :
    ¬ ∀ (filter : List String) (query p q : Bytes), [p, q].Sublist (keptPairs filter query) →
      Percent.decode (keyOf p) = Percent.decode (keyOf q) →
        ∃ f, decodeQuery Message.AuditListRequest filter query = .error f ∧
          f.code = .invalidArgument := by
  intro h
  obtain ⟨f, hf, _⟩ := h [] (spelled restated) (Utf8.encode "status=a") (Utf8.encode "%73tatus=b")
    (by decide) (by decide)
  have hread : decodeQuery Message.AuditListRequest [] (spelled restated) =
      .ok restatedRequest :=
    decodeQuery_spelled plainNames_auditListRequest spells_restated (by decide)
      (fun _ _ => List.not_mem_nil) lastText?_restated
  cases hf.symm.trans hread

end RestGateway
