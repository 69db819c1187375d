import RestGateway.Proofs.Grpc.Crossing

/-!
# Clients in front of a server

A client that calls a method leads to one call of the method of the same name, and returns what the
service returns. Only names that belong to the call or to the connection below it tell the two
results apart.
-/

namespace RestGateway.Grpc

/-- Names that are free have the same values in both, in the same order. -/
def SameFree (metadata other : Headers) : Prop :=
  ∀ name ∉ takenNames, other.values name = metadata.values name

/-- What an answer has besides metadata stands under taken names. -/
theorem sameFree_answerHeaders (metadata : Headers) {tail : Headers}
    (ht : ∀ h ∈ tail, h.name ∈ takenNames) : SameFree metadata (answerHeaders metadata tail) := by
  intro name hname
  have hfirst : Headers.values [contentType] name = [] :=
    Headers.values_eq_nil fun x hx => by
      cases List.mem_singleton.mp hx
      rintro rfl
      exact hname (by decide)
  have htail : tail.values name = [] :=
    Headers.values_eq_nil fun x hx heq => hname (heq ▸ ht x hx)
  calc
    (answerHeaders metadata tail).values name
        = Headers.values [contentType] name ++ (metadata.values name ++ tail.values name) := by
          rw [← Headers.values_append, ← Headers.values_append]
          rfl
    _ = metadata.values name := by rw [hfirst, htail, List.nil_append, List.append_nil]

/-- The second result says what the first one says: the same message, or the same failure. -/
inductive Relayed {rpc : Rpc} : Except Status (Reply rpc) → Except Status (Reply rpc) → Prop
  | failure {s s' : Status} (code : s'.code = s.code) (message : s'.message = s.message)
      (metadata : SameFree s.metadata s'.metadata) : Relayed (.error s) (.error s')
  | reply {reply reply' : Reply rpc} (message : reply'.message = reply.message)
      (metadata : SameFree reply.metadata.headers reply'.metadata.headers) :
      Relayed (.ok reply) (.ok reply')

namespace Client

theorem relayed_carried {rpc : Rpc} (result : Except Status (Reply rpc)) :
    Relayed result (carried result) := by
  cases result with
  | error s =>
      exact .failure rfl rfl (sameFree_answerHeaders _ fun _ h => absurd h List.not_mem_nil)
  | ok reply =>
      exact .reply rfl (sameFree_answerHeaders _ (by decide))

/-- A call through a channel is one call of its method, with the message and the metadata that it
was made with. It returns when the service has answered it, with the message of the service or with
its code, its text and its metadata. -/
theorem call_relays (service : Service) {rpc : Rpc} (message : rpc.Request) {metadata : Headers}
    (hm : IsFree metadata) (h : (Wire.encode message).length ≤ sizeLimit)
    (hr : Carriable (service.next rpc).result) :
    let attempt := call (.toService service) rpc message metadata
    attempt.calls = [⟨rpc, message, metadata⟩] ∧
      attempt.ready = ((service.next rpc).ready none).map (later crossing) ∧
      attempt.broken = false ∧ Relayed (service.next rpc).result attempt.result := by
  intro attempt
  have hattempt : attempt = _ := call_of_carriable hm h hr
  rw [hattempt]
  exact ⟨rfl, rfl, rfl, relayed_carried _⟩

/-- No audit is created, for reasons that have to be escaped. -/
def refusing : Service where
  answers
    | .auditCreate =>
      [{ result := .error ⟨.permissionDenied, "100% für nichts\n",
          [⟨"x-reason", Utf8.encode "a"⟩, ⟨"x-reason", Utf8.encode "b"⟩]⟩ }]
    | _ => []

theorem call_refusing_relays :
    let metadata : Headers := [⟨"tenant", Utf8.encode "b"⟩, ⟨"tenant", Utf8.encode "a"⟩]
    let message : Message.AuditCreateRequest := { type := "login", actor := some "ü" }
    let attempt := call (.toService refusing) .auditCreate message metadata
    attempt.calls = [⟨.auditCreate, message, metadata⟩] ∧
      @Relayed .auditCreate (.error ⟨.permissionDenied, "100% für nichts\n",
        [⟨"x-reason", Utf8.encode "a"⟩, ⟨"x-reason", Utf8.encode "b"⟩]⟩) attempt.result := by
  intro metadata message attempt
  obtain ⟨hcalls, _, _, hresult⟩ := @call_relays refusing .auditCreate message metadata
    (by decide) (by decide +kernel) ⟨by decide, by decide⟩
  exact ⟨hcalls, hresult⟩

end Client

end RestGateway.Grpc
