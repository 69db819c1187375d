import RestGateway.Proofs.Dispatch.Expiry
import RestGateway.Proofs.Gateway.Front

/-!
# Requests that reach the target

A request reaches the target with one call if a route takes it, its order is read and its limit can
be written. One that does not get so far is answered alike whatever the target is. A closed
connection fails the call at once. An open one forwards it to its server, unless the limit of the
call is zero, which has passed before anything is sent.
-/

namespace RestGateway

open Race

theorem Duration.one_le_nanos {d : Duration} (h : some d ≠ some ⟨0⟩) : 1 ≤ d.nanos := by
  obtain ⟨_ | n⟩ := d
  · exact absurd rfl h
  · exact Nat.succ_pos n

namespace Grpc.Client

/-- A limit that is not zero does not keep a call from being sent. -/
theorem limited_calls {rpc : Rpc} {limit : Option Duration} (h : limit ≠ some ⟨0⟩)
    {a : Attempt (Except Status (Reply rpc))} (ha : a.arrival = crossing) :
    (limited limit a).calls = a.calls ∧ (limited limit a).arrival = crossing := by
  cases limit with
  | none => exact ⟨rfl, ha⟩
  | some d =>
      have hlate : ¬ d.nanos < a.arrival.nanos := by
        rw [ha, Nat.not_lt]
        exact Duration.one_le_nanos h
      simp only [limited, if_neg hlate]
      split
      · exact ⟨rfl, ha⟩
      · exact ⟨rfl, ha⟩

/-- What is sent does not depend on how the service is going to answer. -/
theorem sent_calls_eq (service service' : Service) (rpc : Rpc) (message : rpc.Request)
    (metadata : Headers) :
    (sent service rpc message metadata).calls = (sent service' rpc message metadata).calls := by
  simp only [sent, Server.handle, Utf8.decode?_encode, Option.getD_some, Rpc.ofPath?_path]
  split
  · rfl
  · rfl

/-- A call that the server can read is one call of its service. -/
theorem sent_calls_of_readable (service : Service) {rpc : Rpc} {message : rpc.Request}
    {metadata : Headers}
    (hm : (acrossConnection (sanitized metadata)).get? encodingName = none)
    (h : (Wire.encode message).length ≤ sizeLimit) :
    (sent service rpc message metadata).calls =
      [⟨rpc, message, acrossConnection (sanitized metadata)⟩] := by
  rw [sent, Server.handle_frame hm h]
  rfl

end Grpc.Client

/-- A moment that is not zero leaves the time to cross a channel. -/
theorem Race.notAfter_crossing {m : Option Duration} (h : m ≠ some ⟨0⟩) :
    notAfter Grpc.Client.crossing m = true := by
  cases m with
  | none => rfl
  | some d => exact decide_eq_true (Duration.one_le_nanos h)

namespace CompiledRoute

variable {rpc : Rpc} {route : CompiledRoute rpc} {limits : Limits} {captures : Option Captures}
  {r : Request}

/-- The call that a request reaches the target with, if it gets so far. -/
def call? (route : CompiledRoute rpc) (limits : Limits) (captures : Option Captures)
    (r : Request) : Option Call :=
  if r.method = route.method then
    match route.order limits captures r with
    | .error _ => none
    | .ok o => (metadata? r o.deadline).map fun metadata => ⟨rpc, o.message, metadata⟩
  else none

theorem call?_of_order_ok (hm : r.method = route.method) {o : Order rpc}
    (ho : route.order limits captures r = .ok o) :
    route.call? limits captures r =
      (metadata? r o.deadline).map fun metadata => ⟨rpc, o.message, metadata⟩ := by
  rw [call?, if_pos hm, ho]

/-- A request that does not reach the target is served alike whatever the target is. -/
theorem serve_of_call?_eq_none (h : route.call? limits captures r = none)
    (target target' : Target) (cancel cancel' : Option Duration) :
    route.serve limits target captures r cancel =
      route.serve limits target' captures r cancel' := by
  by_cases hm : r.method = route.method
  · cases ho : route.order limits captures r with
    | error f => rw [serve_of_order_error hm ho, serve_of_order_error hm ho]
    | ok o =>
        rw [call?_of_order_ok hm ho, Option.map_eq_none_iff] at h
        rw [serve_of_order_ok hm ho, serve_of_order_ok hm ho]
        simp only [perform, h]
  · rw [serve_of_method_ne hm, serve_of_method_ne hm]

/-- A request that reaches the target was read, and its limit can be written. -/
theorem exists_order_of_call? {call : Call} (h : route.call? limits captures r = some call) :
    ∃ (o : Order rpc) (metadata : Headers), metadata? r o.deadline = some metadata ∧
      call = ⟨rpc, o.message, metadata⟩ ∧ ∀ target cancel,
        route.serve limits target captures r cancel = route.perform target r o cancel := by
  by_cases hm : r.method = route.method
  · cases ho : route.order limits captures r with
    | error f =>
        rw [call?, if_pos hm, ho] at h
        cases h
    | ok o =>
        rw [call?_of_order_ok hm ho] at h
        obtain ⟨metadata, hmetadata, rfl⟩ := Option.map_eq_some_iff.mp h
        exact ⟨o, metadata, hmetadata, rfl, serve_of_order_ok hm ho⟩
  · rw [call?, if_neg hm] at h
    cases h

variable {call : Call} (h : route.call? limits captures r = some call) {c : Connection}
include h

/-- A closed connection fails every call without a look at anything else. -/
theorem serve_of_isClosed (hc : c.isClosed = true) (cancel : Option Duration) :
    (route.serve limits (.remote c) captures r cancel).calls = [] ∧
      (route.serve limits (.remote c) captures r cancel).outcome =
        .response (Failure.ofStatus c.closedStatus).response := by
  obtain ⟨o, metadata, hm, _, hserve⟩ := exists_order_of_call? h
  have hinvoke : (Target.remote c).invoke rpc o.message metadata cancel =
      .immediate (.error c.closedStatus) := by
    rw [Target.invoke, Connection.invoke, if_pos hc]
  rw [hserve]
  constructor
  · simp only [perform, hm, hinvoke, Attempt.immediate, ite_self]
  · rw [perform_of_answered hm, hinvoke]
    · rfl
    · rw [hinvoke]
      exact answersFirst_of_time_eq_zero rfl
    · rw [hinvoke]
      rfl

/-- An open connection sends the call, if neither its limit nor its cancellation has come before it
reaches the channel. -/
theorem serve_calls_of_isOpen {service : Service} (hc : c.channel = .toService service)
    (ho : c.isClosed = false) (hlimit : Grpc.Client.limit? call.metadata ≠ some ⟨0⟩)
    {cancel : Option Duration} (hcancel : cancel ≠ some ⟨0⟩) :
    (route.serve limits (.remote c) captures r cancel).calls =
      (Grpc.Client.sent service call.rpc call.message call.metadata).calls := by
  obtain ⟨o, metadata, hm, rfl, hserve⟩ := exists_order_of_call? h
  have hdeadline : o.deadline ≠ some ⟨0⟩ := by
    intro hd
    rw [hd] at hm
    obtain ⟨text, u, hu, _, rfl⟩ := exists_written_of_metadata? hm
    have hfloor : Duration.floor ⟨0⟩ u = ⟨0⟩ := by
      rw [Duration.floor, Nat.zero_div, Nat.zero_mul]
    exact hlimit ((Grpc.Client.limit?_set hu).trans (congrArg some hfloor))
  have hinvoke : (Target.remote c).invoke rpc o.message metadata cancel =
      Grpc.Client.limited (Grpc.Client.limit? metadata)
        (Grpc.Client.sent service rpc o.message metadata) := by
    rw [Target.invoke, Connection.invoke, if_neg (by simp [ho]), hc, Grpc.Client.call_eq_limited]
  obtain ⟨hcalls, harrival⟩ := Grpc.Client.limited_calls hlimit
    (a := Grpc.Client.sent service rpc o.message metadata) rfl
  have hintime : ∀ answer, inTime ⟨answer, o.deadline, cancel⟩ Grpc.Client.crossing = true := by
    intro answer
    simp [inTime, notAfter_crossing hdeadline, notAfter_crossing hcancel]
  rw [hserve]
  simp only [perform, hm, hinvoke, harrival, hintime, hcalls, if_true]

end CompiledRoute

namespace Front

variable {front : Front} {limits : Limits} {r : Request}

/-- The call that a request reaches the target with, if it gets so far. -/
def call? (front : Front) (limits : Limits) (r : Request) : Option Call :=
  (front.takes? r.method r.uri.path).bind fun taken =>
    taken.1.route.call? limits taken.2 r

/-- A request that does not reach the target is answered alike whatever the target is. -/
theorem serve_of_call?_eq_none (h : front.call? limits r = none) (target target' : Target)
    (cancel cancel' : Option Duration) :
    front.serve limits target r cancel = front.serve limits target' r cancel' := by
  cases htakes : front.takes? r.method r.uri.path with
  | none =>
      obtain ⟨refusal, hrefusal⟩ := exists_refusal htakes
      rw [hrefusal r limits target cancel rfl rfl, hrefusal r limits target' cancel' rfl rfl]
  | some taken =>
      rw [call?, htakes, Option.bind_some] at h
      rw [serve_of_takes? htakes, serve_of_takes? htakes,
        CompiledRoute.serve_of_call?_eq_none h target target' cancel cancel']

variable {call : Call} (h : front.call? limits r = some call) {c : Connection}
include h

theorem exists_taken_of_call? : ∃ taken, front.takes? r.method r.uri.path = some taken ∧
    taken.1.route.call? limits taken.2 r = some call :=
  Option.bind_eq_some_iff.mp h

/-- Behind a closed connection a request that reaches the target is unavailable, without a call. -/
theorem serve_of_isClosed (hc : c.isClosed = true) (cancel : Option Duration) :
    (front.serve limits (.remote c) r cancel).calls = [] ∧
      ∃ p, (front.serve limits (.remote c) r cancel).outcome = .response p ∧ p.status = 503 ∧
        p.body = (Failure.ofStatus c.closedStatus).body := by
  obtain ⟨taken, htakes, hcall⟩ := exists_taken_of_call? h
  obtain ⟨hcalls, houtcome⟩ := CompiledRoute.serve_of_isClosed hcall hc cancel
  rw [serve_of_takes? htakes]
  constructor
  · rw [finish_calls, hcalls]
  · obtain ⟨p, hp, hstatus, hbody⟩ := front.exists_finish_response houtcome
    exact ⟨p, hp, hstatus, hbody⟩

/-- Behind an open connection a request that reaches the target is forwarded, if its limit is not
zero and it is not cancelled from the start. -/
theorem serve_calls_of_isOpen {service : Service} (hc : c.channel = .toService service)
    (ho : c.isClosed = false) (hlimit : Grpc.Client.limit? call.metadata ≠ some ⟨0⟩)
    {cancel : Option Duration} (hcancel : cancel ≠ some ⟨0⟩) :
    (front.serve limits (.remote c) r cancel).calls =
      (Grpc.Client.sent service call.rpc call.message call.metadata).calls := by
  obtain ⟨taken, htakes, hcall⟩ := exists_taken_of_call? h
  rw [serve_of_takes? htakes, finish_calls]
  exact CompiledRoute.serve_calls_of_isOpen hcall hc ho hlimit hcancel

end Front

end RestGateway
