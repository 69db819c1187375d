import RestGateway.Proofs.Dispatch.Refusal
import RestGateway.Proofs.Grpc.Crossing

/-!
# What a service sees

A request that leads to a call was read, and the service sees a call of the method of the route with
the metadata of the request. A service of the same process sees all of it; a connection keeps the
names that describe the call or the connection itself.
-/

namespace RestGateway

namespace Grpc

variable {rpc : Rpc} {call : Call}

/-- A server hands a call that names a method to this method, with the headers of the call. -/
theorem Server.of_mem_calls {service : Service} {headers : Headers} {body : Body}
    (h : call ∈ (handle service (Utf8.encode rpc.path) headers body).calls) :
    call.rpc = rpc ∧ call.metadata = headers := by
  simp only [handle, Utf8.decode?_encode, Option.getD_some, Rpc.ofPath?_path] at h
  split at h
  · cases h
  · cases List.mem_singleton.mp h
    exact ⟨rfl, rfl⟩

/-- A time limit adds no calls. -/
theorem Client.mem_calls_of_limited {limit : Option Duration}
    {a : Attempt (Except Status (Reply rpc))} (h : call ∈ (limited limit a).calls) :
    call ∈ a.calls := by
  unfold limited at h
  split at h
  · exact h
  · split at h
    · cases h
    · split at h
      · exact h
      · exact h

/-- A call of a method that crosses a channel is seen as a call of this method. -/
theorem Client.of_mem_calls {channel : Channel} {message : rpc.Request} {metadata : Headers}
    (h : call ∈ (Client.call channel rpc message metadata).calls) :
    call.rpc = rpc ∧ call.metadata = acrossConnection (sanitized metadata) := by
  cases channel with
  | unreachable reason => cases h
  | toService service => exact Server.of_mem_calls (mem_calls_of_limited h)

end Grpc

namespace Target

/-- What the service of a target sees of the metadata of a call. -/
def received : Target → Headers → Headers
  | inProcess _, metadata => metadata
  | remote _, metadata => Grpc.acrossConnection (Grpc.sanitized metadata)

/-- A call of a method is seen as a call of this method, whatever it goes through. -/
theorem of_mem_calls {target : Target} {rpc : Rpc} {message : rpc.Request} {metadata : Headers}
    {cancel : Option Duration} {call : Call}
    (h : call ∈ (target.invoke rpc message metadata cancel).calls) :
    call.rpc = rpc ∧ call.metadata = target.received metadata := by
  cases target with
  | inProcess service =>
      cases List.mem_singleton.mp h
      exact ⟨rfl, rfl⟩
  | remote c =>
      rw [invoke, Connection.invoke] at h
      split at h
      · cases h
      · exact Grpc.Client.of_mem_calls h

end Target

namespace CompiledRoute

variable {rpc : Rpc} {route : CompiledRoute rpc} {limits : Limits} {target : Target}
  {captures : Option Captures} {r : Request} {cancel : Option Duration} {call : Call}

/-- An order leads to calls of its target only, with the metadata of the request. -/
theorem of_mem_calls_perform {o : Order rpc}
    (h : call ∈ (route.perform target r o cancel).calls) :
    call.rpc = rpc ∧ ∃ metadata, metadata? r o.deadline = some metadata ∧
      call.metadata = target.received metadata := by
  unfold perform at h
  split at h
  · cases h
  · rename_i metadata hmetadata
    dsimp only at h
    split at h
    · obtain ⟨hrpc, hcall⟩ := Target.of_mem_calls h
      exact ⟨hrpc, metadata, hmetadata, hcall⟩
    · cases h

/-- A request that leads to a call has the method of the route and was read. The method of the
service that is called is that of the route, and its metadata is that of the request. -/
theorem of_mem_calls (h : call ∈ (route.serve limits target captures r cancel).calls) :
    r.method = route.method ∧ call.rpc = rpc ∧
      ∃ o metadata, route.order limits captures r = .ok o ∧
        metadata? r o.deadline = some metadata ∧ call.metadata = target.received metadata := by
  obtain ⟨_, he⟩ | ⟨hm, ⟨_, _, he⟩ | ⟨o, ho, he⟩⟩ :=
    serve_cases route limits target captures r cancel
  · rw [he] at h
    cases h
  · rw [he] at h
    cases h
  · rw [he] at h
    obtain ⟨hrpc, metadata, hmetadata, hcall⟩ := of_mem_calls_perform h
    exact ⟨hm, hrpc, o, metadata, ho, hmetadata, hcall⟩

end CompiledRoute

end RestGateway
