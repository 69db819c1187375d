import RestGateway.Proofs.Grpc.Crossing
import RestGateway.Proofs.Grpc.Framing
import RestGateway.Proofs.Text.Pieces
import RestGateway.Request.Basic

/-!
# The method that a path calls

A server hands a request to the method whose path the request has, byte by byte, and to no other.
It does so once, and only if the whole body is frames. All other paths are answered with the code of
a method that is not implemented.
-/

namespace RestGateway

namespace Rpc

theorem ofPath?_eq_some_iff {s : String} {rpc : Rpc} : ofPath? s = some rpc ↔ s = rpc.path := by
  constructor
  · intro h
    have hfound := List.find?_some h
    exact (of_decide_eq_true hfound).symm
  · rintro rfl
    exact ofPath?_path rpc

theorem path_ne_empty (rpc : Rpc) : rpc.path ≠ "" := by cases rpc <;> decide

/-- A method is found by the bytes of its path. Bytes that are no text are no path. -/
theorem ofPath?_decode_eq_some_iff {path : Bytes} {rpc : Rpc} :
    ofPath? ((Utf8.decode? path).getD "") = some rpc ↔ path = Utf8.encode rpc.path := by
  rw [ofPath?_eq_some_iff]
  constructor
  · intro h
    cases hd : Utf8.decode path with
    | error f =>
        rw [Utf8.decode?, hd] at h
        exact absurd h.symm rpc.path_ne_empty
    | ok name =>
        rw [Utf8.decode?, hd] at h
        obtain rfl : name = rpc.path := h
        exact (Utf8.encode_of_decode hd).symm
  · rintro rfl
    rw [Utf8.decode?_encode, Option.getD_some]

end Rpc

namespace Uri

variable {path query : Bytes} (hpath : ∀ b ∈ path, (b != 0x3F && b != 0x23) = true)
include hpath

/-- A path is read up to the question mark in front of the query. -/
theorem path_of_readTarget {front : Bytes} {behind : Option Bytes}
    (h : readTarget (path ++ 0x3F :: query) = some (front, behind)) : front = path := by
  have hspan : (path ++ 0x3F :: query).span (fun b => b != 0x3F && b != 0x23) =
      (path, 0x3F :: query) := span_append hpath (by simp)
  simp only [readTarget, hspan] at h
  split at h
  · cases h
  · split at h
    · cases h
      rfl
    · cases h

theorem path_of_parse? (hslash : path.head? = some 0x2F) {uri : Uri}
    (h : parse? (path ++ 0x3F :: query) = some uri) : uri.path = path := by
  obtain ⟨rest, rfl⟩ := List.head?_eq_some_iff.mp hslash
  unfold parse? at h
  split at h
  · cases h
  · split at h
    · rename_i hstar
      cases hstar
    · rw [if_pos (by rfl)] at h
      obtain ⟨⟨front, behind⟩, hread, rfl⟩ := Option.map_eq_some_iff.mp h
      exact path_of_readTarget hpath hread

end Uri

namespace Grpc.Server

/-- A request asks for a call: it has the path of the method and the metadata of the call, and its
body is frames, the first of which has the message. -/
structure Asks (r : Request) (call : Call) : Prop where
  path : r.uri.path = Utf8.encode call.rpc.path
  metadata : call.metadata = r.headers
  plain : ∀ encoding, r.headers.get? encodingName = some encoding →
    encoding = Utf8.encode "identity"
  whole : r.body.fault = none
  framed : ∃ ms, Frames call.rpc.Request r.body.chunks.flatten (call.message :: ms)

variable {service : Service} {r : Request} {rpc : Rpc}

theorem asks_iff {call : Call} :
    Asks r call ↔ r.uri.path = Utf8.encode call.rpc.path ∧ call.metadata = r.headers ∧
      readRequest call.rpc r.headers r.body = .ok call.message := by
  rw [readRequest_eq_ok_iff, encodingStatus?_eq_none_iff]
  constructor
  · rintro ⟨path, metadata, plain, whole, framed⟩
    exact ⟨path, metadata, plain, whole, framed⟩
  · rintro ⟨path, metadata, plain, whole, framed⟩
    exact ⟨path, metadata, plain, whole, framed⟩

/-- The call of a request that has the path of a method. -/
theorem handle_calls_of_path (h : r.uri.path = Utf8.encode rpc.path) :
    (handle service r.uri.path r.headers r.body).calls =
      match readRequest rpc r.headers r.body with
      | .error _ => []
      | .ok message => [⟨rpc, message, r.headers⟩] := by
  have hfound := Rpc.ofPath?_decode_eq_some_iff.mpr h
  simp only [handle, hfound]
  cases readRequest rpc r.headers r.body <;> rfl

/-- A request that no method has the path of is answered at once. -/
theorem handle_of_path_ne (service : Service)
    (h : ∀ rpc : Rpc, r.uri.path ≠ Utf8.encode rpc.path) :
    ∃ message, handle service r.uri.path r.headers r.body =
      .immediate (.ofStatus ⟨.unimplemented, message, []⟩) := by
  have hnone : Rpc.ofPath? ((Utf8.decode? r.uri.path).getD "") = none :=
    Option.eq_none_iff_forall_ne_some.mpr fun rpc hrpc =>
      h rpc (Rpc.ofPath?_decode_eq_some_iff.mp hrpc)
  simp only [handle, hnone]
  exact ⟨_, rfl⟩

theorem length_handle_calls_le (service : Service) (r : Request) :
    (handle service r.uri.path r.headers r.body).calls.length ≤ 1 := by
  by_cases h : ∃ rpc : Rpc, r.uri.path = Utf8.encode rpc.path
  · obtain ⟨rpc, hpath⟩ := h
    rw [handle_calls_of_path hpath]
    split <;> simp
  · obtain ⟨_, hhandle⟩ := handle_of_path_ne service (not_exists.mp h)
    rw [hhandle]
    exact Nat.zero_le 1

theorem mem_handle_calls_iff {call : Call} :
    call ∈ (handle service r.uri.path r.headers r.body).calls ↔ Asks r call := by
  rw [asks_iff]
  constructor
  · intro hmem
    by_cases h : ∃ rpc : Rpc, r.uri.path = Utf8.encode rpc.path
    · obtain ⟨rpc, hpath⟩ := h
      rw [handle_calls_of_path hpath] at hmem
      cases hread : readRequest rpc r.headers r.body with
      | error status =>
          rw [hread] at hmem
          exact absurd hmem List.not_mem_nil
      | ok message =>
          rw [hread] at hmem
          obtain rfl := List.mem_singleton.mp hmem
          exact ⟨hpath, rfl, hread⟩
    · obtain ⟨_, hhandle⟩ := handle_of_path_ne service (not_exists.mp h)
      rw [hhandle] at hmem
      exact absurd hmem List.not_mem_nil
  · obtain ⟨rpc, message, metadata⟩ := call
    rintro ⟨hpath, rfl, hread⟩
    rw [handle_calls_of_path hpath]
    simp only [hread, List.mem_singleton]

/-- A failure without metadata is told by one code. -/
theorem values_statusName_ofStatus (code : Code) (message : String) :
    (Answer.ofStatus ⟨code, message, []⟩).headers.values statusName = [codeText code] := by
  unfold Answer.ofStatus
  split <;> rfl

/-- A request is handed to a method exactly if it asks for a call of it, and then once. Its path is
the path of the method to the letter, and a query behind the path does not count. A request with any
other path is answered at once and without a call, whatever its body is. -/
theorem handle_obeys_path (service : Service) (r : Request) :
    let attempt := handle service r.uri.path r.headers r.body
    attempt.calls.length ≤ 1 ∧
    (∀ call, call ∈ attempt.calls ↔ Asks r call) ∧
    (∀ (rpc : Rpc) query, Uri.parse? (Utf8.encode rpc.path ++ 0x3F :: query) = some r.uri →
      r.uri.path = Utf8.encode rpc.path) ∧
    ((∀ rpc : Rpc, r.uri.path ≠ Utf8.encode rpc.path) →
      attempt.calls = [] ∧ attempt.ready = some ⟨0⟩ ∧
      attempt.result.headers.values statusName = [Utf8.encode "12"] ∧
      attempt.result.body = [] ∧ attempt.result.trailers = []) := by
  intro attempt
  refine ⟨length_handle_calls_le service r, fun call => mem_handle_calls_iff, ?_, ?_⟩
  · intro rpc query hparse
    have hbytes : ∀ b ∈ Utf8.encode rpc.path, (b != 0x3F && b != 0x23) = true := by
      cases rpc <;> decide +kernel
    have hslash : (Utf8.encode rpc.path).head? = some 0x2F := by
      cases rpc <;> decide +kernel
    exact Uri.path_of_parse? hbytes hslash hparse
  · intro h
    obtain ⟨message, hhandle⟩ := handle_of_path_ne service h
    have hattempt : attempt = .immediate (.ofStatus ⟨.unimplemented, message, []⟩) := hhandle
    rw [hattempt]
    exact ⟨rfl, rfl, values_statusName_ofStatus .unimplemented message, rfl, rfl⟩

/-- A query does not keep a request from its method, a slash behind the path does. All frames of the
body are read, and only the first one counts; a body that breaks off behind them leads to no
call. -/
theorem handle_reading_obeys :
    let content (id : String) := frame (Wire.encode (α := Message.AuditReadRequest) { id })
    let r : Request :=
      { uri := ⟨none, Utf8.encode "/sso.Sso/AuditRead", some (Utf8.encode "id=9")⟩
        body := ⟨[content "7", content "8"], none⟩ }
    let broken : Request := { r with body := { r.body with fault := some "reset" } }
    let behind : Request := { r with uri := ⟨none, Utf8.encode "/sso.Sso/AuditRead/", none⟩ }
    Uri.parse? (Utf8.encode "/sso.Sso/AuditRead?id=9") = some r.uri ∧
    (handle .empty r.uri.path r.headers r.body).calls = [⟨.auditRead, { id := "7" }, []⟩] ∧
    (handle .empty broken.uri.path broken.headers broken.body).calls = [] ∧
    (handle .empty behind.uri.path behind.headers behind.body).result.headers.values
      statusName = [Utf8.encode "12"] := by
  intro content r broken behind
  have huri : Uri.parse? (Utf8.encode "/sso.Sso/AuditRead?id=9") = some r.uri := rfl
  refine ⟨huri, ?_, ?_, ?_⟩
  · obtain ⟨hone, hcalls, hquery, _⟩ := handle_obeys_path .empty r
    have hdecode (m : Message.AuditReadRequest) (h : (Wire.encode m).length < 2 ^ 64) :
        Wire.decode Message.AuditReadRequest (Wire.encode m) = .ok m :=
      Wire.decode_encode (Rpc.request_numbered .auditRead) m h
    have hframes : Frames Message.AuditReadRequest r.body.chunks.flatten
        [{ id := "7" }, { id := "8" }] :=
      .cons (by decide +kernel) (hdecode _ (by decide +kernel))
        (.cons (by decide +kernel) (hdecode _ (by decide +kernel)) .nil)
    have hmem := (hcalls ⟨.auditRead, { id := "7" }, []⟩).mpr
      ⟨hquery .auditRead (Utf8.encode "id=9") huri, rfl, nofun, rfl, _, hframes⟩
    obtain ⟨call, hcall⟩ := List.length_eq_one_iff.mp (hone.antisymm (List.length_pos_of_mem hmem))
    rw [hcall] at hmem
    rw [hcall, List.mem_singleton.mp hmem]
  · obtain ⟨_, hcalls, _⟩ := handle_obeys_path .empty broken
    exact List.eq_nil_iff_forall_not_mem.mpr fun call hcall =>
      nomatch ((hcalls call).mp hcall).whole
  · obtain ⟨_, _, _, hunknown⟩ := handle_obeys_path .empty behind
    have hne : ∀ rpc : Rpc, behind.uri.path ≠ Utf8.encode rpc.path := by
      intro rpc
      cases rpc <;> decide
    exact (hunknown hne).2.2.1

end Grpc.Server

end RestGateway
