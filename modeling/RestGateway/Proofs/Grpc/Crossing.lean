import RestGateway.Proofs.Grpc.Frame
import RestGateway.Proofs.Grpc.Metadata
import RestGateway.Proofs.Text.Percent

/-!
# Calls that cross a channel

A call through a channel is seen by the service behind it as it was made, and its result comes back
as it was given, if the names of its metadata are free and its messages are not too long.
-/

namespace RestGateway

namespace Rpc

theorem ofPath?_path (rpc : Rpc) : ofPath? rpc.path = some rpc := by cases rpc <;> decide

end Rpc

/-- A result that a channel can carry: it has free names, a failure has a code of its own, and a
message is not too long. -/
def Carriable {rpc : Rpc} : Except Status (Reply rpc) → Prop
  | .error status => Grpc.IsFree status.metadata ∧ status.code ≠ .ok
  | .ok reply => Grpc.IsFree reply.metadata.headers ∧
      (Wire.encode reply.message).length ≤ Grpc.sizeLimit

/-- A result that crosses a channel unharmed: it has free names and no trailers, a failure has a
code of its own, and a message is not too long. -/
def Crosses {rpc : Rpc} : Except Status (Reply rpc) → Prop
  | .error status => Grpc.IsFree status.metadata ∧ status.code ≠ .ok
  | .ok reply => Grpc.IsFree reply.metadata.headers ∧ reply.metadata.trailers = [] ∧
      (Wire.encode reply.message).length ≤ Grpc.sizeLimit

theorem Crosses.carriable {rpc : Rpc} {result : Except Status (Reply rpc)} (h : Crosses result) :
    Carriable result := by
  cases result with
  | error s => exact h
  | ok reply => exact ⟨h.1, h.2.2⟩

/-- The answer is given at once, and crosses a channel unharmed. -/
structure Answering.IsPlain {rpc : Rpc} (a : Answering rpc) : Prop where
  delay : a.delay = ⟨0⟩
  hangs : a.hangs = false
  awaitsCancel : a.awaitsCancel = false
  crosses : Crosses a.result

theorem Answering.IsPlain.ready_eq {rpc : Rpc} {a : Answering rpc} (h : a.IsPlain)
    (cancel : Option Duration) : a.ready cancel = some ⟨0⟩ := by
  simp [ready, h.hangs, h.awaitsCancel, h.delay]

namespace Grpc

theorem codeOf_codeText (c : Code) : codeOf (codeText c) = c := by cases c <;> decide

theorem encodingStatus?_eq_none {headers : Headers} (h : headers.get? encodingName = none) :
    encodingStatus? headers = none := by
  simp [encodingStatus?, h]

namespace Server

variable {rpc : Rpc} {metadata : Headers} (hm : metadata.get? encodingName = none)
  {message : rpc.Request} (h : (Wire.encode message).length ≤ sizeLimit)
include hm h

/-- The request of a call is read as it was written. -/
theorem readRequest_frame :
    readRequest rpc metadata ⟨[frame (Wire.encode message)], none⟩ = .ok message := by
  simp only [readRequest, encodingStatus?_eq_none hm,
    readMessages_frame rpc.request_numbered message h]

/-- A server hands a call that it can read to its service. -/
theorem handle_frame (service : Service) :
    handle service (Utf8.encode rpc.path) metadata ⟨[frame (Wire.encode message)], none⟩ =
      (service.invoke rpc message metadata none).map .ofResult := by
  simp only [handle, Utf8.decode?_encode, Option.getD_some, Rpc.ofPath?_path,
    readRequest_frame hm h]

end Server

/-- The headers of an answer: the type of its content, metadata, and what tells its end. -/
abbrev answerHeaders (metadata tail : Headers) : Headers := contentType :: (metadata ++ tail)

section Answers

variable {metadata : Headers} (hm : IsFree metadata) {name : String} (hn : name ∈ takenNames)
  (hc : name ≠ contentType.name)
include hm hn hc

/-- A taken name is looked up behind the metadata. -/
theorem get?_answerHeaders (tail : Headers) :
    (answerHeaders metadata tail).get? name = tail.get? name := by
  have hvalues : (answerHeaders metadata tail).values name = tail.values name := by
    have hfirst : Headers.values [contentType] name = [] := by simp [Headers.values, hc.symm]
    calc
      (answerHeaders metadata tail).values name
          = Headers.values [contentType] name ++ (metadata.values name ++ tail.values name) := by
            simp [Headers.values, ← List.filterMap_append]
      _ = tail.values name := by rw [hfirst, Headers.values_eq_nil (hm.name_ne hn)]; rfl
  rw [Headers.get?, hvalues, Headers.get?]

/-- A taken name is erased behind the metadata. -/
theorem erase_answerHeaders (tail : Headers) :
    (answerHeaders metadata tail).erase name = answerHeaders metadata (tail.erase name) := by
  have hfirst : Headers.erase [contentType] name = [contentType] := by
    simp [Headers.erase, hc.symm]
  calc
    (answerHeaders metadata tail).erase name
        = Headers.erase [contentType] name ++ (metadata.erase name ++ tail.erase name) := by
          simp [Headers.erase, ← List.filter_append]
    _ = answerHeaders metadata (tail.erase name) := by rw [hfirst, hm.erase_eq hn]; rfl

end Answers

/-- The headers of an answer cross a connection. -/
theorem acrossConnection_answerHeaders {metadata tail : Headers} (hm : IsFree metadata)
    (ht : ∀ h ∈ tail, h.name ∉ connectionNames) :
    acrossConnection (answerHeaders metadata tail) = answerHeaders metadata tail := by
  apply acrossConnection_eq
  · rw [get?_answerHeaders hm (by decide) (by decide)]
    refine Headers.get?_eq_none fun x hx heq => ht x hx ?_
    rw [heq]
    decide
  · intro x hx
    rcases List.mem_cons.mp hx with rfl | hx
    · decide
    · rcases List.mem_append.mp hx with hx | hx
      · exact fun hc => hm x hx (by simp [takenNames, hc])
      · exact ht x hx

namespace Client

variable {rpc : Rpc}

/-- A result as it comes back: with the headers of its answer as metadata. -/
def carried : Except Status (Reply rpc) → Except Status (Reply rpc)
  | .error status => .error { status with metadata := answerHeaders status.metadata [] }
  | .ok reply =>
    .ok ⟨reply.message, ⟨answerHeaders reply.metadata.headers [⟨statusName, codeText .ok⟩], []⟩⟩

/-- The headers of the answer of a call that failed, behind its metadata. -/
def statusTail (s : Status) : Headers :=
  ⟨statusName, codeText s.code⟩ ::
    if s.message.isEmpty then []
    else [⟨messageName, Percent.encode isEscaped (Utf8.encode s.message)⟩]

theorem mem_statusTail {s : Status} {h : Header} (hh : h ∈ statusTail s) :
    h.name = statusName ∨ h.name = messageName := by
  unfold statusTail at hh
  rcases List.mem_cons.mp hh with rfl | hh
  · exact Or.inl rfl
  · split at hh
    · cases hh
    · cases List.mem_singleton.mp hh
      exact Or.inr rfl

theorem get?_statusTail_eq_none (s : Status) {name : String} (hs : name ≠ statusName)
    (hm : name ≠ messageName) : (statusTail s).get? name = none := by
  refine Headers.get?_eq_none fun x hx heq => ?_
  rcases mem_statusTail hx with hn | hn
  · exact hs (heq.symm.trans hn)
  · exact hm (heq.symm.trans hn)

/-- The message of a failure comes back. -/
theorem message_statusTail (s : Status) :
    (((statusTail s).get? messageName).bind fun m => Utf8.decode? (Percent.decode m)).getD "" =
      s.message := by
  by_cases he : s.message.isEmpty = true
  · have hget : (statusTail s).get? messageName = none := by
      rw [statusTail, if_pos he]
      rfl
    rw [hget]
    exact (String.isEmpty_iff.mp he).symm
  · have hget : (statusTail s).get? messageName =
        some (Percent.encode isEscaped (Utf8.encode s.message)) := by
      rw [statusTail, if_neg he]
      rfl
    rw [hget, Option.bind_some, Percent.decode_encode (by decide), Utf8.decode?_encode,
      Option.getD_some]

/-- Nothing but metadata is left of the headers of a failure. -/
theorem erase_statusTail (s : Status) :
    (((statusTail s).erase statusName).erase messageName).erase detailsName = [] := by
  refine List.filter_eq_nil_iff.mpr fun x hx => ?_
  obtain ⟨hx, hmessage⟩ := List.mem_filter.mp hx
  obtain ⟨hx, hstatus⟩ := List.mem_filter.mp hx
  rcases mem_statusTail hx with hn | hn
  · simp [hn] at hstatus
  · simp [hn] at hmessage

/-- The answer of a call that failed, at the other end of a connection. -/
theorem ofStatus_acrossConnection {s : Status} (hm : IsFree s.metadata) :
    (Answer.ofStatus s).acrossConnection = ⟨answerHeaders s.metadata (statusTail s), [], []⟩ := by
  have hheaders : (Answer.ofStatus s).headers = answerHeaders s.metadata (statusTail s) := by
    rw [Answer.ofStatus, hm.sanitized_eq]
    rfl
  have htail : ∀ h ∈ statusTail s, h.name ∉ connectionNames := by
    intro h hh
    rcases mem_statusTail hh with hn | hn
    · rw [hn]; decide
    · rw [hn]; decide
  rw [Answer.acrossConnection, hheaders, acrossConnection_answerHeaders hm htail]
  rfl

/-- The answer of a call that returned, at the other end of a connection. -/
theorem ofReply_acrossConnection {reply : Reply rpc} (hm : IsFree reply.metadata.headers) :
    (Answer.ofReply reply).acrossConnection =
      ⟨answerHeaders reply.metadata.headers [], frame (Wire.encode reply.message),
        [⟨statusName, codeText .ok⟩]⟩ := by
  have hheaders : (Answer.ofReply reply).headers = answerHeaders reply.metadata.headers [] := by
    rw [Answer.ofReply, hm.sanitized_eq, answerHeaders, List.append_nil]
  rw [Answer.acrossConnection, hheaders,
    acrossConnection_answerHeaders hm fun _ h => absurd h List.not_mem_nil]
  rfl

/-- A failure comes back with its code and its message. -/
theorem readAnswer_ofStatus {s : Status} (hm : IsFree s.metadata) (hc : s.code ≠ .ok) :
    readAnswer rpc (Answer.ofStatus s).acrossConnection = carried (.error s) := by
  have hencoding : (answerHeaders s.metadata (statusTail s)).get? encodingName = none := by
    rw [get?_answerHeaders hm (by decide) (by decide)]
    exact get?_statusTail_eq_none s (by decide) (by decide)
  have hstatus : (answerHeaders s.metadata (statusTail s)).get? statusName =
      some (codeText s.code) := by
    rw [get?_answerHeaders hm (by decide) (by decide)]
    rfl
  have hresult : statusOf s.code (answerHeaders s.metadata (statusTail s)) =
      { s with metadata := answerHeaders s.metadata [] } := by
    rw [statusOf, get?_answerHeaders hm (by decide) (by decide), message_statusTail,
      erase_answerHeaders hm (by decide) (by decide),
      erase_answerHeaders hm (by decide) (by decide),
      erase_answerHeaders hm (by decide) (by decide), erase_statusTail]
  rw [ofStatus_acrossConnection hm, readAnswer]
  simp only [encodingStatus?_eq_none hencoding, hstatus, Option.map_some, codeOf_codeText,
    if_neg hc, hresult]
  rfl

/-- The code of a reply is put behind its metadata. -/
theorem extend_answerHeaders {metadata : Headers} (hm : IsFree metadata) (text : Bytes) :
    (answerHeaders metadata []).extend [⟨statusName, text⟩] =
      answerHeaders metadata [⟨statusName, text⟩] := by
  have hkeep : (answerHeaders metadata []).filter
      (fun h => !List.any [⟨statusName, text⟩] fun m : Header => m.name = h.name) =
        answerHeaders metadata [] := by
    refine List.filter_eq_self.mpr fun x hx => ?_
    have hne : statusName ≠ x.name := by
      rw [answerHeaders, List.append_nil] at hx
      rcases List.mem_cons.mp hx with rfl | hx
      · decide
      · exact (hm.name_ne (by decide) x hx).symm
    simp [hne]
  rw [Headers.extend, hkeep]
  simp

/-- A reply comes back with its message. -/
theorem readAnswer_ofReply {reply : Reply rpc} (hm : IsFree reply.metadata.headers)
    (h : (Wire.encode reply.message).length ≤ sizeLimit) :
    readAnswer rpc (Answer.ofReply reply).acrossConnection = carried (.ok reply) := by
  have hencoding : (answerHeaders reply.metadata.headers []).get? encodingName = none := by
    rw [get?_answerHeaders hm (by decide) (by decide)]
    rfl
  have hstatus : (answerHeaders reply.metadata.headers []).get? statusName = none := by
    rw [get?_answerHeaders hm (by decide) (by decide)]
    rfl
  rw [ofReply_acrossConnection hm, readAnswer]
  simp only [encodingStatus?_eq_none hencoding, hstatus, Option.map_none, readAnswer.readReply,
    readMessages_frame rpc.reply_numbered reply.message h, extend_answerHeaders hm]
  rfl

section Results

variable {result : Except Status (Reply rpc)} (h : Carriable result)
include h

/-- No answer that a channel can carry breaks the rules of the channel. -/
theorem hasReadableDetails_ofResult :
    hasReadableDetails (Answer.ofResult result).acrossConnection = true := by
  have hnone : (Answer.ofResult result).acrossConnection.headers.get? detailsName = none := by
    cases result with
    | error s =>
        rw [Answer.ofResult, ofStatus_acrossConnection h.1,
          get?_answerHeaders h.1 (by decide) (by decide)]
        exact get?_statusTail_eq_none s (by decide) (by decide)
    | ok reply =>
        rw [Answer.ofResult, ofReply_acrossConnection h.1,
          get?_answerHeaders h.1 (by decide) (by decide)]
        rfl
  unfold hasReadableDetails
  rw [hnone]
  split
  · rename_i heq
    cases heq
  · rfl

/-- A result comes back if a channel can carry it. -/
theorem readAnswer_ofResult :
    readAnswer rpc (Answer.ofResult result).acrossConnection = carried result := by
  cases result with
  | error s => exact readAnswer_ofStatus h.1 h.2
  | ok reply => exact readAnswer_ofReply h.1 h.2

end Results

section Calls

variable {service : Service} {message : rpc.Request} {metadata : Headers} (hm : IsFree metadata)
  (h : (Wire.encode message).length ≤ sizeLimit)
include hm h

/-- A call is seen as it was made. Its result comes back when the service gives it, as far as the
channel can carry it. -/
theorem call_of_carriable (hr : Carriable (service.next rpc).result) :
    call (.toService service) rpc message metadata =
      { arrival := crossing
        calls := [⟨rpc, message, metadata⟩]
        ready := ((service.next rpc).ready none).map (later crossing)
        result := carried (service.next rpc).result } := by
  have hlimit : limit? metadata = none := by
    rw [limit?, hm.get?_eq_none (by decide)]
    rfl
  have hencoding : metadata.get? encodingName = none := hm.get?_eq_none (by decide)
  simp only [call, hm.sanitized_eq, hm.acrossConnection_eq,
    Server.handle_frame hencoding h service, Service.invoke, Attempt.map, hlimit, limited,
    readAnswer_ofResult hr, hasReadableDetails_ofResult hr]
  rfl

/-- A call that crosses a channel is seen as it was made, and its result comes back. -/
theorem call_toService (ha : (service.next rpc).IsPlain) :
    call (.toService service) rpc message metadata =
      { arrival := crossing
        calls := [⟨rpc, message, metadata⟩]
        ready := some crossing
        result := carried (service.next rpc).result } := by
  rw [call_of_carriable hm h ha.crosses.carriable, ha.ready_eq none]
  rfl

end Calls

end Client

end Grpc

end RestGateway
