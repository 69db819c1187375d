import RestGateway.Grpc.Server
import RestGateway.Number.Integer
import RestGateway.Race
import RestGateway.Text.Base64

/-!
# Clients

A client calls the methods of a service through a channel to a server. Metadata crosses the channel
except for the names that describe the call or the connection. The channel itself limits the call by
the `grpc-timeout` in the metadata.
-/

namespace RestGateway.Grpc

/-- A way to a server. -/
inductive Channel
  | toService (service : Service)
  /-- Nobody can be reached, for a reason. -/
  | unreachable (reason : String)

/-- Names that describe a connection. -/
def connectionNames : List String :=
  ["connection", "keep-alive", "proxy-connection", "transfer-encoding", "upgrade"]

/-- The names that a connection header lists. -/
def listedNames (headers : Headers) : List String :=
  match (headers.get? "connection").bind Utf8.decode? with
  | none => []
  | some text =>
    (pieces ',' text.toList).map fun piece =>
      String.ofList ((piece.dropWhile Char.isWhitespace).reverse.dropWhile
        Char.isWhitespace).reverse |>.map Char.toLower

/-- Headers as they arrive at the other end of a connection. -/
def acrossConnection (headers : Headers) : Headers :=
  headers.filter fun h =>
    !(connectionNames.contains h.name || (listedNames headers).contains h.name)

/-- The answer as it arrives at the other end of a connection. -/
def Answer.acrossConnection (a : Answer) : Answer :=
  { a with headers := Grpc.acrossConnection a.headers }

namespace Client

/-- The failure that headers tell. -/
def statusOf (code : Code) (headers : Headers) : Status where
  code := code
  message := ((headers.get? messageName).bind fun m => Utf8.decode? (Percent.decode m)).getD ""
  metadata := ((headers.erase statusName).erase messageName).erase detailsName

/-- The details of an answer that tells a code can be read. -/
def hasReadableDetails (a : Answer) : Bool :=
  match encodingStatus? a.headers, a.headers.get? statusName, a.headers.get? detailsName with
  | none, some _, some details => Base64.isEncoded details
  | _, _, _ => true

/-- The result of a call from its answer. -/
def readAnswer (rpc : Rpc) (a : Answer) : Except Status (Reply rpc) :=
  match encodingStatus? a.headers with
  | some status => .error status
  | none =>
    match (a.headers.get? statusName).map codeOf with
    | some code => if code = .ok then readReply else .error (statusOf code a.headers)
    | none => readReply
where
  readReply : Except Status (Reply rpc) :=
    match readMessages rpc.Reply ⟨[a.body], none⟩ with
    | .error fault => .error { fault.status with metadata := a.headers }
    | .ok [] => .error ⟨.internal, "Missing response message.", []⟩
    | .ok (m :: _) => .ok ⟨m, ⟨a.headers.extend a.trailers, []⟩⟩

/-- The time limit that metadata sets; one that cannot be read sets none. Digits may have a plus
sign in front. -/
def limit? (metadata : Headers) : Option Duration := do
  let text ← Utf8.decode? (← metadata.get? Deadline.name)
  let unit ← Deadline.Unit.ofLetter? (← text.toList.getLast?)
  let digits := text.toList.dropLast
  if Deadline.digitLimit < digits.length then none
  match Integer.read Integer.uint64 (String.ofList digits) with
  | .ok amount => some ⟨amount.toNat * unit.nanos⟩
  | .error _ => none

/-- No call crosses a channel in less time, nor does an answer. -/
def crossing : Duration := ⟨1⟩

/-- The failure of a call that its channel gave up. -/
def expired : Status := ⟨.canceled, "Timeout expired", []⟩

/-- The later of two moments. -/
def later (d e : Duration) : Duration := ⟨Nat.max d.nanos e.nanos⟩

/-- The attempt under a time limit. A call that runs into it at once is not sent. -/
def limited {rpc : Rpc} (limit : Option Duration) (a : Attempt (Except Status (Reply rpc))) :
    Attempt (Except Status (Reply rpc)) :=
  match limit with
  | none => a
  | some d =>
    if d.nanos < a.arrival.nanos then
      { arrival := a.arrival, ready := some a.arrival, result := .error expired }
    else if (Race.mk a.ready (some d) none).ending = .answered then a
    else { a with ready := some d, result := .error expired, broken := false }

/-- Calls a method through a channel. -/
def call (channel : Channel) (rpc : Rpc) (message : rpc.Request) (metadata : Headers) :
    Attempt (Except Status (Reply rpc)) :=
  match channel with
  | .unreachable reason =>
    { arrival := crossing, ready := some crossing, result := .error ⟨.unavailable, reason, []⟩ }
  | .toService service =>
    let sent := Server.handle service (Utf8.encode rpc.path)
      (acrossConnection (sanitized metadata)) ⟨[frame (Wire.encode message)], none⟩
    let answer := sent.result.acrossConnection
    limited (limit? metadata) {
      arrival := crossing
      calls := sent.calls
      ready := sent.ready.map (later crossing)
      result := readAnswer rpc answer
      broken := !hasReadableDetails answer }

end Client

end RestGateway.Grpc
