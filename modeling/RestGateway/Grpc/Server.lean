import RestGateway.Grpc.Answer
import RestGateway.Uri

/-!
# Servers

A server hands the calls that it receives to a service. The path alone decides which method is
called; all other paths are answered without a call. The first message of the body is the request,
but the frames behind it have to be well formed too.
-/

namespace RestGateway.Grpc.Server

/-- The request message of a call. -/
def readRequest (rpc : Rpc) (headers : Headers) (body : Body) : Except Status rpc.Request :=
  match encodingStatus? headers with
  | some status => .error status
  | none =>
    match readMessages rpc.Request body with
    | .error fault => .error fault.status
    | .ok [] => .error ⟨.internal, "Missing request message.", []⟩
    | .ok (m :: _) => .ok m

/-- Answers a call. The service does not see whether the caller cancels it. -/
def handle (service : Service) (path : Bytes) (headers : Headers) (body : Body) :
    Attempt Answer :=
  let name := (Utf8.decode? path).getD ""
  match Rpc.ofPath? name with
  | none => .immediate (.ofStatus ⟨.unimplemented, s!"unknown method {name}", []⟩)
  | some rpc =>
    match readRequest rpc headers body with
    | .error status => .immediate (.ofStatus status)
    | .ok message => (service.invoke rpc message headers none).map .ofResult

end RestGateway.Grpc.Server
