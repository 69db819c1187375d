import RestGateway.Metadata.Annotate
import RestGateway.Race
import RestGateway.Request.Decode
import RestGateway.Route.Router
import RestGateway.Target

/-!
# Serving requests

A request that was routed is turned into at most one call. What keeps the call from being made is
found in a fixed order: another method, variables of the path that are no text, a message that
cannot be read, a path value that does not fit, and a time limit that cannot be read. The call then
races against the deadline and the cancellation of the request.
-/

namespace RestGateway

/-- What holds for all requests of a gateway. -/
structure Limits where
  /-- No call takes longer. -/
  timeout : Option Duration := none
  bodyLimit : Nat := Body.defaultLimit
deriving Repr, DecidableEq

/-- What becomes of a request. -/
inductive Outcome
  | response (r : Response)
  /-- The call waits forever. -/
  | pending
  /-- Serving the request is given up: the time limit of its call cannot be written, or the call
  breaks. -/
  | abandoned
deriving Repr, DecidableEq

/-- What a request led to. -/
structure Exchange where
  outcome : Outcome
  /-- The calls that the service saw. -/
  calls : List Call := []
  /-- The moment at which the request ended, if it did. -/
  ended : Option Duration := some ⟨0⟩

/-- What a request asks for. -/
structure Order (rpc : Rpc) where
  message : rpc.Request
  deadline : Option Duration

/-- Values of path variables with their escapes undone; they have to be texts. -/
def decodeCaptures : Captures → Except Failure Params
  | [] => .ok []
  | (name, value) :: rest =>
    match Utf8.decode? (Percent.decode value) with
    | none => .error (.invalidArgument s!"Invalid UTF-8 in `{name}`")
    | some value => (decodeCaptures rest).map ((name, value) :: ·)

/-- The response to a request with a method that a path does not serve. -/
def methodNotAllowed (allowed : List Method) : Response where
  status := 405
  headers := [⟨"allow", Utf8.encode (",".intercalate (allowed.map Method.name))⟩]

/-- The part of a message that is written back, in JSON. -/
def Answer.write {β : Type} [Message β] (m : β) : Answer β → Except String Bytes
  | .message => .ok (Json.encode m)
  | .field _ encode => encode m

namespace CompiledRoute

variable {rpc : Rpc}

/-- The path variables of a request. Without a router there are none, which only matters for routes
that bind some. -/
def params (route : CompiledRoute rpc) (captures : Option Captures) : Except Failure Params :=
  if route.pathFields.isEmpty then .ok []
  else match captures with
    | none => .error (.invalidArgument "No paths parameters found for matched route")
    | some captures => decodeCaptures captures

/-- Reads what a request asks for. -/
def order (route : CompiledRoute rpc) (limits : Limits) (captures : Option Captures)
    (r : Request) : Except Failure (Order rpc) := do
  let params ← route.params captures
  let message ← route.decodeRequest limits.bodyLimit r params
  let client ← Deadline.ofHeaders r.headers
  return ⟨message, Deadline.effective limits.timeout client⟩

/-- The response with a reply. -/
def respond (route : CompiledRoute rpc) (reply : Reply rpc) : Except Failure Response :=
  match route.answer.write reply.message with
  | .error fault => .error (.internal s!"failed to encode response: {fault}")
  | .ok body => .ok ⟨200, Metadata.forwardReply Headers.json reply.metadata, body⟩

/-- The response with the result of a call. -/
def respondTo (route : CompiledRoute rpc) : Except Status (Reply rpc) → Response
  | .error status => (Failure.ofStatus status).response
  | .ok reply =>
    match route.respond reply with
    | .error f => f.response
    | .ok response => response

/-- The metadata of the call that a request leads to, with its deadline if there is one. A deadline
that cannot be written leaves none. -/
def metadata? (r : Request) (deadline : Option Duration) : Option Headers :=
  match deadline with
  | none => some (Metadata.annotate r)
  | some d =>
    (Deadline.write? d).map fun text =>
      (Metadata.annotate r).set Deadline.name (Utf8.encode text)

/-- Makes the call of a request. `cancel` is the moment at which the request is cancelled. -/
def perform (route : CompiledRoute rpc) (target : Target) (r : Request) (order : Order rpc)
    (cancel : Option Duration) : Exchange :=
  match metadata? r order.deadline with
  | none => { outcome := .abandoned }
  | some metadata =>
    let attempt := target.invoke rpc order.message metadata cancel
    let race : Race := ⟨attempt.ready, order.deadline, cancel⟩
    { outcome := match race.ending with
        | .answered =>
          if attempt.broken then .abandoned else .response (route.respondTo attempt.result)
        | .expired => .response Failure.deadlineExceeded.response
        | .canceled => .response Failure.canceled.response
        | .pending => .pending
      calls := if race.inTime attempt.arrival then attempt.calls else []
      ended := race.moment? }

/-- Serves a request. -/
def serve (route : CompiledRoute rpc) (limits : Limits) (target : Target)
    (captures : Option Captures) (r : Request) (cancel : Option Duration) : Exchange :=
  if r.method ≠ route.method then { outcome := .response (methodNotAllowed [route.method]) }
  else match route.order limits captures r with
    | .error f => { outcome := .response f.response }
    | .ok order => route.perform target r order cancel

end CompiledRoute

end RestGateway
