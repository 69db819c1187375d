import RestGateway.Failure
import RestGateway.Rpc
import RestGateway.Deadline

/-!
# Services

A service answers calls. For each of its methods it has a list of answers: each call takes the next
one and the last one is repeated. An answer may need time, may wait for the request to be cancelled,
and may never come.

Moments are counted in nanoseconds from the start of a request.
-/

namespace RestGateway

/-- A call as the service sees it. -/
structure Call where
  rpc : Rpc
  message : rpc.Request
  metadata : Headers

/-- What a call returns. -/
structure Reply (rpc : Rpc) where
  message : rpc.Reply
  metadata : Metadata.OfReply := {}

/-- How a service answers a call. -/
structure Answering (rpc : Rpc) where
  /-- The answer is not given earlier. -/
  delay : Duration := ⟨0⟩
  /-- The answer is never given. -/
  hangs : Bool := false
  /-- The answer is not given before the request is cancelled. -/
  awaitsCancel : Bool := false
  result : Except Status (Reply rpc)

namespace Answering

/-- The moment at which the answer is given, if it ever is; `cancel` is the moment at which the
request is cancelled, as far as the service can see it. -/
def ready {rpc : Rpc} (a : Answering rpc) (cancel : Option Duration) : Option Duration :=
  if a.hangs then none
  else if a.awaitsCancel then cancel.map fun c => ⟨Nat.max a.delay.nanos c.nanos⟩
  else some a.delay

/-- The answer of a method that was not implemented. -/
def unimplemented (rpc : Rpc) : Answering rpc where
  result := .error ⟨.unimplemented, s!"{rpc.name} is not implemented", []⟩

end Answering

/-- The answers that a service is going to give to the calls of each method. -/
structure Service where
  answers : (rpc : Rpc) → List (Answering rpc)

/-- How a call goes: when the service sees it, when the result is there, and the result. -/
structure Attempt (α : Type) where
  /-- The moment at which the service sees the calls. -/
  arrival : Duration := ⟨0⟩
  /-- The calls that the service sees then. -/
  calls : List Call := []
  /-- The moment at which the result is there, if it ever is. -/
  ready : Option Duration
  result : α
  /-- The result breaks the rules of the channel so badly that the call is given up. -/
  broken : Bool := false

/-- The attempt with a function applied to its result. -/
def Attempt.map {α β : Type} (f : α → β) (a : Attempt α) : Attempt β :=
  ⟨a.arrival, a.calls, a.ready, f a.result, a.broken⟩

/-- The attempt of a call that fails at once and that no service sees. -/
def Attempt.immediate {α : Type} (result : α) : Attempt α where
  ready := some ⟨0⟩
  result

namespace Service

/-- No method is implemented. -/
def empty : Service := ⟨fun _ => []⟩

/-- The answer to the next call of a method. -/
def next (s : Service) (rpc : Rpc) : Answering rpc :=
  (s.answers rpc).head?.getD (Answering.unimplemented rpc)

/-- The answers that are left after the next one was given; the last one stays. -/
def remaining {α : Type} : List α → List α
  | _ :: a :: rest => a :: rest
  | last => last

/-- The service after it has seen a call of a method. -/
def after (s : Service) (rpc : Rpc) : Service where
  answers r := if r = rpc then remaining (s.answers r) else s.answers r

/-- The service after it has seen calls. -/
def afterCalls (s : Service) (calls : List Call) : Service :=
  calls.foldl (fun s call => s.after call.rpc) s

/-- Calls a method. `cancel` is the moment at which the request is cancelled, as far as the service
can see it. -/
def invoke (s : Service) (rpc : Rpc) (message : rpc.Request) (metadata : Headers)
    (cancel : Option Duration) : Attempt (Except Status (Reply rpc)) where
  calls := [⟨rpc, message, metadata⟩]
  ready := (s.next rpc).ready cancel
  result := (s.next rpc).result

end Service

end RestGateway
