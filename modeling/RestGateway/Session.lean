import RestGateway.Gateway

/-!
# Connections that are shared

The clones of a connection lead to the same place and are closed together. Callers hold some, the
gateway sends its requests through one, and a watcher closes another when the gateway is cancelled.
A request takes what it needs of the connection at the moment when it reaches the target, and is
answered some time later; whatever happens in between no longer matters to it.
-/

namespace RestGateway

/-- The connection after its service has seen calls. -/
def Connection.afterCalls (c : Connection) (calls : List Call) : Connection :=
  match c.channel with
  | .toService service => { c with channel := .toService (service.afterCalls calls) }
  | .unreachable _ => c

/-- Who has a clone of a connection. -/
inductive Holder
  | caller (clone : Nat)
  /-- Closes the connection when the gateway is cancelled, if the connection follows that. -/
  | watcher

/-- What is done with a connection. -/
inductive Operation
  | close (holder : Holder)
  | isClosed (holder : Holder)
  /-- The gateway is cancelled. -/
  | cancel
  /-- A request reaches the target, unless it is refused earlier. -/
  | send (r : Request)
  /-- The request that was sent at a position is answered. The gateway is cancelled when the time
  `cancelAfter` has passed since then, unless the request ends earlier. -/
  | answer (position : Nat) (cancelAfter : Option Duration)

/-- What was done, and what it led to. -/
inductive Event
  | closed (holder : Holder) (wasOpen : Bool)
  | told (holder : Holder) (isClosed : Bool)
  | canceled
  /-- The request found the connection closed or not, and the gateway cancelled or not. -/
  | sent (r : Request) (foundClosed foundCanceled : Bool)
  | answered (position : Nat) (cancelAfter : Option Duration) (e : Exchange)
  /-- The watcher still waits, or no request at the position waits for an answer. -/
  | nothing

namespace Event

/-- The connection was closed, if it was not closed before. -/
def closes : Event → Bool
  | closed _ _ => true
  | _ => false

/-- The gateway was cancelled. -/
def cancels : Event → Bool
  | canceled => true
  | _ => false

/-- The request that was sent at a position was answered. -/
def answers (position : Nat) : Event → Bool
  | answered p _ _ => p = position
  | _ => false

end Event

/-- A connection, and what was done with it. -/
structure Session where
  connection : Connection
  canceled : Bool := false
  /-- What happened, in order. -/
  trace : List Event := []

namespace Session

/-- Nothing was done yet. -/
def start (connection : Connection) : Session := { connection }

/-- Records an event. -/
def record (s : Session) (event : Event) : Session := { s with trace := s.trace ++ [event] }

/-- A holder closes the connection. -/
def close (s : Session) (holder : Holder) : Session :=
  let (wasOpen, connection) := s.connection.close
  { s with connection }.record (.closed holder wasOpen)

/-- The watcher closes the connection, if the gateway is cancelled and the connection follows
that. -/
def watch (s : Session) : Session :=
  if s.canceled && s.connection.followsCancel then s.close .watcher else s.record .nothing

/-- The request that was sent at a position is answered, as the front and the limits of the gateway
say and as it found the connection and the gateway when it was sent. -/
def answer (front : Front) (limits : Limits) (s : Session) (position : Nat)
    (cancelAfter : Option Duration) : Session :=
  match s.trace[position]? with
  | some (.sent r foundClosed foundCanceled) =>
    if s.trace.any (Event.answers position) then s.record .nothing
    else
      let e := front.serve limits (.remote { s.connection with isClosed := foundClosed }) r
        (Gateway.cancelMoment foundCanceled cancelAfter)
      { s with connection := s.connection.afterCalls e.calls }.record
        (.answered position cancelAfter e)
  | _ => s.record .nothing

/-- One operation. -/
def step (front : Front) (limits : Limits) (s : Session) : Operation → Session
  | .close .watcher => s.watch
  | .close holder => s.close holder
  | .isClosed holder => s.record (.told holder s.connection.isClosed)
  | .cancel => { s with canceled := true }.record .canceled
  | .send r => s.record (.sent r s.connection.isClosed s.canceled)
  | .answer position cancelAfter => s.answer front limits position cancelAfter

/-- Operations one after the other. -/
def run (front : Front) (limits : Limits) (s : Session) (ops : List Operation) : Session :=
  ops.foldl (step front limits) s

end Session

end RestGateway
