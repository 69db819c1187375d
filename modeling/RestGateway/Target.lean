import RestGateway.Grpc.Client

/-!
# Targets

A gateway sends its calls to a service of its own process or through a connection to a remote one. A
connection can be closed once, and after that every call fails without being sent.
-/

namespace RestGateway

/-- A connection to a remote service. -/
structure Connection where
  /-- What the connection leads to, in words. -/
  endpoint : String
  channel : Grpc.Channel
  isClosed : Bool := false
  /-- Cancelling the gateway closes the connection. -/
  followsCancel : Bool := false

namespace Connection

/-- Closes the connection, and tells whether it was open before. -/
def close (c : Connection) : Bool × Connection := (!c.isClosed, { c with isClosed := true })

/-- The failure of calls through a closed connection. -/
def closedStatus (c : Connection) : Status :=
  ⟨.unavailable, s!"connection to {c.endpoint} is closed", []⟩

/-- Calls a method. -/
def invoke (c : Connection) (rpc : Rpc) (message : rpc.Request) (metadata : Headers) :
    Attempt (Except Status (Reply rpc)) :=
  if c.isClosed then .immediate (.error c.closedStatus)
  else Grpc.Client.call c.channel rpc message metadata

end Connection

/-- Where a gateway sends its calls. -/
inductive Target
  | inProcess (service : Service)
  | remote (connection : Connection)

namespace Target

/-- A target in one line. -/
def describe : Target → String
  | inProcess _ => "Local"
  | remote c => s!"Remote({Text.quoted c.endpoint})"

/-- Calls a method. A remote service does not see that the request is cancelled. -/
def invoke (t : Target) (rpc : Rpc) (message : rpc.Request) (metadata : Headers)
    (cancel : Option Duration) : Attempt (Except Status (Reply rpc)) :=
  match t with
  | inProcess service => service.invoke rpc message metadata cancel
  | remote c => c.invoke rpc message metadata

/-- The target after its service has seen calls. -/
def afterCalls (t : Target) (calls : List Call) : Target :=
  match t with
  | inProcess service => inProcess (service.afterCalls calls)
  | remote c =>
    match c.channel with
    | .toService service => remote { c with channel := .toService (service.afterCalls calls) }
    | .unreachable _ => t

/-- The target after the gateway was cancelled. -/
def afterCancel : Target → Target
  | remote c => if c.followsCancel then remote c.close.2 else remote c
  | t => t

end Target

end RestGateway
