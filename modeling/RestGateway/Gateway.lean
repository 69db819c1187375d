import RestGateway.Bindings
import RestGateway.Dispatch

/-!
# Gateways

A gateway answers HTTP requests with calls of its target. It can be cancelled, which ends the calls
that wait, and its connection can be closed, which fails the calls that come later.
-/

namespace RestGateway

/-- The response with the length of its body. -/
def Response.withLength (r : Response) : Response :=
  { r with headers := r.headers.set "content-length" (Utf8.encode (toString r.body.length)) }

/-- The exchange with the length of the body in its response. -/
def Exchange.withLength (e : Exchange) : Exchange :=
  match e.outcome with
  | .response r => { e with outcome := .response r.withLength }
  | _ => e

/-- Routes a request and serves it. A path that no template matches is not found, and a method that
the path does not serve is not allowed. -/
def Router.serve (router : Router) (limits : Limits) (target : Target) (r : Request)
    (cancel : Option Duration) : Exchange :=
  match router.find? r.uri.path with
  | none => { outcome := .response ⟨404, [], []⟩ }
  | some (path, captures) =>
    match path.endpoint? r.method with
    | none => Exchange.withLength { outcome := .response (methodNotAllowed path.methods) }
    | some e => (e.route.serve limits target (some captures) r cancel).withLength

/-- What requests are handed to. -/
inductive Front
  | router (router : Router)
  /-- A single endpoint takes all requests. It knows no path variables. -/
  | endpoint (endpoint : Endpoint)

/-- Serves a request. -/
def Front.serve (front : Front) (limits : Limits) (target : Target) (r : Request)
    (cancel : Option Duration) : Exchange :=
  match front with
  | .router paths => paths.serve limits target r cancel
  | .endpoint e => e.route.serve limits target none r cancel

/-- A gateway and the state that its requests share. -/
structure Gateway where
  routes : List Descriptor
  front : Front
  limits : Limits := {}
  target : Target
  canceled : Bool := false

namespace Gateway

/-- A gateway with the routes of a table, if one router can hold them. -/
def ofTable? (t : Table) (limits : Limits) (target : Target) : Option Gateway :=
  (Router.ofTable? t).map fun router =>
    { routes := t.routes, front := .router router, limits, target }

/-- A gateway with a single endpoint. -/
def ofEndpoint (e : Endpoint) (limits : Limits) (target : Target) : Gateway :=
  { routes := [e.route.descriptor], front := .endpoint e, limits, target }

/-- The moment at which a request is cancelled, if the gateway is cancelled some time after the
request has started. A cancelled gateway cancels requests from the start. -/
def cancelMoment (canceled : Bool) (cancelAfter : Option Duration) : Option Duration :=
  if canceled then some ⟨0⟩ else cancelAfter.map fun d => ⟨Nat.max d.nanos 1⟩

/-- A cancellation happens before a request ends. -/
def cancelHappens (cancel ended : Option Duration) : Bool :=
  match cancel, ended with
  | some c, some e => c.nanos ≤ e.nanos
  | some _, none => true
  | none, _ => false

/-- The gateway after it was cancelled. -/
def cancel (g : Gateway) : Gateway :=
  { g with canceled := true, target := g.target.afterCancel }

/-- Closes the connection of a gateway, and tells whether it was open before. A target of the same
process has nothing to close. -/
def close (g : Gateway) : Bool × Gateway :=
  match g.target with
  | .inProcess _ => (false, g)
  | .remote c => (c.close.1, { g with target := .remote c.close.2 })

/-- The gateway after a request. -/
def afterRequest (g : Gateway) (cancel : Option Duration) (e : Exchange) : Gateway :=
  let g := { g with target := g.target.afterCalls e.calls }
  if cancelHappens cancel e.ended then g.cancel else g

/-- Answers a request. The gateway is cancelled when the time `cancelAfter` has passed, unless the
request ends earlier. -/
def handle (g : Gateway) (r : Request) (cancelAfter : Option Duration) : Exchange × Gateway :=
  let cancel := cancelMoment g.canceled cancelAfter
  let e := g.front.serve g.limits g.target r cancel
  (e, g.afterRequest cancel e)

/-- What an endpoint starts with that is a socket in the file system. -/
def socketMark : Bytes := Utf8.encode "unix:"

/-- A text names an endpoint: a socket in the file system, whatever its path, or a target of
requests. -/
def isEndpoint (endpoint : String) : Bool :=
  socketMark.isPrefixOf (Utf8.encode endpoint) || (Uri.parse? (Utf8.encode endpoint)).isSome

/-- Dials an endpoint, which gives a channel if a server can be reached. Cancelling the gateway
closes the connection. -/
def dial (endpoint : String) (channel : Option Grpc.Channel) :
    Except RegisterFault Connection :=
  if !isEndpoint endpoint then .error (.endpoint endpoint)
  else match channel with
    | none => .error (.connect endpoint)
    | some channel => .ok { endpoint, channel, followsCancel := true }

end Gateway

end RestGateway
