import RestGateway.Route.Basic

/-!
# Route tables

A table collects routes before a gateway is built. Each pair of a method and a template is
registered once; a route that cannot be added leaves the table as it was.
-/

namespace RestGateway

/-- A checked route to some method of the service. -/
structure Endpoint where
  rpc : Rpc
  route : CompiledRoute rpc

/-- The HTTP method of an endpoint. -/
def Endpoint.method (e : Endpoint) : Method := e.route.method

/-- A path with the endpoints that serve it, in the order in which they were added. -/
structure Path where
  template : Template
  endpoints : List Endpoint

/-- The methods that a path serves; each path that serves `GET` also serves `HEAD`. -/
def Path.methods (p : Path) : List Method := p.endpoints.flatMap fun e => e.method.allowed

/-- The endpoint that a request with a method is handed to. -/
def Path.endpoint? (p : Path) (m : Method) : Option Endpoint :=
  p.endpoints.find? fun e => e.method.allowed.contains m

/-- Routes that were registered. -/
structure Table where
  /-- What is told about the routes, in the order in which they were added. -/
  routes : List Descriptor := []
  /-- The pairs that are taken. -/
  seen : List (Method × Template) := []
  /-- The endpoints by path. -/
  paths : List Path := []

namespace Table

/-- Puts an endpoint under its path. -/
def place (e : Endpoint) : List Path → List Path
  | [] => [⟨e.route.template, [e]⟩]
  | p :: rest =>
    if p.template = e.route.template then ⟨p.template, p.endpoints ++ [e]⟩ :: rest
    else p :: place e rest

/-- Adds a route. -/
def add {rpc : Rpc} (t : Table) (r : Route rpc) : Except RegisterFault Table :=
  match r.compile with
  | .error f => .error f
  | .ok route =>
    if t.seen.contains (route.method, route.template) then
      .error (.duplicate route.method route.template.text)
    else .ok {
      routes := t.routes ++ [route.descriptor]
      seen := (route.method, route.template) :: t.seen
      paths := place ⟨rpc, route⟩ t.paths }

/-- Adds routes one after the other, up to the first that cannot be added. -/
def addAll (t : Table) : List ((rpc : Rpc) × Route rpc) → Except RegisterFault Table
  | [] => .ok t
  | ⟨_, r⟩ :: rest =>
    match t.add r with
    | .error f => .error f
    | .ok t => addAll t rest

end Table

end RestGateway
