import RestGateway.Route.Table

/-!
# Additions step by step

A route is added to a table in place. Its path is taken out of the table, gets the endpoint and is
put back, and then the route is recorded. A path serves no method twice: one that would have to
breaks the addition off while it is out of the table.
-/

namespace RestGateway

/-- Methods that a path can serve. -/
def Method.isServable : Method → Bool
  | .other name => ["CONNECT", "OPTIONS", "TRACE"].contains name
  | _ => true

/-- The path with one more endpoint, unless the method of the endpoint is served already. -/
def Path.take? (p : Path) (e : Endpoint) : Option Path :=
  if p.endpoints.any fun served => served.method = e.method then none
  else some ⟨p.template, p.endpoints ++ [e]⟩

/-- How an addition ends. -/
inductive Addition
  | added
  | refused (fault : RegisterFault)
  /-- The path of the route was taken out of the table and is lost. -/
  | broken
deriving Repr, DecidableEq

namespace Table

/-- Adds a route in place: how the addition ends, and the table that it leaves. -/
def addInPlace {rpc : Rpc} (t : Table) (r : Route rpc) : Addition × Table :=
  match r.compile with
  | .error fault => (.refused fault, t)
  | .ok route =>
    if t.seen.contains (route.method, route.template) then
      (.refused (.duplicate route.method route.template.text), t)
    else if !route.method.isServable then (.refused (.method route.method), t)
    else
      let position := t.paths.findIdx fun p => p.template = route.template
      let path := t.paths[position]?.getD ⟨route.template, []⟩
      let t := { t with paths := t.paths.eraseIdx position }
      match path.take? ⟨rpc, route⟩ with
      | none => (.broken, t)
      | some path =>
        let t := { t with paths := t.paths.insertIdx position path }
        let t := { t with seen := (route.method, route.template) :: t.seen }
        (.added, { t with routes := t.routes ++ [route.descriptor] })

/-- Adds routes one after the other, whatever becomes of each. What is added joins those in
`added`. -/
def addEach (t : Table) (added : List ((rpc : Rpc) × Route rpc)) :
    List ((rpc : Rpc) × Route rpc) → List ((rpc : Rpc) × Route rpc) × Table
  | [] => (added, t)
  | r :: rest =>
    match t.addInPlace r.2 with
    | (.added, t) => addEach t (added ++ [r]) rest
    | (_, t) => addEach t added rest

end Table

end RestGateway
