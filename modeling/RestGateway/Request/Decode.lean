import RestGateway.Request.Basic
import RestGateway.Request.Query
import RestGateway.Route.Basic

/-!
# Request messages

A message is built in two steps: from the query or the body, as the route says, and then from the
variables of the path. A variable of the path wins over a field of the same name.
-/

namespace RestGateway

/-- Path variables with their values, in the order of the path. -/
abbrev Params := List (String × String)

/-- The value of a variable. -/
def Params.get? (params : Params) (name : String) : Option String :=
  (params.find? fun p => p.1 = name).map Prod.snd

/-- Puts the path variables into a message, in the order of the fields. -/
def bindPath {α : Type} (params : Params) (m : α) : List (PathField α) → Except Failure α
  | [] => .ok m
  | field :: fields =>
    match params.get? field.name with
    | none => .error (.invalidArgument s!"missing parameter {field.name}")
    | some value =>
      match field.bind m value with
      | .error f => .error f
      | .ok m => bindPath params m fields

namespace CompiledRoute

variable {rpc : Rpc}

/-- The message without the path variables. -/
def decodeSource (route : CompiledRoute rpc) (limit : Nat) (r : Request) :
    Except Failure rpc.Request :=
  match route.source with
  | .empty => .ok (Message.unset rpc.Request)
  | .query => decodeQuery rpc.Request route.template.variables (r.uri.query.getD [])
  | .body =>
    match r.body.read limit with
    | .error f => .error f
    | .ok body => decodeBody rpc.Request body

/-- The message of a request with these path variables. -/
def decodeRequest (route : CompiledRoute rpc) (limit : Nat) (r : Request) (params : Params) :
    Except Failure rpc.Request :=
  match route.decodeSource limit r with
  | .error f => .error f
  | .ok m => bindPath params m route.pathFields

end CompiledRoute

end RestGateway
