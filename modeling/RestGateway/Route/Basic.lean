import RestGateway.Failure
import RestGateway.Method
import RestGateway.Number.Integer
import RestGateway.Rpc
import RestGateway.Template

/-!
# Routes

A route ties a method and a path template to a method of the service. It says where the fields of
the request message come from and what of the reply is written back. Compiling checks a route once,
when it is registered.
-/

namespace RestGateway

/-- Where the fields of a request message come from, besides path variables. -/
inductive Source
  | empty
  | query
  | body
deriving Repr, DecidableEq

/-- Puts the value of a path variable into a request message. -/
structure PathField (α : Type) where
  name : String
  bind : α → String → Except Failure α

/-- What of a reply is written back. -/
inductive Answer (β : Type)
  | message
  /-- A single field. -/
  | field (name : String) (encode : β → Except String Bytes)

/-- The name of the field that is written back. -/
def Answer.field? {β : Type} : Answer β → Option String
  | message => none
  | field name _ => some name

/-- A route to a method of the service. -/
structure Route (rpc : Rpc) where
  method : Method
  template : String
  source : Source := .empty
  pathFields : List (PathField rpc.Request) := []
  answer : Answer rpc.Reply := .message

/-- Why a route cannot be registered, or a gateway cannot be built. -/
inductive RegisterFault
  | template (text : String) (fault : Template.Fault)
  | method (m : Method)
  | duplicate (m : Method) (text : String)
  | unboundVariable (text name : String)
  | unknownPathField (text name : String)
  | endpoint (target : String)
  | connect (target : String)
deriving Repr, DecidableEq

/-- The fault in words. -/
def RegisterFault.message : RegisterFault → String
  | .template text fault => s!"invalid route pattern {Text.quoted text}: {fault.message}"
  | .method m => s!"unsupported HTTP method {m.name}"
  | .duplicate m text => s!"route {m.name} {text} is already registered"
  | .unboundVariable text name =>
    s!"path variable {Text.quoted name} of {text} is not bound to a request field"
  | .unknownPathField text name =>
    s!"path field {Text.quoted name} is not a variable of {text}"
  | .endpoint target => s!"invalid endpoint {Text.quoted target}: invalid URI"
  | .connect target => s!"failed to dial {target}: transport error"

/-- A route that was checked. -/
structure CompiledRoute (rpc : Rpc) where
  method : Method
  template : Template
  source : Source
  pathFields : List (PathField rpc.Request)
  answer : Answer rpc.Reply

/-- What is told about a route. -/
structure Descriptor where
  method : Method
  template : Template
  rpc : Rpc
  source : Source
  field : Option String
deriving Repr, DecidableEq

/-- A route in one line. -/
def Descriptor.describe (d : Descriptor) : String :=
  s!"{d.method.name} {d.template.text} -> {d.rpc.path}"

/-- What is told about a route. -/
def CompiledRoute.descriptor {rpc : Rpc} (r : CompiledRoute rpc) : Descriptor :=
  ⟨r.method, r.template, rpc, r.source, r.answer.field?⟩

/-- Checks a route: its method, its template, that every variable of the template is bound, and
that every path field is a variable. -/
def Route.compile {rpc : Rpc} (r : Route rpc) : Except RegisterFault (CompiledRoute rpc) :=
  if !r.method.isSupported then .error (.method r.method)
  else match Template.parse r.template with
    | .error fault => .error (.template r.template fault)
    | .ok template =>
      match template.variables.find? fun v => !r.pathFields.any fun f => f.name = v with
      | some name => .error (.unboundVariable r.template name)
      | none =>
        match r.pathFields.find? fun f => !template.variables.contains f.name with
        | some field => .error (.unknownPathField r.template field.name)
        | none => .ok ⟨r.method, template, r.source, r.pathFields, r.answer⟩

/-- Reads the value of a path variable; a bad value is reported with the name of the variable. -/
def pathValue {α : Type} (read : String → Except String α) (name value : String) :
    Except Failure α :=
  (read value).mapError fun fault =>
    .invalidArgument s!"type mismatch, parameter: {name}, error: {fault}"

namespace PathValue

/-- Every text is a text. -/
def text (s : String) : Except String String := .ok s

/-- Reads a whole number of a range. -/
def integer (range : Integer.Range) (s : String) : Except String Int :=
  (Integer.read range s).mapError Integer.Fault.message

/-- Reads a truth value. -/
def bool (s : String) : Except String Bool :=
  if s = "true" then .ok true
  else if s = "false" then .ok false
  else .error "provided string was not `true` or `false`"

end PathValue

end RestGateway
