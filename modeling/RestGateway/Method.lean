/-!
# HTTP methods
-/

namespace RestGateway

/-- An HTTP method; names are case sensitive. -/
inductive Method
  | get
  | head
  | post
  | put
  | patch
  | delete
  | other (name : String)
deriving Repr, DecidableEq

namespace Method

/-- The name of a method. -/
def name : Method → String
  | get => "GET"
  | head => "HEAD"
  | post => "POST"
  | put => "PUT"
  | patch => "PATCH"
  | delete => "DELETE"
  | other name => name

/-- The method with a name. -/
def ofName (s : String) : Method :=
  match s with
  | "GET" => get
  | "HEAD" => head
  | "POST" => post
  | "PUT" => put
  | "PATCH" => patch
  | "DELETE" => delete
  | s => other s

/-- Methods that routes may have. -/
def isSupported : Method → Bool
  | get | post | put | patch | delete => true
  | head | other _ => false

/-- The methods that a route with this method adds to the methods of its path. -/
def allowed : Method → List Method
  | get => [get, head]
  | method => [method]

end Method

end RestGateway
