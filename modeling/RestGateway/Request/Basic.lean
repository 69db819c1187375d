import RestGateway.Address
import RestGateway.Method
import RestGateway.Request.Body
import RestGateway.Uri

/-!
# HTTP requests
-/

namespace RestGateway

/-- An HTTP request. -/
structure Request where
  method : Method := .get
  uri : Uri
  headers : Headers := []
  body : Body := {}
  /-- The address of the client, if it is known. -/
  remote : Option Address := none
deriving Repr, DecidableEq

end RestGateway
