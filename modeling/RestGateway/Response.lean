import RestGateway.Header

/-!
# Responses
-/

namespace RestGateway

/-- An HTTP response. -/
structure Response where
  status : Nat
  headers : Headers := []
  body : Bytes := []
deriving Repr, DecidableEq

/-- Header fields of an answer in JSON. -/
def Headers.json : Headers := [⟨"content-type", Utf8.encode "application/json"⟩]

end RestGateway
