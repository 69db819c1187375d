import RestGateway.Json.Number
import RestGateway.Json.Text
import RestGateway.Metadata.Forward
import RestGateway.Response
import RestGateway.Status

/-!
# Failures

A request that cannot be served fails with a code and a message. Over HTTP that is the status of
the code and a JSON object with its number, the message and an empty list of details.
-/

namespace RestGateway

/-- How a call of the service failed. -/
structure Status where
  code : Code
  message : String
  metadata : Headers := []
deriving Repr, DecidableEq

/-- How a request failed. -/
structure Failure where
  code : Code
  message : String
  /-- More headers of the response. -/
  headers : Option Headers := none
deriving Repr, DecidableEq

namespace Failure

/-- The request is wrong. -/
def invalidArgument (message : String) : Failure := ⟨.invalidArgument, message, none⟩

/-- The request is too large. -/
def resourceExhausted (message : String) : Failure := ⟨.resourceExhausted, message, none⟩

/-- The gateway failed. -/
def internal (message : String) : Failure := ⟨.internal, message, none⟩

/-- The gateway was shut down during the call. -/
def canceled : Failure := ⟨.canceled, "context canceled", none⟩

/-- The deadline passed during the call. -/
def deadlineExceeded : Failure := ⟨.deadlineExceeded, "context deadline exceeded", none⟩

/-- Adds a header; what is no name or no value is dropped. -/
def withHeader (f : Failure) (name value : String) : Failure :=
  match Header.name? name, Header.value? (Utf8.encode value) with
  | some name, some value =>
    { f with headers := some ((f.headers.getD []).append name value) }
  | _, _ => f

/-- The failure of a request whose call failed. -/
def ofStatus (s : Status) : Failure :=
  let headers := Metadata.forwarded Metadata.headerStart s.metadata
  ⟨s.code, s.message, if headers.isEmpty then none else some headers⟩

/-- The failure in one line. -/
def describe (f : Failure) : String := s!"{f.code.name}: {f.message}"

/-- The object that describes a failure. -/
def body (f : Failure) : Bytes :=
  Utf8.encode "\x7b\"code\":" ++ Json.writeInteger f.code.number
    ++ Utf8.encode ",\"message\":" ++ Json.writeString f.message
    ++ Utf8.encode ",\"details\":[]\x7d"

/-- The response of a failed request. -/
def response (f : Failure) : Response :=
  ⟨f.code.httpStatus, Headers.json.extend (f.headers.getD []), f.body⟩

end Failure

end RestGateway
