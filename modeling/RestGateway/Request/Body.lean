import RestGateway.Failure
import RestGateway.Json.Record

/-!
# Request bodies

A body arrives in chunks, and the stream may break off. `Body.read` collects it up to a limit, and
`decodeBody` reads a message from what was collected.
-/

namespace RestGateway

/-- A body as it arrives: its chunks, and the fault that the stream ends with, if it does. -/
structure Body where
  chunks : List Bytes := []
  fault : Option String := none
deriving Repr, DecidableEq

namespace Body

/-- How many bytes arrive. -/
def size (b : Body) : Nat := b.chunks.foldl (fun n chunk => n + chunk.length) 0

/-- The whole body. Too many bytes are refused before a fault of the stream is noticed, because the
stream is not read any further. -/
def read (b : Body) (limit : Nat) : Except Failure Bytes :=
  if limit < b.size then
    .error (.resourceExhausted s!"request body exceeds the {limit} byte limit")
  else match b.fault with
    | some fault => .error (.invalidArgument s!"failed to read request body: {fault}")
    | none => .ok b.chunks.flatten

/-- Most bodies are limited to four mebibytes. -/
def defaultLimit : Nat := 4 * 1024 * 1024

end Body

/-- Reads a message from a body in JSON. A body that is blank or null sets no field. -/
def decodeBody (α : Type) [Message α] (body : Bytes) : Except Failure α :=
  let trimmed := Bytes.trim body
  if trimmed.isEmpty || trimmed == [0x6E, 0x75, 0x6C, 0x6C] then .ok (Message.unset α)
  else (Json.decode α body).mapError fun f => .invalidArgument (f.message body)

end RestGateway
