import RestGateway.Message.Catalog
import RestGateway.Proofs.Wire.RoundTrip

/-!
# The messages of the service on the wire

Every message of every type is read back from its bytes. A text that is set to nothing is written
and comes back set, and one that is not set is left out and comes back unset. Lengths are numbers of
64 bits, which is the only limit.
-/

namespace RestGateway.MessageType

/-- The fields of every type have numbers of their own. -/
theorem numbered (k : MessageType) : Wire.Numbered (Message.schema k.Value) := by
  cases k <;> decide

/-- A message of any type is read back from its bytes, if these are not more than a length can
count. -/
theorem decode_encode_eq (k : MessageType) (m : k.Value) (h : (Wire.encode m).length < 2 ^ 64) :
    Wire.decode k.Value (Wire.encode m) = .ok m :=
  Wire.decode_encode k.numbered m h

/-- A page with the least limit, a status that is set to nothing, and an audit without any field. -/
def page : Message.AuditListReply where
  request := some { limit := some Int64.minValue, status := some "" }
  data := [{}, { id := "42", subject := some "🔑", status := some "" }]

/-- The page comes back. -/
theorem decode_encode_page :
    (Wire.encode page).length < 2 ^ 64 ∧
      Wire.decode Message.AuditListReply (Wire.encode page) = .ok page := by
  have hlt : (Wire.encode page).length < 2 ^ 64 := by decide +kernel
  exact ⟨hlt, decode_encode_eq .auditListReply page hlt⟩

end RestGateway.MessageType
