import RestGateway.Message.Types

/-!
# The message types by name

Nine types of messages occur in calls and in their results. `MessageType` names them, so that one
statement can speak about the messages of every type.
-/

namespace RestGateway

/-- A type of messages. -/
inductive MessageType
  | empty
  | text
  | audit
  | auditListRequest
  | auditListReply
  | auditCreateRequest
  | auditReadRequest
  | auditUpdateRequest
  | auditReadReply
deriving Repr, DecidableEq

namespace MessageType

/-- The messages of a type. -/
abbrev Value : MessageType → Type
  | empty => Message.Empty
  | text => Message.Text
  | audit => Message.Audit
  | auditListRequest => Message.AuditListRequest
  | auditListReply => Message.AuditListReply
  | auditCreateRequest => Message.AuditCreateRequest
  | auditReadRequest => Message.AuditReadRequest
  | auditUpdateRequest => Message.AuditUpdateRequest
  | auditReadReply => Message.AuditReadReply

instance : (k : MessageType) → Message k.Value
  | empty => inferInstanceAs (Message Message.Empty)
  | text => inferInstanceAs (Message Message.Text)
  | audit => inferInstanceAs (Message Message.Audit)
  | auditListRequest => inferInstanceAs (Message Message.AuditListRequest)
  | auditListReply => inferInstanceAs (Message Message.AuditListReply)
  | auditCreateRequest => inferInstanceAs (Message Message.AuditCreateRequest)
  | auditReadRequest => inferInstanceAs (Message Message.AuditReadRequest)
  | auditUpdateRequest => inferInstanceAs (Message Message.AuditUpdateRequest)
  | auditReadReply => inferInstanceAs (Message Message.AuditReadReply)

end MessageType

end RestGateway
