import RestGateway.Json.Record
import RestGateway.Route.Basic

/-!
# Fields that routes bind and write

`PathField.named` gives the path fields that request messages have by name, and `Answer.named` the
answers that consist of one field of a reply.
-/

namespace RestGateway

namespace PathField

/-- Puts a text into a field. -/
def ofText {α : Type} (name : String) (set : α → String → α) : PathField α :=
  ⟨name, fun m value => (pathValue PathValue.text name value).map (set m)⟩

/-- Puts a whole number into a field. -/
def ofInteger {α : Type} (name : String) (set : α → Int64 → α) : PathField α :=
  ⟨name, fun m value =>
    (pathValue (PathValue.integer Integer.int64) name value).map fun n => set m (Int64.ofInt n)⟩

/-- A name without a field. Its value is not looked at. -/
def ignored {α : Type} (name : String) : PathField α := ⟨name, fun m _ => .ok m⟩

/-- The field with a name. -/
def named (rpc : Rpc) (name : String) : PathField rpc.Request :=
  match rpc, name with
  | .auditRead, "id" =>
    ofText "id" fun (m : Message.AuditReadRequest) id => { m with id }
  | .auditUpdate, "id" =>
    ofText "id" fun (m : Message.AuditUpdateRequest) id => { m with id }
  | .auditUpdate, "status" =>
    ofText "status" fun (m : Message.AuditUpdateRequest) status => { m with status := some status }
  | .auditCreate, "type" =>
    ofText "type" fun (m : Message.AuditCreateRequest) type => { m with type }
  | .auditCreate, "subject" =>
    ofText "subject" fun (m : Message.AuditCreateRequest) subject =>
      { m with subject := some subject }
  | .auditList, "limit" =>
    ofInteger "limit" fun (m : Message.AuditListRequest) limit => { m with limit := some limit }
  | .auditList, "type" =>
    ofText "type" fun (m : Message.AuditListRequest) type => { m with type := some type }
  | .auditList, "status" =>
    ofText "status" fun (m : Message.AuditListRequest) status => { m with status := some status }
  | _, name => ignored name

end PathField

/-- The answer that consists of the field with a name. -/
def Answer.named (rpc : Rpc) (name : String) : Answer rpc.Reply :=
  .field name fun reply =>
    match Json.encodeField? name reply with
    | some bytes => .ok bytes
    | none => .error "no such field"

end RestGateway
