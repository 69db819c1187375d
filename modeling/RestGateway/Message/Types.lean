import RestGateway.Message.Schema

/-!
# The messages of the audit service

Requests and replies of the six methods, with the schema of each. Names in JSON and in reports
differ for one field only, the type of an audit, which reports call `type_`.
-/

namespace RestGateway

namespace Field

/-- A text that is always there. -/
def text (name : String) (tag : Nat) (label : String := name) : Field Scalar :=
  ⟨name, label, tag, .text⟩

/-- A text that may be set or not. -/
def optionalText (name : String) (tag : Nat) (label : String := name) : Field Scalar :=
  ⟨name, label, tag, .optionalText⟩

/-- A whole number that may be set or not. -/
def optionalInt (name : String) (tag : Nat) (label : String := name) : Field Scalar :=
  ⟨name, label, tag, .optionalInt⟩

end Field

namespace Message

/-- The message without fields. -/
structure Empty where
deriving Repr, DecidableEq

/-- A single text. -/
structure Text where
  text : String := ""
deriving Repr, DecidableEq

/-- An audit record. -/
structure Audit where
  id : String := ""
  createdAt : String := ""
  updatedAt : String := ""
  type : String := ""
  subject : Option String := none
  status : Option String := none
  actor : Option String := none
  data : Option String := none
  userId : Option String := none
  serviceId : Option String := none
  userAgent : Option String := none
  remote : Option String := none
deriving Repr, DecidableEq

/-- Which audits to list. -/
structure AuditListRequest where
  ge : Option String := none
  le : Option String := none
  limit : Option Int64 := none
  offsetId : Option String := none
  type : Option String := none
  subject : Option String := none
  status : Option String := none
  actor : Option String := none
  userId : Option String := none
  serviceId : Option String := none
deriving Repr, DecidableEq

/-- A page of audits, with the request that it answers. -/
structure AuditListReply where
  request : Option AuditListRequest := none
  data : List Audit := []
deriving Repr, DecidableEq

/-- A new audit. -/
structure AuditCreateRequest where
  type : String := ""
  subject : Option String := none
  status : Option String := none
  actor : Option String := none
  data : Option String := none
  userId : Option String := none
  serviceId : Option String := none
deriving Repr, DecidableEq

/-- The audit to read. -/
structure AuditReadRequest where
  id : String := ""
deriving Repr, DecidableEq

/-- The audit to change, with the fields to change. -/
structure AuditUpdateRequest where
  id : String := ""
  subject : Option String := none
  status : Option String := none
  actor : Option String := none
  data : Option String := none
deriving Repr, DecidableEq

/-- An audit, if there is one. -/
structure AuditReadReply where
  data : Option Audit := none
deriving Repr, DecidableEq

instance : Flat Empty where
  type := ⟨"Empty", []⟩
  toRecord _ := ()
  ofRecord _ := {}
  ofRecord_toRecord _ := rfl
  toRecord_ofRecord _ := rfl

instance : Flat Text where
  type := ⟨"Text", [.text "text" 1]⟩
  toRecord m := (m.text, ())
  ofRecord := fun (text, ()) => { text }
  ofRecord_toRecord _ := rfl
  toRecord_ofRecord _ := rfl

instance : Flat Audit where
  type := ⟨"Audit",
    [.text "id" 1, .text "created_at" 2, .text "updated_at" 3, .text "type" 4 "type_",
      .optionalText "subject" 5, .optionalText "status" 6, .optionalText "actor" 7,
      .optionalText "data" 8, .optionalText "user_id" 9, .optionalText "service_id" 10,
      .optionalText "user_agent" 11, .optionalText "remote" 12]⟩
  toRecord m :=
    (m.id, m.createdAt, m.updatedAt, m.type, m.subject, m.status, m.actor, m.data, m.userId,
      m.serviceId, m.userAgent, m.remote, ())
  ofRecord := fun (id, createdAt, updatedAt, type, subject, status, actor, data, userId,
      serviceId, userAgent, remote, ()) =>
    { id, createdAt, updatedAt, type, subject, status, actor, data, userId, serviceId,
      userAgent, remote }
  ofRecord_toRecord _ := rfl
  toRecord_ofRecord _ := rfl

instance : Flat AuditListRequest where
  type := ⟨"AuditListRequest",
    [.optionalText "ge" 1, .optionalText "le" 2, .optionalInt "limit" 3,
      .optionalText "offset_id" 4, .optionalText "type" 5 "type_", .optionalText "subject" 6,
      .optionalText "status" 7, .optionalText "actor" 8, .optionalText "user_id" 9,
      .optionalText "service_id" 10]⟩
  toRecord m :=
    (m.ge, m.le, m.limit, m.offsetId, m.type, m.subject, m.status, m.actor, m.userId,
      m.serviceId, ())
  ofRecord := fun (ge, le, limit, offsetId, type, subject, status, actor, userId,
      serviceId, ()) =>
    { ge, le, limit, offsetId, type, subject, status, actor, userId, serviceId }
  ofRecord_toRecord _ := rfl
  toRecord_ofRecord _ := rfl

instance : Flat AuditCreateRequest where
  type := ⟨"AuditCreateRequest",
    [.text "type" 1 "type_", .optionalText "subject" 2, .optionalText "status" 3,
      .optionalText "actor" 4, .optionalText "data" 5, .optionalText "user_id" 6,
      .optionalText "service_id" 7]⟩
  toRecord m := (m.type, m.subject, m.status, m.actor, m.data, m.userId, m.serviceId, ())
  ofRecord := fun (type, subject, status, actor, data, userId, serviceId, ()) =>
    { type, subject, status, actor, data, userId, serviceId }
  ofRecord_toRecord _ := rfl
  toRecord_ofRecord _ := rfl

instance : Flat AuditReadRequest where
  type := ⟨"AuditReadRequest", [.text "id" 1]⟩
  toRecord m := (m.id, ())
  ofRecord := fun (id, ()) => { id }
  ofRecord_toRecord _ := rfl
  toRecord_ofRecord _ := rfl

instance : Flat AuditUpdateRequest where
  type := ⟨"AuditUpdateRequest",
    [.text "id" 1, .optionalText "subject" 2, .optionalText "status" 3, .optionalText "actor" 4,
      .optionalText "data" 5]⟩
  toRecord m := (m.id, m.subject, m.status, m.actor, m.data, ())
  ofRecord := fun (id, subject, status, actor, data, ()) => { id, subject, status, actor, data }
  ofRecord_toRecord _ := rfl
  toRecord_ofRecord _ := rfl

/-- Records of an optional message, seen as messages and back. -/
theorem optional_toRecord_ofRecord {α : Type} [Flat α] (r : Option (Flat.type α).Value) :
    (r.map (Flat.ofRecord : _ → α)).map Flat.toRecord = r := by
  cases r with
  | none => rfl
  | some r => exact congrArg some (Flat.toRecord_ofRecord r)

/-- An optional message, seen as a record and back. -/
theorem optional_ofRecord_toRecord {α : Type} [Flat α] (m : Option α) :
    (m.map Flat.toRecord).map Flat.ofRecord = m := by
  cases m with
  | none => rfl
  | some m => exact congrArg some (Flat.ofRecord_toRecord m)

/-- Records of repeated messages, seen as messages and back. -/
theorem repeated_toRecord_ofRecord {α : Type} [Flat α] (rs : List (Flat.type α).Value) :
    (rs.map (Flat.ofRecord : _ → α)).map Flat.toRecord = rs := by
  induction rs with
  | nil => rfl
  | cons r rs ih => exact congr (congrArg List.cons (Flat.toRecord_ofRecord r)) ih

/-- Repeated messages, seen as records and back. -/
theorem repeated_ofRecord_toRecord {α : Type} [Flat α] (ms : List α) :
    (ms.map Flat.toRecord).map Flat.ofRecord = ms := by
  induction ms with
  | nil => rfl
  | cons m ms ih => exact congr (congrArg List.cons (Flat.ofRecord_toRecord m)) ih

instance : Message AuditListReply where
  schema := ⟨"AuditListReply",
    [⟨"meta", "meta", 1, .optional (Flat.type AuditListRequest)⟩,
      ⟨"data", "data", 2, .repeated (Flat.type Audit)⟩]⟩
  toRecord m := (m.request.map Flat.toRecord, m.data.map Flat.toRecord, ())
  ofRecord := fun (request, data, ()) =>
    ⟨request.map Flat.ofRecord, data.map Flat.ofRecord⟩
  ofRecord_toRecord m :=
    congr (congrArg AuditListReply.mk (optional_ofRecord_toRecord m.request))
      (repeated_ofRecord_toRecord m.data)
  toRecord_ofRecord := fun (request, data, ()) =>
    Prod.ext (optional_toRecord_ofRecord request)
      (Prod.ext (repeated_toRecord_ofRecord data) rfl)

instance : Message AuditReadReply where
  schema := ⟨"AuditReadReply", [⟨"data", "data", 1, .optional (Flat.type Audit)⟩]⟩
  toRecord m := (m.data.map Flat.toRecord, ())
  ofRecord := fun (data, ()) => ⟨data.map Flat.ofRecord⟩
  ofRecord_toRecord m := congrArg AuditReadReply.mk (optional_ofRecord_toRecord m.data)
  toRecord_ofRecord := fun (data, ()) =>
    congrArg (fun d => (d, ())) (optional_toRecord_ofRecord data)

end Message

end RestGateway
