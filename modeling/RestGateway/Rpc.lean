import RestGateway.Message.Types

/-!
# Methods of the service

The service has six methods, each with a type of requests and a type of replies. A method is called
by a path, which names the service and the method.
-/

namespace RestGateway

/-- A method of the service. -/
inductive Rpc
  | ping
  | metrics
  | auditList
  | auditCreate
  | auditRead
  | auditUpdate
deriving Repr, DecidableEq

namespace Rpc

/-- The name of the service. -/
def service : String := "sso.Sso"

/-- The methods of the service. -/
def all : List Rpc := [ping, metrics, auditList, auditCreate, auditRead, auditUpdate]

/-- The name of a method. -/
def name : Rpc → String
  | ping => "Ping"
  | metrics => "Metrics"
  | auditList => "AuditList"
  | auditCreate => "AuditCreate"
  | auditRead => "AuditRead"
  | auditUpdate => "AuditUpdate"

/-- The method with a name. -/
def ofName? (s : String) : Option Rpc := all.find? fun r => r.name = s

/-- The path that a method is called by. -/
def path (r : Rpc) : String := s!"/{service}/{r.name}"

/-- The method that a path calls. -/
def ofPath? (s : String) : Option Rpc := all.find? fun r => r.path = s

/-- What a method takes. -/
abbrev Request : Rpc → Type
  | ping => Message.Empty
  | metrics => Message.Empty
  | auditList => Message.AuditListRequest
  | auditCreate => Message.AuditCreateRequest
  | auditRead => Message.AuditReadRequest
  | auditUpdate => Message.AuditUpdateRequest

/-- What a method returns. -/
abbrev Reply : Rpc → Type
  | ping => Message.Text
  | metrics => Message.Text
  | auditList => Message.AuditListReply
  | auditCreate => Message.AuditReadReply
  | auditRead => Message.AuditReadReply
  | auditUpdate => Message.AuditReadReply

instance : (r : Rpc) → Message r.Request
  | ping => inferInstanceAs (Message Message.Empty)
  | metrics => inferInstanceAs (Message Message.Empty)
  | auditList => inferInstanceAs (Message Message.AuditListRequest)
  | auditCreate => inferInstanceAs (Message Message.AuditCreateRequest)
  | auditRead => inferInstanceAs (Message Message.AuditReadRequest)
  | auditUpdate => inferInstanceAs (Message Message.AuditUpdateRequest)

instance : (r : Rpc) → Message r.Reply
  | ping => inferInstanceAs (Message Message.Text)
  | metrics => inferInstanceAs (Message Message.Text)
  | auditList => inferInstanceAs (Message Message.AuditListReply)
  | auditCreate => inferInstanceAs (Message Message.AuditReadReply)
  | auditRead => inferInstanceAs (Message Message.AuditReadReply)
  | auditUpdate => inferInstanceAs (Message Message.AuditReadReply)

instance : (r : Rpc) → DecidableEq r.Request
  | ping => inferInstanceAs (DecidableEq Message.Empty)
  | metrics => inferInstanceAs (DecidableEq Message.Empty)
  | auditList => inferInstanceAs (DecidableEq Message.AuditListRequest)
  | auditCreate => inferInstanceAs (DecidableEq Message.AuditCreateRequest)
  | auditRead => inferInstanceAs (DecidableEq Message.AuditReadRequest)
  | auditUpdate => inferInstanceAs (DecidableEq Message.AuditUpdateRequest)

instance : (r : Rpc) → DecidableEq r.Reply
  | ping => inferInstanceAs (DecidableEq Message.Text)
  | metrics => inferInstanceAs (DecidableEq Message.Text)
  | auditList => inferInstanceAs (DecidableEq Message.AuditListReply)
  | auditCreate => inferInstanceAs (DecidableEq Message.AuditReadReply)
  | auditRead => inferInstanceAs (DecidableEq Message.AuditReadReply)
  | auditUpdate => inferInstanceAs (DecidableEq Message.AuditReadReply)

end Rpc

end RestGateway
