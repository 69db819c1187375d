import RestGateway.Json.Record
import RestGateway.Route.Fields
import RestGateway.Route.Table

/-!
# The HTTP bindings of the service

Each method of the service has one route.
-/

namespace RestGateway.Bindings

/-- `GET /ping` answers with the text. -/
def ping : Route .ping where
  method := .get
  template := "/ping"
  answer := .named .ping "text"

/-- `GET /metrics` answers with the text. -/
def metrics : Route .metrics where
  method := .get
  template := "/metrics"
  answer := .named .metrics "text"

/-- `GET /v1/audit` reads the query. -/
def auditList : Route .auditList where
  method := .get
  template := "/v1/audit"
  source := .query

/-- `POST /v1/audit` reads the body. -/
def auditCreate : Route .auditCreate where
  method := .post
  template := "/v1/audit"
  source := .body

/-- `GET /v1/audit/{id}` reads the path. -/
def auditRead : Route .auditRead where
  method := .get
  template := "/v1/audit/\x7bid\x7d"
  pathFields := [.named .auditRead "id"]

/-- `PATCH /v1/audit/{id}` reads the body and the path. -/
def auditUpdate : Route .auditUpdate where
  method := .patch
  template := "/v1/audit/\x7bid\x7d"
  source := .body
  pathFields := [.named .auditUpdate "id"]

/-- The routes of the service. -/
def all : List ((rpc : Rpc) × Route rpc) :=
  [⟨_, ping⟩, ⟨_, metrics⟩, ⟨_, auditList⟩, ⟨_, auditCreate⟩, ⟨_, auditRead⟩, ⟨_, auditUpdate⟩]

end RestGateway.Bindings
