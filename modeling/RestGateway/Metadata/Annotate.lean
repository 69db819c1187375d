import RestGateway.Metadata.Forward
import RestGateway.Request.Basic

/-!
# Metadata of calls from request headers

A call carries the headers that the client marked as metadata, under the names behind the mark, and
a fixed set of standard headers under names with a start of their own. Where the request came from
and where it went to are added by the gateway, in the place of what the client marked.
-/

namespace RestGateway.Metadata

/-- The start of the names of standard headers. -/
def gatewayStart : String := "grpcgateway-"

/-- The standard headers that are passed on. -/
def permanentNames : List String :=
  ["accept", "accept-charset", "accept-language", "accept-ranges", "authorization",
    "cache-control", "content-type", "cookie", "date", "expect", "from", "host", "if-match",
    "if-modified-since", "if-none-match", "if-schedule-tag-match", "if-unmodified-since",
    "max-forwards", "origin", "pragma", "referer", "user-agent", "via", "warning"]

/-- The name of the host that a request was sent to. -/
def forwardedHost : String := "x-forwarded-host"

/-- The name of the hosts that a request came through. -/
def forwardedFor : String := "x-forwarded-for"

/-- The name of credentials, which are passed on under their own name too. -/
def authorization : String := "authorization"

/-- A field under a name, if it is one. -/
def under (name : String) (value : Bytes) : Headers :=
  (Header.name? name).toList.map fun name => ⟨name, value⟩

/-- The metadata that one header gives. -/
def ofHeader (h : Header) : Headers :=
  (if h.name = authorization then [h] else [])
    ++ match Header.stripStart? headerStart h.name with
      | some name => under name h.value
      | none =>
        if permanentNames.contains h.name then under (gatewayStart ++ h.name) h.value else []

/-- The host that a request was sent to: the first of the forwarded host, the host header and the
authority of the target. -/
def hostOf? (r : Request) : Option Bytes :=
  (r.headers.get? forwardedHost).or ((r.headers.get? "host").or (r.uri.authority.bind
    Header.value?))

/-- The hosts that a request came through, with the client at the end if its address is known.
Earlier hosts that are no plain text are dropped then. -/
def hopsOf? (r : Request) : Option Bytes :=
  let earlier := r.headers.get? forwardedFor
  match r.remote with
  | none => earlier
  | some address =>
    let client := Utf8.encode address.host.describe
    match earlier with
    | some hops =>
      some (if hops.all Text.isHeaderText then hops ++ Utf8.encode ", " ++ client else client)
    | none => some client

/-- A value set under a name, if there is one. -/
def setIfSome (headers : Headers) (name : String) (value : Option Bytes) : Headers :=
  match value with
  | some value => headers.set name value
  | none => headers

/-- The metadata of the call that a request leads to. -/
def annotate (r : Request) : Headers :=
  let collected := r.headers.grouped.flatMap ofHeader
  setIfSome (setIfSome collected forwardedHost (hostOf? r)) forwardedFor (hopsOf? r)

end RestGateway.Metadata
