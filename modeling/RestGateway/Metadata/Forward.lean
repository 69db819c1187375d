import RestGateway.Header

/-!
# Metadata of replies as response headers

A service returns metadata with a reply or a failure. What is not owned by the transports is put on
the HTTP response, each name behind a start that keeps it apart from all other headers.
-/

namespace RestGateway.Metadata

/-- The start of headers that carry metadata, of requests and of responses. -/
def headerStart : String := "grpc-metadata-"

/-- The start of response headers that carry the trailers of a reply. -/
def trailerStart : String := "grpc-trailer-"

/-- Names of metadata that belong to a transport. -/
def transportNames : List String :=
  ["content-type", "content-length", "date", "te", "trailer", "transfer-encoding", "user-agent"]

/-- Metadata that is put on responses: names of binary values and of a transport are not. -/
def isForwardable (name : String) : Bool :=
  !(Header.endsWith "-bin" name || Header.startsWith "grpc-" name
    || transportNames.contains name)

/-- The fields that carry the metadata, with `start` in front of each name. -/
def forwarded (start : String) (metadata : Headers) : Headers :=
  metadata.filterMap fun h =>
    if isForwardable h.name then
      (Header.name? (start ++ h.name)).map fun name => ⟨name, h.value⟩
    else none

/-- Adds the fields that carry the metadata to those in `onto`. -/
def forward (onto : Headers) (metadata : Headers) (start : String) : Headers :=
  onto ++ forwarded start metadata

/-- The metadata of a reply. -/
structure OfReply where
  headers : Headers := []
  trailers : Headers := []
deriving Repr, DecidableEq

/-- Adds the fields that carry the metadata of a reply to those in `onto`. -/
def forwardReply (onto : Headers) (metadata : OfReply) : Headers :=
  forward (forward onto metadata.headers headerStart) metadata.trailers trailerStart

end RestGateway.Metadata
