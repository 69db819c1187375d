import RestGateway.Grpc.Frame
import RestGateway.Service
import RestGateway.Text.Percent

/-!
# Answers of calls

An answer has headers, a body and trailers. A reply is sent as a frame between its metadata and a
trailer with the code; a failure is sent in headers alone, with its message percent-encoded. Names
that describe the call itself are taken out of all metadata.
-/

namespace RestGateway.Grpc

/-- What is sent back for a call. -/
structure Answer where
  headers : Headers
  body : Bytes := []
  trailers : Headers := []
deriving Repr, DecidableEq

/-- The name of the code of a call. -/
def statusName : String := "grpc-status"

/-- The name of the message of a call that failed. -/
def messageName : String := "grpc-message"

/-- The name of what is told about a failure beyond its message, in base 64. -/
def detailsName : String := "grpc-status-details-bin"

/-- The name of the encoding of the content of frames. -/
def encodingName : String := "grpc-encoding"

/-- Names that describe a call. -/
def ownNames : List String := ["te", "content-type", messageName, "grpc-message-type", statusName]

/-- Metadata without the names that describe a call. -/
def sanitized (metadata : Headers) : Headers :=
  metadata.filter fun h => !ownNames.contains h.name

/-- Bytes of a message that are written as escapes: all that is no visible ASCII, and some marks. -/
def isEscaped (b : UInt8) : Bool :=
  b ≤ 0x20 || 0x7F ≤ b || [0x22, 0x23, 0x25, 0x3C, 0x3E, 0x3F, 0x60, 0x7B, 0x7D].contains b

/-- The text of a code. -/
def codeText (c : Code) : Bytes := Utf8.encode (toString c.number)

/-- The code with a text; another text is unknown. -/
def codeOf (text : Bytes) : Code := (Code.all.find? fun c => codeText c = text).getD .unknown

/-- The type of the content of all answers. -/
def contentType : Header := ⟨"content-type", Utf8.encode "application/grpc"⟩

namespace Answer

/-- The answer of a call that failed. -/
def ofStatus (s : Status) : Answer where
  headers := contentType :: sanitized s.metadata ++ ⟨statusName, codeText s.code⟩ ::
    if s.message.isEmpty then []
    else [⟨messageName, Percent.encode isEscaped (Utf8.encode s.message)⟩]

/-- The answer of a call that returned. Trailers of the service are not sent. -/
def ofReply {rpc : Rpc} (reply : Reply rpc) : Answer where
  headers := contentType :: sanitized reply.metadata.headers
  body := frame (Wire.encode reply.message)
  trailers := [⟨statusName, codeText .ok⟩]

/-- The answer of a call. -/
def ofResult {rpc : Rpc} : Except Status (Reply rpc) → Answer
  | .error status => ofStatus status
  | .ok reply => ofReply reply

end Answer

/-- The text of an encoding; what is no text is shown as a list of numbers. -/
def shownEncoding (value : Bytes) : String :=
  match Utf8.decode? value with
  | some text => text
  | none => "[" ++ ", ".intercalate (value.map fun b => toString b.toNat) ++ "]"

/-- The status that a call fails with because its content is encoded. -/
def encodingStatus? (headers : Headers) : Option Status :=
  match headers.get? encodingName with
  | none => none
  | some value =>
    if value = Utf8.encode "identity" then none
    else some ⟨.unimplemented,
      s!"Content is compressed with `{shownEncoding value}` which isn't supported",
      [⟨"grpc-accept-encoding", Utf8.encode "identity"⟩]⟩

end RestGateway.Grpc
