import RestGateway.Failure
import RestGateway.Request.Body
import RestGateway.Wire.Record

/-!
# Frames

A message is sent in a frame: a flag that tells whether it is compressed, its length in four bytes,
the highest first, and its content. A body is a sequence of frames.
-/

namespace RestGateway.Grpc

/-- No message is longer, in bytes. -/
def sizeLimit : Nat := 4194304

/-- A number in four bytes. -/
def lengthBytes (n : Nat) : Bytes :=
  [UInt8.ofNat (n / Nat.pow 2 24), UInt8.ofNat (n / Nat.pow 2 16), UInt8.ofNat (n / Nat.pow 2 8),
    UInt8.ofNat n]

/-- The number in four bytes. -/
def lengthOf (a b c d : UInt8) : Nat :=
  ((a.toNat * 256 + b.toNat) * 256 + c.toNat) * 256 + d.toNat

/-- The frame of a content that is not compressed. -/
def frame (content : Bytes) : Bytes := 0 :: (lengthBytes content.length ++ content)

/-- Why no message can be read. -/
inductive FrameFault
  | compressed
  | invalidFlag (flag : UInt8)
  | tooLong (length : Nat)
  | content (fault : Wire.Fault)
  | unfinished
  /-- The stream of the body broke off. -/
  | stream (fault : String)
deriving Repr, DecidableEq

/-- The fault in words. -/
def FrameFault.message : FrameFault → String
  | .compressed =>
    "protocol error: received message with compressed-flag but no grpc-encoding was specified"
  | .invalidFlag flag =>
    s!"protocol error: received message with invalid compression flag: {flag.toNat}"
      ++ " (valid flags are 0 and 1), while sending request"
  | .tooLong length =>
    s!"Error, decoded message length too large: found {length} bytes,"
      ++ s!" the limit is: {sizeLimit} bytes"
  | .content fault => fault.message
  | .unfinished => "Unexpected EOF decoding stream."
  | .stream fault => fault

/-- The code of calls that fail with the fault. -/
def FrameFault.code : FrameFault → Code
  | .tooLong _ => .outOfRange
  | .stream _ => .unknown
  | .compressed | .invalidFlag _ | .content _ | .unfinished => .internal

/-- The status of calls that fail with the fault. -/
def FrameFault.status (f : FrameFault) : Status := ⟨f.code, f.message, []⟩

/-- The messages of the frames in `s`, behind those in `done`, which are kept in reverse; and
whether bytes are left that do not make a frame. A length without any content does not count. -/
def readFrames (α : Type) [Message α] (done : List α) (s : Bytes) :
    Except FrameFault (List α × Bool) :=
  match s with
  | flag :: a :: b :: c :: d :: rest =>
    let length := lengthOf a b c d
    if flag = 1 then .error .compressed
    else if flag ≠ 0 then .error (.invalidFlag flag)
    else if sizeLimit < length then .error (.tooLong length)
    else if rest.length < length then .ok (done.reverse, !rest.isEmpty)
    else match Wire.decode α (rest.take length) with
      | .error fault => .error (.content fault)
      | .ok m => readFrames α (m :: done) (rest.drop length)
  | short => .ok (done.reverse, !short.isEmpty)
termination_by s.length
decreasing_by simp only [List.length_cons, List.length_drop]; omega

/-- The messages of a body. -/
def readMessages (α : Type) [Message α] (body : Body) : Except FrameFault (List α) :=
  match readFrames α [] body.chunks.flatten with
  | .error fault => .error fault
  | .ok (messages, unfinished) =>
    match body.fault with
    | some fault => .error (.stream fault)
    | none => if unfinished then .error .unfinished else .ok messages

end RestGateway.Grpc
