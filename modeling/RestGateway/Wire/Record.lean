import RestGateway.Message.Schema
import RestGateway.Wire.Skip

/-!
# Messages on the wire

Fields are written in the order of their numbers. A text that is empty and a field that is not set
are left out. On the way in, the last value of a scalar counts, occurrences of an optional message
are merged, and unknown fields are passed over.

The content of a message inside a message is read from the whole input, and only afterwards is its
end compared with its length.
-/

namespace RestGateway.Wire

/-- How many values may contain each other. -/
def depthLimit : Nat := 100

/-- A value of the shape that the field wants. -/
def expectShape (expected : Shape) (key : Key) : Except Fault Unit :=
  if key.shape = expected then .ok () else fault (.wrongShape key.shape expected)

/-- Reads a text. -/
def readText (s : Input) : Reading String :=
  match readDelimited s with
  | .error f => .error f
  | .ok (bytes, s) =>
    match Utf8.decode? bytes with
    | some text => .ok (text, s)
    | none => fault .notText

/-- Reads a whole number of 64 bits in two's complement. -/
def readInt64 (s : Input) : Reading Int64 :=
  match readVarint s with
  | .error f => .error f
  | .ok (n, s) => .ok (Int64.ofInt n, s)

/-- Reads the value of a scalar field behind its key. -/
def readScalar (k : Scalar) (key : Key) (s : Input) : Reading k.Value :=
  match k with
  | .text =>
    match expectShape .lengthDelimited key with
    | .error f => .error f
    | .ok () => readText s
  | .optionalText =>
    match expectShape .lengthDelimited key with
    | .error f => .error f
    | .ok () => (readText s).map fun (text, s) => (some text, s)
  | .optionalInt =>
    match expectShape .varint key with
    | .error f => .error f
    | .ok () => (readInt64 s).map fun (n, s) => (some n, s)

section Records

variable {κ : Type} {Value : κ → Type}

/-- Merges the value behind `key` into the field that has its number; other values are skipped. -/
def mergeField (merge : (k : κ) → Value k → Key → Input → Reading (Value k)) (depth : Nat)
    (message : String) (key : Key) : {fs : List (Field κ)} → Record Value fs → Input →
    Reading (Record Value fs)
  | [], _, s => (skipField depth key s).map fun s => ((), s)
  | f :: _, (value, values), s =>
    if key.tag = f.tag then
      match merge f.kind value key s with
      | .error fault => .error (fault.inside message f.label)
      | .ok (value, s) => .ok ((value, values), s)
    else (mergeField merge depth message key values s).map fun (values, s) => ((value, values), s)

/-- Merges fields until at most `stop` bytes are left. The clock is at least as long as the
input. -/
def mergeFields (merge : (k : κ) → Value k → Key → Input → Reading (Value k)) (depth : Nat)
    (message : String) (stop : Nat) {fs : List (Field κ)} (r : Record Value fs) (clock : Bytes)
    (s : Input) : Reading (Record Value fs) :=
  match clock with
  | [] => .ok (r, s)
  | _ :: clock =>
    if s.size ≤ stop then .ok (r, s)
    else match readKey s with
      | .error f => .error f
      | .ok (key, s) =>
        match mergeField merge depth message key r s with
        | .error f => .error f
        | .ok (r, s) => mergeFields merge depth message stop r clock s

end Records

/-- Merges a record of scalars behind its key into `r`. -/
def mergeFlat (t : RecordType) (r : t.Value) (key : Key) (s : Input) : Reading t.Value :=
  match expectShape .lengthDelimited key with
  | .error f => .error f
  | .ok () =>
    match readLength s with
    | .error f => .error f
    | .ok (n, s) =>
      let stop := s.size - n
      match mergeFields (fun k _ => readScalar k) (depthLimit - 1) t.name stop r s.bytes s with
      | .error f => .error f
      | .ok (r, s) => if s.size = stop then .ok (r, s) else fault .lengthExceeded

/-- Merges the value of a field behind its key. The messages of a repeated field are collected in
reverse. -/
def mergeKind : (k : Kind) → k.Value → Key → Input → Reading k.Value
  | .scalar k, _, key, s => readScalar k key s
  | .optional t, (r : Option t.Value), key, s =>
    (mergeFlat t (r.getD t.unset) key s).map fun (r, s) => (some r, s)
  | .repeated t, (rs : List t.Value), key, s =>
    (mergeFlat t t.unset key s).map fun (r, s) => (r :: rs, s)

/-- The value of a field when all occurrences are merged. -/
def closeKind : (k : Kind) → k.Value → k.Value
  | .scalar _, v => v
  | .optional _, r => r
  | .repeated _, rs => List.reverse rs

/-- Reads all bytes as a record of the schema. -/
def decodeRecord (schema : Schema) (s : Bytes) : Except Fault schema.Value :=
  match mergeFields mergeKind depthLimit schema.name 0 schema.unset s (Input.ofBytes s) with
  | .error f => .error f
  | .ok (r, _) => .ok (r.map closeKind)

/-- Reads all bytes as a message. -/
def decode (α : Type) [Message α] (s : Bytes) : Except Fault α :=
  (decodeRecord (Message.schema α) s).map Message.ofRecord

/-- The bytes of the fields of a record, in order. -/
def writeFields {κ : Type} {Value : κ → Type} (write : (k : κ) → Nat → Value k → Bytes) :
    {fs : List (Field κ)} → Record Value fs → Bytes
  | [], _ => []
  | f :: _, (value, values) => write f.kind f.tag value ++ writeFields write values

/-- A field with a text. -/
def writeText (tag : Nat) (s : String) : Bytes :=
  writeKey ⟨tag, .lengthDelimited⟩ ++ writeDelimited (Utf8.encode s)

/-- A field with a whole number. -/
def writeInt64 (tag : Nat) (n : Int64) : Bytes :=
  writeKey ⟨tag, .varint⟩ ++ writeVarint n.toUInt64.toNat

/-- A scalar field, unless it is left out. -/
def writeScalar : (k : Scalar) → Nat → k.Value → Bytes
  | .text, tag, (s : String) => if s = "" then [] else writeText tag s
  | .optionalText, tag, s => Option.elim s [] (writeText tag)
  | .optionalInt, tag, n => Option.elim n [] (writeInt64 tag)

/-- A field with a record of scalars. -/
def writeFlat {t : RecordType} (tag : Nat) (r : t.Value) : Bytes :=
  writeKey ⟨tag, .lengthDelimited⟩ ++ writeDelimited (writeFields writeScalar r)

/-- The occurrences of a field. -/
def writeKind : (k : Kind) → Nat → k.Value → Bytes
  | .scalar k, tag, v => writeScalar k tag v
  | .optional _, tag, r => Option.elim r [] (writeFlat tag)
  | .repeated _, tag, rs => List.flatMap (writeFlat tag) rs

/-- The bytes of a message. -/
def encode {α : Type} [Message α] (m : α) : Bytes :=
  writeFields writeKind (Message.toRecord m)

end RestGateway.Wire
