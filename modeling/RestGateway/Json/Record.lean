import RestGateway.Json.Number
import RestGateway.Json.Skip
import RestGateway.Json.Text
import RestGateway.Message.Schema
import RestGateway.Pieces

/-!
# Messages in JSON

A message is an object whose members are its fields, or a list of its fields in order. Members that
are no fields are passed over, fields that are left out are unset, and no field may come twice. On
the way out, texts that are empty and fields that are not set are left out.

Loops over members and elements are bounded by a clock, a list of bytes at least as long as the
text: each round reads a byte of the text and takes one from the clock.
-/

namespace RestGateway.Json

/-- Reads the letters that are left of a word. -/
def readWord (letters : Bytes) (s : Bytes) : Except Fault Bytes :=
  match letters, s with
  | [], s => .ok s
  | _ :: _, [] => endOf .value
  | letter :: letters, b :: s =>
    if b == letter then readWord letters s else faultBefore .expectedWord s

/-- The fault of a text that does not start as expected. A scalar is read before it is reported,
and its own faults come first. -/
def mismatch (expected : Expected) (s : Bytes) : Fault :=
  let wrong (found : Found) (rest : Bytes) : Fault := ⟨.invalidType found expected, rest.length⟩
  let word (letters : Bytes) (found : Found) (t : Bytes) : Fault :=
    match readWord letters t with
    | .ok rest => wrong found rest
    | .error f => f
  match s with
  | [] => ⟨.endOf .value, 0⟩
  | b :: t =>
    if b == 0x6E then word [0x75, 0x6C, 0x6C] .null t
    else if b == 0x74 then word [0x72, 0x75, 0x65] (.boolean true) t
    else if b == 0x66 then word [0x61, 0x6C, 0x73, 0x65] (.boolean false) t
    else if startsNumber b then
      match readNumber s with
      | .ok (n, rest) => wrong (.number n) rest
      | .error f => f
    else if b == 0x22 then
      match readString t with
      | .ok (text, rest) => wrong (.string text) rest
      | .error f => f
    else if b == 0x5B then wrong .sequence s
    else if b == 0x7B then wrong .map s
    else ⟨.expectedValue, t.length⟩

/-- Reads a string. -/
def readText (s : Bytes) : Reading String :=
  match skipBlank s with
  | 0x22 :: s => readString s
  | s => .error (mismatch .text s)

/-- Reads a whole number of 64 bits. -/
def readInt64 (s : Bytes) : Reading Int64 :=
  match skipBlank s with
  | b :: s =>
    if startsNumber b then
      match readNumber (b :: s) with
      | .ok (.integer n, rest) =>
        if n < Nat.pow 2 63 then .ok (Int64.ofInt n, rest) else faultBefore (.invalidInteger n) rest
      | .ok (found, rest) => faultBefore (.invalidType (.number found) .integer) rest
      | .error f => .error f
    else .error (mismatch .integer (b :: s))
  | [] => .error (mismatch .integer [])

/-- Reads a value that may be null. -/
def readOptional {α : Type} (read : Bytes → Reading α) (s : Bytes) : Reading (Option α) :=
  match skipBlank s with
  | 0x6E :: s =>
    match readWord [0x75, 0x6C, 0x6C] s with
    | .ok rest => .ok (none, rest)
    | .error f => .error f
  | s =>
    match read s with
    | .ok (value, rest) => .ok (some value, rest)
    | .error f => .error f

/-- The next element of a list: where it starts, or nothing in front of the closing bracket. -/
def nextElement (first : Bool) (s : Bytes) : Except Fault (Option Bytes) :=
  match skipBlank s with
  | [] => endOf .list
  | b :: t =>
    if b == 0x5D then .ok none
    else if first then .ok (some (b :: t))
    else if b == 0x2C then
      match skipBlank t with
      | [] => endOf .value
      | c :: u => if c == 0x5D then faultBefore .trailingComma u else .ok (some (c :: u))
    else faultBefore .expectedCommaOrBracket t

/-- The closing bracket of a list with a fixed number of elements. -/
def endList (s : Bytes) : Except Fault Bytes :=
  match skipBlank s with
  | [] => endOf .list
  | b :: t =>
    if b == 0x5D then .ok t
    else if b == 0x2C then
      match skipBlank t with
      | [] => faultBefore .trailingCharacters []
      | c :: u => faultBefore (if c == 0x5D then .trailingComma else .trailingCharacters) u
    else faultBefore .trailingCharacters t

/-- Reads the elements of a list after those in `done`, which are kept in reverse. -/
def readElements {α : Type} (read : Bytes → Reading α) (done : List α) :
    (clock : Bytes) → Bytes → Reading (List α)
  | [], _ => endOf .list
  | _ :: clock, s =>
    match nextElement done.isEmpty s with
    | .error f => .error f
    | .ok none => .ok (done.reverse, (skipBlank s).drop 1)
    | .ok (some s) =>
      match read s with
      | .error f => .error f
      | .ok (value, s) => readElements read (value :: done) clock s

/-- Reads a list of any length. -/
def readList {α : Type} (read : Bytes → Reading α) (s : Bytes) : Reading (List α) :=
  match skipBlank s with
  | 0x5B :: s => readElements read [] s s
  | s => .error (mismatch .sequence s)

/-- What the name of the next member leads to: the bytes after its opening quote, or the bytes
after the closing brace. -/
inductive NextMember
  | name (s : Bytes)
  | close (s : Bytes)

/-- The next member of an object. -/
def nextMember (first : Bool) (s : Bytes) : Except Fault NextMember :=
  match skipBlank s with
  | [] => endOf .object
  | b :: t =>
    if b == 0x7D then .ok (.close t)
    else if first then
      if b == 0x22 then .ok (.name t) else faultBefore .keyNotString t
    else if b == 0x2C then
      match skipBlank t with
      | [] => endOf .value
      | c :: u =>
        if c == 0x22 then .ok (.name u)
        else if c == 0x7D then faultBefore .trailingComma u
        else faultBefore .keyNotString u
    else faultBefore .expectedCommaOrBrace t

/-- The colon between the name and the value of a member. -/
def readColon (s : Bytes) : Except Fault Bytes :=
  match skipBlank s with
  | [] => endOf .object
  | b :: t => if b == 0x3A then .ok t else faultBefore .expectedColon t

/-- How many bytes follow the place of a member that comes twice: the place is behind its name and
the blanks after it, and behind a brace that closes the object there. -/
def afterName (s : Bytes) : Nat :=
  match skipBlank s with
  | 0x7D :: t => t.length
  | t => t.length

section Records

variable {κ : Type} {Value : κ → Type}

/-- The values of a record that were read so far. -/
abbrev Slots (Value : κ → Type) (fs : List (Field κ)) : Type :=
  Record (fun k => Option (Value k)) fs

/-- No value was read yet. -/
def noSlots (fs : List (Field κ)) : Slots Value fs := Record.fill (fun _ => none) fs

/-- The record with every field that was not read unset. -/
def Slots.close (unset : (k : κ) → Value k) : {fs : List (Field κ)} → Slots Value fs →
    Record Value fs
  | [], _ => ()
  | f :: _, (slot, slots) => (slot.getD (unset f.kind), Slots.close unset slots)

variable (read : (k : κ) → Bytes → Reading (Value k)) (unset : (k : κ) → Value k)

/-- Reads the value of the member `name` into its slot; a member that is no field is skipped. -/
def readMember (name : String) : {fs : List (Field κ)} → Slots Value fs → Bytes →
    Reading (Slots Value fs)
  | [], _, s =>
    match readColon s with
    | .error f => .error f
    | .ok s =>
      match skipValue s with
      | .error f => .error f
      | .ok s => .ok ((), s)
  | f :: _, (slot, slots), s =>
    if name == f.name then
      match slot with
      | some _ => .error ⟨.duplicateField name, afterName s⟩
      | none =>
        match readColon s with
        | .error f => .error f
        | .ok s =>
          match read f.kind s with
          | .error f => .error f
          | .ok (value, s) => .ok ((some value, slots), s)
    else
      match readMember name slots s with
      | .error f => .error f
      | .ok (slots, s) => .ok ((slot, slots), s)

/-- Reads the members of an object into the slots. -/
def readMembers {fs : List (Field κ)} (first : Bool) (slots : Slots Value fs) :
    (clock : Bytes) → Bytes → Reading (Record Value fs)
  | [], _ => endOf .object
  | _ :: clock, s =>
    match nextMember first s with
    | .error f => .error f
    | .ok (.close s) => .ok (slots.close unset, s)
    | .ok (.name s) =>
      match readString s with
      | .error f => .error f
      | .ok (name, s) =>
        match readMember read name slots s with
        | .error f => .error f
        | .ok (slots, s) => readMembers false slots clock s

/-- Reads the fields of a record from the elements of a list, one by one. -/
def readPositions (first : Bool) : (fs : List (Field κ)) → Bytes → Reading (Record Value fs)
  | [], s =>
    match endList s with
    | .error f => .error f
    | .ok s => .ok ((), s)
  | f :: fs, s =>
    match nextElement first s with
    | .error f => .error f
    | .ok none =>
      match readPositions first fs s with
      | .error f => .error f
      | .ok (values, s) => .ok ((unset f.kind, values), s)
    | .ok (some s) =>
      match read f.kind s with
      | .error f => .error f
      | .ok (value, s) =>
        match readPositions false fs s with
        | .error f => .error f
        | .ok (values, s) => .ok ((value, values), s)

/-- Reads a record from an object or a list. -/
def readRecord (name : String) (fs : List (Field κ)) (s : Bytes) : Reading (Record Value fs) :=
  match skipBlank s with
  | 0x7B :: s => readMembers read unset true (noSlots fs) s s
  | 0x5B :: s => readPositions read unset true fs s
  | s => .error (mismatch (.record name) s)

end Records

/-- Reads the value of a scalar field. -/
def readScalar : (k : Scalar) → Bytes → Reading k.Value
  | .text => readText
  | .optionalText => readOptional readText
  | .optionalInt => readOptional readInt64

/-- Reads a record of scalars. -/
def readFlat (t : RecordType) : Bytes → Reading t.Value :=
  readRecord readScalar Scalar.unset t.name t.fields

/-- Reads the value of a field. -/
def readKind : (k : Kind) → Bytes → Reading k.Value
  | .scalar k => readScalar k
  | .optional t => readOptional (readFlat t)
  | .repeated t => readList (readFlat t)

/-- Reads a whole text as a record of the schema. -/
def decodeRecord (schema : Schema) (text : Bytes) : Except Fault schema.Value :=
  match readRecord readKind Kind.unset schema.name schema.fields text with
  | .error f => .error f
  | .ok (value, rest) =>
    match skipBlank rest with
    | [] => .ok value
    | _ :: rest => faultBefore .trailingCharacters rest

/-- Reads a whole text as a message. -/
def decode (α : Type) [Message α] (text : Bytes) : Except Fault α :=
  (decodeRecord (Message.schema α) text).map Message.ofRecord

/-- The members of a record that are written, in the order of the fields. -/
def members {κ : Type} {Value : κ → Type} (write : (k : κ) → Value k → Option Bytes) :
    {fs : List (Field κ)} → Record Value fs → List Bytes
  | [], _ => []
  | f :: _, (value, values) =>
    match write f.kind value with
    | some bytes => (writeString f.name ++ 0x3A :: bytes) :: members write values
    | none => members write values

/-- An object. -/
def writeObject (ms : List Bytes) : Bytes := 0x7B :: joined 0x2C ms ++ [0x7D]

/-- The value of a scalar field, unless it is left out. -/
def writeScalar : (k : Scalar) → k.Value → Option Bytes
  | .text, (s : String) => if s = "" then none else some (writeString s)
  | .optionalText, s => Option.map writeString s
  | .optionalInt, n => Option.map (fun n : Int64 => writeInteger n.toInt) n

/-- A record of scalars. -/
def writeFlat {t : RecordType} (r : t.Value) : Bytes := writeObject (members writeScalar r)

/-- The value of nothing. -/
def writeNull : Bytes := [0x6E, 0x75, 0x6C, 0x6C]

/-- A list. -/
def writeList (values : List Bytes) : Bytes := 0x5B :: joined 0x2C values ++ [0x5D]

/-- The value of a field, unless it is left out; a list is always written. -/
def writeKind : (k : Kind) → k.Value → Option Bytes
  | .scalar k, v => writeScalar k v
  | .optional _, r => Option.map writeFlat r
  | .repeated _, rs => some (writeList (List.map writeFlat rs))

/-- A message as an object. -/
def encode {α : Type} [Message α] (m : α) : Bytes :=
  writeObject (members writeKind (Message.toRecord m))

/-- The value of a scalar field, null if it is not set. -/
def writeFullScalar : (k : Scalar) → k.Value → Bytes
  | .text, s => writeString s
  | .optionalText, s => Option.elim s writeNull writeString
  | .optionalInt, n => Option.elim n writeNull fun n : Int64 => writeInteger n.toInt

/-- The value of a field, null if it is not set. -/
def writeFullKind : (k : Kind) → k.Value → Bytes
  | .scalar k, v => writeFullScalar k v
  | .optional _, r => Option.elim r writeNull writeFlat
  | .repeated _, rs => writeList (List.map writeFlat rs)

/-- The value of the field with a name. -/
def fieldOf? (name : String) : {fs : List (Field Kind)} → Record Kind.Value fs → Option Bytes
  | [], _ => none
  | f :: _, (value, values) =>
    if f.name = name then some (writeFullKind f.kind value) else fieldOf? name values

/-- The value of one field of a message, if the message has it. -/
def encodeField? {α : Type} [Message α] (name : String) (m : α) : Option Bytes :=
  fieldOf? name (Message.toRecord m)

end RestGateway.Json
