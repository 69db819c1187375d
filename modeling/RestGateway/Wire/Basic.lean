import RestGateway.Text.Utf8

/-!
# The binary wire format

A message is written as a sequence of fields, each behind a key that joins the number of the field
with the shape of its value. This module holds the bytes left to read (`Input`), the shapes, the
faults, and whole numbers in groups of seven bits.
-/

namespace RestGateway.Wire

/-- How a value is laid out. -/
inductive Shape
  | varint
  | sixtyFourBit
  | lengthDelimited
  | startGroup
  | endGroup
  | thirtyTwoBit
deriving Repr, DecidableEq

/-- The number of a shape in a key. -/
def Shape.number : Shape → Nat
  | .varint => 0
  | .sixtyFourBit => 1
  | .lengthDelimited => 2
  | .startGroup => 3
  | .endGroup => 4
  | .thirtyTwoBit => 5

/-- The shape with a number. -/
def Shape.ofNumber? : Nat → Option Shape
  | 0 => some .varint
  | 1 => some .sixtyFourBit
  | 2 => some .lengthDelimited
  | 3 => some .startGroup
  | 4 => some .endGroup
  | 5 => some .thirtyTwoBit
  | _ => none

/-- The name of a shape in reports. -/
def Shape.name : Shape → String
  | .varint => "Varint"
  | .sixtyFourBit => "SixtyFourBit"
  | .lengthDelimited => "LengthDelimited"
  | .startGroup => "StartGroup"
  | .endGroup => "EndGroup"
  | .thirtyTwoBit => "ThirtyTwoBit"

/-- Why a message was refused. -/
inductive Cause
  | invalidVarint
  | underflow
  | lengthExceeded
  | invalidKey (n : Nat)
  | invalidShape (n : Nat)
  | invalidTag
  | wrongShape (actual expected : Shape)
  | unexpectedEndGroup
  | tooDeep
  | notText
deriving Repr, DecidableEq

/-- A cause, and the fields around it as pairs of message and field, innermost first. -/
structure Fault where
  cause : Cause
  path : List (String × String) := []
deriving Repr, DecidableEq

/-- The cause in words. -/
def Cause.describe : Cause → String
  | .invalidVarint => "invalid varint"
  | .underflow => "buffer underflow"
  | .lengthExceeded => "delimited length exceeded"
  | .invalidKey n => s!"invalid key value: {n}"
  | .invalidShape n => s!"invalid wire type value: {n}"
  | .invalidTag => "invalid tag value: 0"
  | .wrongShape actual expected =>
    s!"invalid wire type: {actual.name} (expected {expected.name})"
  | .unexpectedEndGroup => "unexpected end group tag"
  | .tooDeep => "recursion limit reached"
  | .notText => "invalid string value: data is not UTF-8 encoded"

/-- The fault in words. -/
def Fault.message (f : Fault) : String :=
  "failed to decode Protobuf message: "
    ++ String.join (f.path.map fun (message, field) => s!"{message}.{field}: ")
    ++ f.cause.describe

/-- The same fault inside one more field. -/
def Fault.inside (message field : String) (f : Fault) : Fault :=
  { f with path := f.path ++ [(message, field)] }

/-- Bytes left to read, with their number at hand. -/
structure Input where
  bytes : Bytes
  size : Nat
deriving Repr, DecidableEq

/-- All bytes are left. -/
def Input.ofBytes (s : Bytes) : Input := ⟨s, s.length⟩

/-- The input behind the next `n` bytes. -/
def Input.drop (s : Input) (n : Nat) : Input := ⟨s.bytes.drop n, s.size - n⟩

@[simp] theorem Input.drop_ofBytes_append (s t : Bytes) :
    (Input.ofBytes (s ++ t)).drop s.length = Input.ofBytes t := by
  simp [Input.ofBytes, Input.drop]

/-- What reading yields: a value and the input behind it. -/
abbrev Reading (α : Type) := Except Fault (α × Input)

/-- A fault outside all fields. -/
def fault {α : Type} (cause : Cause) : Except Fault α := .error ⟨cause, []⟩

/-- A number in groups of seven bits, the low ones first; all bytes but the last are marked. -/
def writeVarint (n : Nat) : Bytes :=
  if n < 128 then [UInt8.ofNat n] else UInt8.ofNat (n % 128 + 128) :: writeVarint (n / 128)

/-- Reads the groups after the `group` first ones, whose value is `n`. A number has at most ten
groups and fits 64 bits. -/
def readVarintFrom (n group : Nat) : Input → Reading Nat
  | ⟨[], _⟩ => fault .invalidVarint
  | ⟨b :: s, size⟩ =>
    let m := n + b.toNat % 128 * Nat.pow 128 group
    if b < 0x80 then
      if group = 9 && 0x02 ≤ b then fault .invalidVarint else .ok (m, ⟨s, size - 1⟩)
    else if group < 9 then readVarintFrom m (group + 1) ⟨s, size - 1⟩
    else fault .invalidVarint
termination_by s => s.bytes

/-- Reads a number of 64 bits. -/
def readVarint (s : Input) : Reading Nat := readVarintFrom 0 0 s

/-- The number of a field with the shape of its value. -/
structure Key where
  tag : Nat
  shape : Shape
deriving Repr, DecidableEq

/-- The bytes of a key. -/
def writeKey (key : Key) : Bytes := writeVarint (key.tag * 8 + key.shape.number)

/-- Reads a key, which has to fit 32 bits. -/
def readKey (s : Input) : Reading Key :=
  match readVarint s with
  | .error f => .error f
  | .ok (n, s) =>
    if Nat.pow 2 32 ≤ n then fault (.invalidKey n)
    else match Shape.ofNumber? (n % 8) with
      | none => fault (.invalidShape (n % 8))
      | some shape => if n / 8 = 0 then fault .invalidTag else .ok (⟨n / 8, shape⟩, s)

/-- The bytes of a length and of what it measures. -/
def writeDelimited (s : Bytes) : Bytes := writeVarint s.length ++ s

/-- Reads a length, which may not go beyond the end of the whole input. -/
def readLength (s : Input) : Reading Nat :=
  match readVarint s with
  | .error f => .error f
  | .ok (n, s) => if s.size < n then fault .underflow else .ok (n, s)

/-- Reads as many bytes as the length in front of them says. -/
def readDelimited (s : Input) : Reading Bytes :=
  match readLength s with
  | .error f => .error f
  | .ok (n, s) => .ok (s.bytes.take n, s.drop n)

end RestGateway.Wire
