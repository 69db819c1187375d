/-!
# Schemas and records

A message is a list of named and numbered fields. A schema lists them, and a record holds one value
for each, in the order of the schema; readers and writers of every format are written once, for
records. A field holds a scalar, or a record of scalars that may be absent or repeated, so messages
nest one level deep.
-/

namespace RestGateway

/-- A field of a message: its name in JSON and in query strings, its name in reports about the
wire format, its number there, and what it holds. -/
structure Field (κ : Type) where
  name : String
  label : String
  tag : Nat
  kind : κ

/-- One value for each field, in the order of the fields. -/
def Record {κ : Type} (Value : κ → Type) : List (Field κ) → Type
  | [] => Unit
  | f :: fs => Value f.kind × Record Value fs

namespace Record

variable {κ : Type} {Value : κ → Type}

/-- The record whose values are given by the kinds of its fields. -/
def fill (value : (k : κ) → Value k) : (fs : List (Field κ)) → Record Value fs
  | [] => ()
  | f :: fs => (value f.kind, fill value fs)

/-- Replaces each value by one of another type. -/
def map {Value' : κ → Type} (g : (k : κ) → Value k → Value' k) :
    {fs : List (Field κ)} → Record Value fs → Record Value' fs
  | [], _ => ()
  | f :: _, (v, vs) => (g f.kind v, map g vs)

end Record

/-- What a scalar field holds. -/
inductive Scalar
  /-- A text; the empty text is the same as none. -/
  | text
  /-- A text that may be set or not; a set text may be empty. -/
  | optionalText
  /-- A whole number that may be set or not. -/
  | optionalInt
deriving Repr, DecidableEq

/-- The values of a scalar field. -/
def Scalar.Value : Scalar → Type
  | .text => String
  | .optionalText => Option String
  | .optionalInt => Option Int64

/-- The value of a scalar field that nothing set. -/
def Scalar.unset : (k : Scalar) → k.Value
  | .text => ""
  | .optionalText => none
  | .optionalInt => none

/-- A named record of scalars. -/
structure RecordType where
  name : String
  fields : List (Field Scalar)

/-- The records of a record type. -/
abbrev RecordType.Value (t : RecordType) : Type := Record Scalar.Value t.fields

/-- The record with no field set. -/
def RecordType.unset (t : RecordType) : t.Value := Record.fill Scalar.unset t.fields

/-- What a field of a message holds. -/
inductive Kind
  | scalar (k : Scalar)
  /-- A record that may be absent. -/
  | optional (t : RecordType)
  /-- Any number of records, in order. -/
  | repeated (t : RecordType)

/-- The values of a field. -/
def Kind.Value : Kind → Type
  | .scalar k => k.Value
  | .optional t => Option t.Value
  | .repeated t => List t.Value

/-- The value of a field that nothing set. -/
def Kind.unset : (k : Kind) → k.Value
  | .scalar k => k.unset
  | .optional _ => none
  | .repeated _ => []

/-- A named list of fields. -/
structure Schema where
  name : String
  fields : List (Field Kind)

/-- The records of a schema. -/
abbrev Schema.Value (s : Schema) : Type := Record Kind.Value s.fields

/-- The record with no field set. -/
def Schema.unset (s : Schema) : s.Value := Record.fill Kind.unset s.fields

/-- Fields of scalars as fields of a message. -/
def flatFields : List (Field Scalar) → List (Field Kind)
  | [] => []
  | f :: fs => ⟨f.name, f.label, f.tag, .scalar f.kind⟩ :: flatFields fs

/-- A record type on its own is a schema. -/
def RecordType.schema (t : RecordType) : Schema := ⟨t.name, flatFields t.fields⟩

/-- A record of scalars as the record of a message. -/
def Record.flat : {fs : List (Field Scalar)} →
    Record Scalar.Value fs → Record Kind.Value (flatFields fs)
  | [], _ => ()
  | _ :: _, (v, vs) => (v, Record.flat vs)

/-- The record of a message whose fields are all scalars, as a record of scalars. -/
def Record.unflat : {fs : List (Field Scalar)} →
    Record Kind.Value (flatFields fs) → Record Scalar.Value fs
  | [], _ => ()
  | _ :: _, (v, vs) => (v, Record.unflat vs)

theorem Record.unflat_flat : {fs : List (Field Scalar)} → (r : Record Scalar.Value fs) →
    Record.unflat (Record.flat r) = r
  | [], _ => rfl
  | _ :: _, (v, vs) => congrArg (Prod.mk v) (unflat_flat vs)

theorem Record.flat_unflat : {fs : List (Field Scalar)} →
    (r : Record Kind.Value (flatFields fs)) → Record.flat (Record.unflat r) = r
  | [], _ => rfl
  | _ :: _, (v, vs) => congrArg (Prod.mk v) (flat_unflat vs)

/-- A type whose values are the records of a record type. -/
class Flat (α : Type) where
  type : RecordType
  toRecord : α → type.Value
  ofRecord : type.Value → α
  ofRecord_toRecord : ∀ m, ofRecord (toRecord m) = m
  toRecord_ofRecord : ∀ r, toRecord (ofRecord r) = r

/-- A type whose values are the records of a schema. -/
class Message (α : Type) where
  schema : Schema
  toRecord : α → schema.Value
  ofRecord : schema.Value → α
  ofRecord_toRecord : ∀ m, ofRecord (toRecord m) = m
  toRecord_ofRecord : ∀ r, toRecord (ofRecord r) = r

instance (α : Type) [Flat α] : Message α where
  schema := (Flat.type α).schema
  toRecord m := Record.flat (Flat.toRecord m)
  ofRecord r := Flat.ofRecord (Record.unflat r)
  ofRecord_toRecord m := by simp [Record.unflat_flat, Flat.ofRecord_toRecord]
  toRecord_ofRecord r := by
    rw [Flat.toRecord_ofRecord]
    exact Record.flat_unflat r

/-- The message with no field set. -/
def Message.unset (α : Type) [Message α] : α := Message.ofRecord (Message.schema α).unset

end RestGateway
