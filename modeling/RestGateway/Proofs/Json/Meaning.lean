import Mathlib.Algebra.Group.Int.Defs
import RestGateway.Message.Schema
import RestGateway.Proofs.Json.Grammar

/-!
# What trees mean as messages

A record is an object whose members are looked up by name, or a list whose elements stand for the
fields by position. A member that no field has counts for nothing, and nobody looks at its value. A
field without a member is unset, and no field may have two members.
-/

namespace RestGateway.Json

/-- The whole number that a numeral spells. There is no zero with a minus sign. -/
def Numeral.whole? (n : Numeral) : Option Int :=
  if n.fraction.isEmpty && n.power.isEmpty then
    if !n.negative then some (Ascii.number n.whole)
    else if Ascii.number n.whole ≠ 0 then some (-Ascii.number n.whole) else none
  else none

/-- The whole number of 64 bits that a numeral spells. -/
def Numeral.integer? (n : Numeral) : Option Int64 :=
  (n.whole?.filter fun i => -2 ^ 63 ≤ i && i < 2 ^ 63).map Int64.ofInt

namespace Tree

/-- The text of a string. -/
def text? : Tree → Option String
  | .string text => text
  | _ => none

/-- The whole number of 64 bits. -/
def integer? : Tree → Option Int64
  | .number n => n.integer?
  | _ => none

/-- A value that may be null. -/
def nullable? {α : Type} (value? : Tree → Option α) : Tree → Option (Option α)
  | .null => some none
  | v => (value? v).map some

/-- A list of any length. -/
def list? {α : Type} (value? : Tree → Option α) : Tree → Option (List α)
  | .list vs => vs.mapM value?
  | _ => none

/-- The values of the members with a name. -/
def valuesOf (name : String) (ms : List Member) : List Tree :=
  (ms.filter fun m => m.1 == some name).map Prod.snd

theorem valuesOf_cons_self (name : String) (v : Tree) (ms : List Member) :
    valuesOf name ((some name, v) :: ms) = v :: valuesOf name ms := by
  simp [valuesOf]

theorem valuesOf_cons_of_ne {name : String} {name' : Option String} (h : name' ≠ some name)
    (v : Tree) (ms : List Member) : valuesOf name ((name', v) :: ms) = valuesOf name ms := by
  simp [valuesOf, h]

section Records

variable {κ : Type} {Value : κ → Type} (value? : (k : κ) → Tree → Option (Value k))
  (unset : (k : κ) → Value k)

/-- The value of a field, of which there may be one member. -/
def field? (k : κ) : List Tree → Option (Value k)
  | [] => some (unset k)
  | [v] => value? k v
  | _ => none

/-- The fields of an object. -/
def fields? (ms : List Member) : (fs : List (Field κ)) → Option (Record Value fs)
  | [] => some ()
  | f :: fs => do
    let value ← field? value? unset f.kind (valuesOf f.name ms)
    let values ← fields? ms fs
    return (value, values)

/-- The fields of a list, from the first elements on. -/
def positions? : (fs : List (Field κ)) → List Tree → Option (Record Value fs)
  | [], [] => some ()
  | [], _ :: _ => none
  | f :: fs, [] => do
    let values ← positions? fs []
    return (unset f.kind, values)
  | f :: fs, v :: vs => do
    let value ← value? f.kind v
    let values ← positions? fs vs
    return (value, values)

/-- A record. All members of an object must have a name that is a text. -/
def record? (fs : List (Field κ)) : Tree → Option (Record Value fs)
  | .object ms => if ms.all fun m => m.1.isSome then fields? value? unset ms fs else none
  | .list vs => positions? value? unset fs vs
  | _ => none

end Records

/-- The value of a scalar field. -/
def scalar? : (k : Scalar) → Tree → Option k.Value
  | .text => text?
  | .optionalText => nullable? text?
  | .optionalInt => nullable? integer?

/-- A record of scalars. -/
def flat? (t : RecordType) : Tree → Option t.Value := record? scalar? Scalar.unset t.fields

/-- The value of a field. -/
def kind? : (k : Kind) → Tree → Option k.Value
  | .scalar k => scalar? k
  | .optional t => nullable? (flat? t)
  | .repeated t => list? (flat? t)

/-- A record of a schema. -/
def message? (schema : Schema) : Tree → Option schema.Value :=
  record? kind? Kind.unset schema.fields

end Tree

end RestGateway.Json
