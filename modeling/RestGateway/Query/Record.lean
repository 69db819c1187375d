import RestGateway.Message.Expected
import RestGateway.Message.Schema
import RestGateway.Number.Integer
import RestGateway.Query.Parser
import RestGateway.Text.Quoted

/-!
# Messages in query strings

The fields of a message are looked up in the tree of a query string. A field may come several
times; the last value of a scalar counts. Keys that are no fields have to be texts, and their values
are not looked at.
-/

namespace RestGateway.Query

/-- What stands where something else was expected. -/
inductive Found
  | string (s : String)
  | unitValue
  | sequence
  | map
deriving Repr, DecidableEq

/-- Why the values do not make a message. -/
inductive ValueFault
  | notText (fault : Utf8.Fault)
  /-- A key with an encoded bracket that is no text. -/
  | notTextKey (fault : Utf8.Fault)
  | invalidType (found : Found) (expected : Expected)
  | missingIndex (expected found : Nat)
deriving Repr, DecidableEq

/-- What was found, in words. -/
def Found.describe : Found → String
  | .string s => s!"string {Text.quoted s}"
  | .unitValue => "unit value"
  | .sequence => "sequence"
  | .map => "map"

/-- The fault in words. -/
def ValueFault.message : ValueFault → String
  | .notText fault => fault.message
  | .notTextKey fault =>
    fault.message ++ "\nInvalid field contains an encoded bracket -- consider using form encoding "
      ++ "mode\n  https://docs.rs/serde_qs/latest/serde_qs/#query-string-vs-form-encoding"
  | .invalidType found expected =>
    s!"invalid type: {found.describe}, expected {expected.describe}"
  | .missingIndex expected found => s!"missing index, expected: {expected} got {found}"

/-- What reading a value yields. -/
abbrev Reading (α : Type) := Except ValueFault α

/-- A text. -/
def text (s : Bytes) : Reading String := (Utf8.decode s).mapError .notText

/-- The values of a map by their numbers, if its keys are all numbers. -/
def Entries.items? (entries : Entries) : Option (List (Nat × Tree)) :=
  entries.mapM fun entry =>
    match entry.1 with
    | .index n => some (n, entry.2)
    | .name _ => none

/-- What a map is found to be: a sequence if its keys are all numbers. -/
def Entries.found (entries : Entries) : Found :=
  if (Entries.items? entries).isSome then .sequence else .map

/-- The text that a leaf is for a scalar field. -/
def Leaf.bytes : Leaf → Bytes
  | .text s => s
  | .blank | .bare => []

/-- The leaf that counts among several ones. -/
def lastLeaf (ls : List Leaf) : Bytes := ((ls.getLast?).map Leaf.bytes).getD []

/-- Reads a text; no value is the empty one. -/
def readText : Tree → Reading String
  | .leaf l => text l.bytes
  | .sequence ls => text (lastLeaf ls)
  | .map entries => .error (.invalidType (Entries.found entries) .text)

/-- Reads a whole number from a text. -/
def integer (s : Bytes) : Reading Int64 :=
  match text s with
  | .error f => .error f
  | .ok shown =>
    match Integer.readBytes Integer.int64 s with
    | .ok n => .ok (Int64.ofInt n)
    | .error _ => .error (.invalidType (.string shown) .integer)

/-- Reads a whole number. -/
def readInt64 : Tree → Reading Int64
  | .leaf (.text s) => integer s
  | .leaf .blank | .leaf .bare => .error (.invalidType .unitValue .integer)
  | .sequence ls => integer (lastLeaf ls)
  | .map entries => .error (.invalidType (Entries.found entries) .integer)

/-- Reads a value that may be left out: it is if there is not even an equals sign. -/
def readOptional {α : Type} (read : Tree → Reading α) : Tree → Reading (Option α)
  | .leaf .bare => .ok none
  | tree => (read tree).map some

/-- The values of items with the numbers `n`, `n + 1` and so on, which are in ascending order. -/
def counted (n : Nat) : List (Nat × Tree) → Reading (List Tree)
  | [] => .ok []
  | (i, tree) :: rest =>
    if i = n then (counted (n + 1) rest).map (tree :: ·) else .error (.missingIndex n i)

/-- Reads a list: a sequence, a map whose keys count its entries, or a single text. -/
def readList {α : Type} (read : Tree → Reading α) : Tree → Reading (List α)
  | .leaf (.text s) => (read (.leaf (.text s))).map fun value => [value]
  | .leaf .blank | .leaf .bare => .ok []
  | .sequence ls => ls.mapM fun l => read (.leaf l)
  | .map entries =>
    match Entries.items? entries with
    | none => .error (.invalidType .map .sequence)
    | some items =>
      match counted 0 (items.mergeSort fun a b => a.1 ≤ b.1) with
      | .error f => .error f
      | .ok trees => trees.mapM read

section Records

variable {κ : Type} {Value : κ → Type}

/-- The names of keys have to be texts; the first one in order that is not is reported. -/
def checkNames (names : List Bytes) : Reading Unit :=
  (names.mergeSort Bytes.le).forM fun name =>
    match Utf8.decode name with
    | .ok _ => .ok ()
    | .error f => .error (if name.contains 0x5B then .notTextKey f else .notText f)

/-- The names among the keys that are no fields. -/
def otherNames (fs : List (Field κ)) (entries : Entries) : List Bytes :=
  entries.filterMap fun entry =>
    match entry.1 with
    | .index _ => none
    | .name s => if fs.any fun f => Utf8.encode f.name == s then none else some s

variable (read : (k : κ) → Tree → Reading (Value k)) (unset : (k : κ) → Value k)

/-- Reads the fields from the entries of a map. -/
def readEntries (entries : Entries) : (fs : List (Field κ)) → Reading (Record Value fs)
  | [] => .ok ()
  | f :: fs => do
    let value ← match entries.get? (.name (Utf8.encode f.name)) with
      | some tree => read f.kind tree
      | none => .ok (unset f.kind)
    let values ← readEntries entries fs
    return (value, values)

/-- Reads the fields in order from the leaves of a sequence. -/
def readPositions : List Leaf → (fs : List (Field κ)) → Reading (Record Value fs)
  | _, [] => .ok ()
  | [], f :: fs => do return (unset f.kind, ← readPositions [] fs)
  | l :: ls, f :: fs => do
    let value ← read f.kind (.leaf l)
    let values ← readPositions ls fs
    return (value, values)

/-- Reads a record. -/
def readRecord (name : String) (fs : List (Field κ)) : Tree → Reading (Record Value fs)
  | .leaf (.text s) => do .error (.invalidType (.string (← text s)) (.record name))
  | .leaf .blank | .leaf .bare => .ok (Record.fill unset fs)
  | .sequence ls => readPositions read unset ls fs
  | .map entries => do
    let values ← readEntries read unset entries fs
    checkNames (otherNames fs entries)
    return values

end Records

/-- Reads the value of a scalar field. -/
def readScalar : (k : Scalar) → Tree → Reading k.Value
  | .text => readText
  | .optionalText => readOptional readText
  | .optionalInt => readOptional readInt64

/-- Reads a record of scalars. -/
def readFlat (t : RecordType) : Tree → Reading t.Value :=
  readRecord readScalar Scalar.unset t.name t.fields

/-- Reads the value of a field. -/
def readKind : (k : Kind) → Tree → Reading k.Value
  | .scalar k => readScalar k
  | .optional t => readOptional (readFlat t)
  | .repeated t => readList (readFlat t)

/-- Why a query string does not make a message. -/
inductive Refusal
  | syntaxFault (f : Fault)
  | valueFault (f : ValueFault)
deriving Repr, DecidableEq

/-- The refusal in words. -/
def Refusal.message (text : Bytes) : Refusal → String
  | .syntaxFault f => f.message text
  | .valueFault f => f.message

/-- Reads a query string as a record of the schema. -/
def decodeRecord (schema : Schema) (s : Bytes) : Except Refusal schema.Value :=
  match parse s with
  | .error f => .error (.syntaxFault f)
  | .ok none => .ok schema.unset
  | .ok (some tree) =>
    (readRecord readKind Kind.unset schema.name schema.fields tree).mapError .valueFault

/-- Reads a query string as a message. -/
def decode (α : Type) [Message α] (s : Bytes) : Except Refusal α :=
  (decodeRecord (Message.schema α) s).map Message.ofRecord

end RestGateway.Query
