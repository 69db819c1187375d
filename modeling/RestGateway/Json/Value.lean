import RestGateway.Json.Record

/-!
# Values of JSON texts

Who receives a body does not know its fields, and reads it as a value: null, a truth value, a
number, a string, a list of values, or an object, whose members are values with names. Nothing is
left out: the members of an object stay in order, and a name may come twice.
-/

namespace RestGateway.Json

/-- A value. -/
inductive Value
  | null
  | boolean (b : Bool)
  | number (n : Number)
  | string (s : String)
  | list (vs : List Value)
  | object (ms : List (String × Value))
deriving Repr

/-- Reads the members of an object after those in `done`, which are kept in reverse. -/
def readNamed {α : Type} (read : Bytes → Reading α) (done : List (String × α)) :
    (clock : Bytes) → Bytes → Reading (List (String × α))
  | [], _ => endOf .object
  | _ :: clock, s =>
    match nextMember done.isEmpty s with
    | .error f => .error f
    | .ok (.close s) => .ok (done.reverse, s)
    | .ok (.name s) =>
      match readString s with
      | .error f => .error f
      | .ok (name, s) =>
        match readColon s with
        | .error f => .error f
        | .ok s =>
          match read s with
          | .error f => .error f
          | .ok (value, s) => readNamed read ((name, value) :: done) clock s

/-- Reads a value. A value inside another one has a shorter clock, so the clock is longer than the
brackets of the value are deep. -/
def readValue : (clock : Bytes) → Bytes → Reading Value
  | [], _ => endOf .value
  | _ :: clock, s =>
    match skipBlank s with
    | [] => endOf .value
    | b :: t =>
      if b == 0x6E then (readWord [0x75, 0x6C, 0x6C] t).map (.null, ·)
      else if b == 0x74 then (readWord [0x72, 0x75, 0x65] t).map (.boolean true, ·)
      else if b == 0x66 then (readWord [0x61, 0x6C, 0x73, 0x65] t).map (.boolean false, ·)
      else if startsNumber b then (readNumber (b :: t)).map (Prod.map .number id)
      else if b == 0x22 then (readString t).map (Prod.map .string id)
      else if b == 0x5B then (readElements (readValue clock) [] t t).map (Prod.map .list id)
      else if b == 0x7B then (readNamed (readValue clock) [] t t).map (Prod.map .object id)
      else faultBefore .expectedValue t

/-- Reads a whole text as a value. -/
def parse (text : Bytes) : Except Fault Value :=
  match readValue text text with
  | .error f => .error f
  | .ok (value, rest) =>
    match skipBlank rest with
    | [] => .ok value
    | _ :: rest => faultBefore .trailingCharacters rest

end RestGateway.Json
