import RestGateway.Wire.Basic

/-!
# Skipping unknown fields

The value of a field that a message does not have is passed over. Groups nest; the numbers of the
open ones are kept on a stack, which is limited.
-/

namespace RestGateway.Wire

/-- Passes over a value that is no group. -/
def skipPlain (shape : Shape) (s : Input) : Except Fault Input :=
  let advance (n : Nat) (s : Input) : Except Fault Input :=
    if s.size < n then fault .underflow else .ok (s.drop n)
  match shape with
  | .varint => (readVarint s).map Prod.snd
  | .sixtyFourBit => advance 8 s
  | .thirtyTwoBit => advance 4 s
  | .lengthDelimited => (readDelimited s).map Prod.snd
  | .startGroup | .endGroup => fault .unexpectedEndGroup

/-- Passes over the fields up to the end of the outermost open group. `depth` is how many values
may contain each other. The clock is at least as long as the input. -/
def skipGroups (depth : Nat) (tags : List Nat) (clock : Bytes) (s : Input) : Except Fault Input :=
  match tags, clock with
  | [], _ => .ok s
  | _ :: _, [] => fault .invalidVarint
  | tag :: outer, _ :: clock =>
    match readKey s with
    | .error f => .error f
    | .ok (key, s) =>
      if key.shape = .endGroup then
        if key.tag = tag then skipGroups depth outer clock s else fault .unexpectedEndGroup
      else if depth ≤ (tag :: outer).length then fault .tooDeep
      else if key.shape = .startGroup then skipGroups depth (key.tag :: tag :: outer) clock s
      else match skipPlain key.shape s with
        | .error f => .error f
        | .ok s => skipGroups depth (tag :: outer) clock s

/-- Passes over the value behind a key. -/
def skipField (depth : Nat) (key : Key) (s : Input) : Except Fault Input :=
  if depth = 0 then fault .tooDeep
  else if key.shape = .startGroup then skipGroups depth [key.tag] s.bytes s
  else skipPlain key.shape s

end RestGateway.Wire
