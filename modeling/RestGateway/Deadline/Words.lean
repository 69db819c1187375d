import RestGateway.Deadline
import RestGateway.Number.Integer
import RestGateway.Query.Scan

/-!
# Limits in machine words

`Deadline.parse?` reads a limit from characters and counts nanoseconds without a bound.
`Deadline.measure` is the same with what a machine has: the bytes of the text, which cannot be cut
inside a character, and words of 64 and 32 bits, which a product may leave.
-/

namespace RestGateway

namespace Utf8

/-- A text cut in front of its last byte. Where no byte is, and inside a character, nothing can be
cut. -/
def splitLast? (s : Bytes) : Option (Bytes × Bytes) :=
  let position := s.length - 1
  if 1 ≤ s.length && isBoundary s position then some (s.take position, s.drop position) else none

end Utf8

namespace Deadline

/-- The unit whose letter is all that is left. -/
def Unit.ofBytes? (s : Bytes) : Option Unit := all.find? fun u => Utf8.encodeChar u.letter = s

/-- A span in two words: whole seconds, and the nanoseconds beyond them. -/
structure Span where
  seconds : UInt64
  subsecond : UInt32
deriving Repr, DecidableEq

namespace Span

/-- A product that stays in 64 bits. -/
def times? (a b : UInt64) : Option UInt64 :=
  if a.toNat * b.toNat < UInt64.size then some (a * b) else none

/-- A product that stays in 32 bits. -/
def timesShort? (a b : UInt32) : Option UInt32 :=
  if a.toNat * b.toNat < UInt32.size then some (a * b) else none

/-- An amount of units that are parts of a second. There are `perSecond` of them in a second, of
`nanos` nanoseconds each. -/
def ofParts? (amount perSecond : UInt64) (nanos : UInt32) : Option Span :=
  (timesShort? (amount % perSecond).toUInt32 nanos).map fun subsecond =>
    ⟨amount / perSecond, subsecond⟩

/-- An amount of a unit, if all products on the way stay in their words. -/
def ofAmount? (amount : UInt64) : Unit → Option Span
  | .hour => ((times? amount 60).bind (times? · 60)).map (⟨·, 0⟩)
  | .minute => (times? amount 60).map (⟨·, 0⟩)
  | .second => some ⟨amount, 0⟩
  | .millisecond => ofParts? amount 1000 1000000
  | .microsecond => ofParts? amount 1000000 1000
  | .nanosecond => ofParts? amount 1000000000 1

end Span

/-- What comes of reading a limit. -/
inductive Reading
  | span (s : Span)
  /-- The text is no limit. -/
  | refused
  /-- A product left its word, or the text was to be cut where it cannot be. -/
  | broken
deriving Repr, DecidableEq

/-- Reads the amount and the letter of a limit. -/
def measureParts (digits unit : Bytes) : Reading :=
  if digitLimit < digits.length || !digits.all Ascii.isDigit then .refused
  else match Integer.readBytes Integer.uint64 digits, Unit.ofBytes? unit with
    | .ok amount, some unit =>
      match Span.ofAmount? (UInt64.ofNat amount.toNat) unit with
      | some span => .span span
      | none => .broken
    | _, _ => .refused

/-- Reads a limit byte by byte. -/
def measure (s : String) : Reading :=
  let bytes := Utf8.encode s
  if bytes.length < 2 || !bytes.all (· < 0x80) then .refused
  else match Utf8.splitLast? bytes with
    | none => .broken
    | some (digits, unit) => measureParts digits unit

end Deadline

end RestGateway
