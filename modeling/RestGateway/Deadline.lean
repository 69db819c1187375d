import RestGateway.Failure
import RestGateway.Number.Digits

/-!
# Deadlines

A client may limit a call with a header, the gateway may limit every call, and the shorter limit
counts. The limit travels on with the call, in the finest unit in which its amount has no more than
eight digits.
-/

namespace RestGateway

/-- A span of time in nanoseconds. -/
structure Duration where
  nanos : Nat
deriving Repr, DecidableEq

namespace Duration

/-- Whole seconds of a span. -/
def seconds (d : Duration) : Nat := d.nanos / 1000000000

/-- What is left of a span beyond whole seconds. -/
def subsecond (d : Duration) : Nat := d.nanos % 1000000000

/-- A span of milliseconds. -/
def ofMillis (n : Nat) : Duration := ⟨n * 1000000⟩

/-- The shorter of two spans. -/
def min (d e : Duration) : Duration := ⟨Nat.min d.nanos e.nanos⟩

end Duration

namespace Deadline

/-- A unit of time limits. -/
inductive Unit
  | nanosecond
  | microsecond
  | millisecond
  | second
  | minute
  | hour
deriving Repr, DecidableEq

namespace Unit

/-- The nanoseconds in a unit. -/
def nanos : Unit → Nat
  | nanosecond => 1
  | microsecond => 1000
  | millisecond => 1000000
  | second => 1000000000
  | minute => 60 * 1000000000
  | hour => 3600 * 1000000000

/-- The letter of a unit. -/
def letter : Unit → Char
  | nanosecond => 'n'
  | microsecond => 'u'
  | millisecond => 'm'
  | second => 'S'
  | minute => 'M'
  | hour => 'H'

/-- The units, the finest first. -/
def all : List Unit := [nanosecond, microsecond, millisecond, second, minute, hour]

/-- The unit with a letter. -/
def ofLetter? (c : Char) : Option Unit := all.find? fun u => u.letter = c

end Unit

/-- The name of the header and of the metadata that hold a limit. -/
def name : String := "grpc-timeout"

/-- No amount has more digits. -/
def digitLimit : Nat := 8

/-- Reads a limit: one to eight digits and the letter of a unit. -/
def parse? (s : String) : Option Duration :=
  let digits := s.toList.dropLast
  if !digits.isEmpty && digits.length ≤ digitLimit && digits.all Char.isDigit then do
    let unit ← Unit.ofLetter? (← s.toList.getLast?)
    return ⟨Digits.value digits * unit.nanos⟩
  else none

/-- Writes a limit in a unit, rounded down, if the amount is not too long. -/
def writeIn? (d : Duration) (unit : Unit) : Option String :=
  let amount := d.nanos / unit.nanos
  if amount < Nat.pow 10 digitLimit then some (toString amount ++ unit.letter.toString) else none

/-- Writes a limit in the finest unit that is not too long. A limit of a hundred million hours or
more cannot be written. -/
def write? (d : Duration) : Option String := Unit.all.findSome? (writeIn? d)

/-- The limit that a client set, if it did. -/
def ofHeaders (headers : Headers) : Except Failure (Option Duration) :=
  match headers.get? name with
  | none => .ok none
  | some value =>
    match (Utf8.decode? value).bind parse? with
    | some d => .ok (some d)
    | none => .error (.invalidArgument s!"invalid grpc-timeout: {Text.quotedHeader value}")

/-- The limit that counts: the shorter one of the server's and the client's. -/
def effective (server client : Option Duration) : Option Duration :=
  match server, client with
  | some server, some client => some (server.min client)
  | server, none => server
  | none, client => client

end Deadline

end RestGateway
