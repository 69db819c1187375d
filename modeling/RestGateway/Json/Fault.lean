import RestGateway.Message.Expected
import RestGateway.Number.Decimal
import RestGateway.Text.Quoted

/-!
# Faults of JSON texts

A reader that gives up says why and where: `Fault.left` counts the bytes after the place. Places
are counted from the end because a reader only knows what it has not read yet; the line and the
column follow from the whole text.
-/

namespace RestGateway.Json

/-- What the text ended in. -/
inductive Open
  | value
  | object
  | list
  | string
deriving Repr, DecidableEq

/-- A number: exact if it is written as an integer of 64 bits, signed or not. -/
inductive Number
  | integer (n : Int)
  | floating (x : Float)
deriving Repr

/-- What stands where something else was expected. -/
inductive Found
  | null
  | boolean (b : Bool)
  | number (n : Number)
  | string (s : String)
  | sequence
  | map
deriving Repr

/-- Why a text was refused. -/
inductive Cause
  | endOf (what : Open)
  | expectedValue
  | expectedWord
  | expectedColon
  | expectedCommaOrBrace
  | expectedCommaOrBracket
  | keyNotString
  | trailingComma
  | trailingCharacters
  | invalidNumber
  | numberOutOfRange
  | invalidEscape
  | controlCharacter
  | invalidCodePoint
  | loneSurrogate
  | unfinishedPair
  | duplicateField (name : String)
  | invalidType (found : Found) (expected : Expected)
  | invalidInteger (n : Int)
deriving Repr

/-- A cause, and how many bytes of the text follow its place. -/
structure Fault where
  cause : Cause
  left : Nat
deriving Repr

/-- What the text ended in, in words. -/
def Open.describe : Open → String
  | .value => "a value"
  | .object => "an object"
  | .list => "a list"
  | .string => "a string"

/-- What was found, in words. -/
def Found.describe : Found → String
  | .null => "null"
  | .boolean b => s!"boolean `{b}`"
  | .number (.integer n) => s!"integer `{n}`"
  | .number (.floating x) => s!"floating point `{Decimal.format .report x}`"
  | .string s => s!"string {Text.quoted s}"
  | .sequence => "sequence"
  | .map => "map"

/-- The cause in words. -/
def Cause.describe : Cause → String
  | .endOf what => s!"EOF while parsing {what.describe}"
  | .expectedValue => "expected value"
  | .expectedWord => "expected ident"
  | .expectedColon => "expected `:`"
  | .expectedCommaOrBrace => "expected `,` or `\x7d`"
  | .expectedCommaOrBracket => "expected `,` or `]`"
  | .keyNotString => "key must be a string"
  | .trailingComma => "trailing comma"
  | .trailingCharacters => "trailing characters"
  | .invalidNumber => "invalid number"
  | .numberOutOfRange => "number out of range"
  | .invalidEscape => "invalid escape"
  | .controlCharacter => "control character (\\u0000-\\u001F) found while parsing a string"
  | .invalidCodePoint => "invalid unicode code point"
  | .loneSurrogate => "lone leading surrogate in hex escape"
  | .unfinishedPair => "unexpected end of hex escape"
  | .duplicateField name => s!"duplicate field `{name}`"
  | .invalidType found expected =>
    s!"invalid type: {found.describe}, expected {expected.describe}"
  | .invalidInteger n => s!"invalid value: integer `{n}`, expected i64"

/-- Lines are counted from one; the column counts the bytes since the last line feed. -/
def place (seen : Bytes) : Nat × Nat :=
  seen.foldl
    (fun ((line, column) : Nat × Nat) (b : UInt8) =>
      if b == 0x0A then (line + 1, 0) else (line, column + 1))
    (1, 0)

/-- The fault in words, for the text in which it was found. -/
def Fault.message (f : Fault) (text : Bytes) : String :=
  let (line, column) := place (text.take (text.length - f.left))
  s!"{f.cause.describe} at line {line} column {column}"

/-- What reading yields: a value and the bytes after it. -/
abbrev Reading (α : Type) := Except Fault (α × Bytes)

/-- The fault of a text that ends too early. -/
def endOf {α : Type} (what : Open) : Except Fault α := .error ⟨.endOf what, 0⟩

/-- A fault whose place is in front of the bytes `rest`. -/
def faultBefore {α : Type} (cause : Cause) (rest : Bytes) : Except Fault α :=
  .error ⟨cause, rest.length⟩

/-- Blank bytes between the tokens of a text: space, tab, line feed and carriage return. -/
def isBlank (b : UInt8) : Bool := b == 0x20 || b == 0x09 || b == 0x0A || b == 0x0D

/-- The text without the blank bytes at its start. -/
def skipBlank (s : Bytes) : Bytes := s.dropWhile isBlank

end RestGateway.Json
