import RestGateway.Text.Utf8

/-!
# Integers in text

A whole number is written with digits, after a sign if the type admits one. Digits are read from
the left and the first fault decides: a byte that is no digit, or a number that has left the range
of the type.
-/

namespace RestGateway.Integer

/-- The range of an integer type. -/
structure Range where
  least : Int
  greatest : Int
deriving Repr, DecidableEq

/-- Signed numbers of 64 bits. -/
def int64 : Range := ⟨-Int.pow 2 63, Int.pow 2 63 - 1⟩

/-- Unsigned numbers of 64 bits. -/
def uint64 : Range := ⟨0, Int.pow 2 64 - 1⟩

/-- Signed numbers of 8 bits. -/
def int8 : Range := ⟨-Int.pow 2 7, Int.pow 2 7 - 1⟩

/-- What keeps a text from being a number of the range. -/
inductive Fault
  | empty
  | invalidDigit
  | tooLarge
  | tooSmall
deriving Repr, DecidableEq

/-- The fault in words. -/
def Fault.message : Fault → String
  | .empty => "cannot parse integer from empty string"
  | .invalidDigit => "invalid digit found in string"
  | .tooLarge => "number too large to fit in target type"
  | .tooSmall => "number too small to fit in target type"

/-- Reads digits after the number `n`; with `negative` each digit takes the number further down. -/
def readDigits (range : Range) (negative : Bool) (n : Int) : Bytes → Except Fault Int
  | [] => .ok n
  | b :: s =>
    if !Ascii.isDigit b then .error .invalidDigit
    else if negative then
      let n := n * 10 - Ascii.digitValue b
      if n < range.least then .error .tooSmall else readDigits range negative n s
    else
      let n := n * 10 + Ascii.digitValue b
      if range.greatest < n then .error .tooLarge else readDigits range negative n s

/-- Reads a number of the range from bytes. One plus sign may stand in front, and a minus sign where
the range goes below zero; a sign alone is no number. -/
def readBytes (range : Range) : Bytes → Except Fault Int
  | [] => .error .empty
  | b :: s =>
    if (b == 0x2B || b == 0x2D) && s.isEmpty then .error .invalidDigit
    else if b == 0x2B then readDigits range false 0 s
    else if b == 0x2D && range.least < 0 then readDigits range true 0 s
    else readDigits range false 0 (b :: s)

/-- Reads a number of the range from a text. -/
def read (range : Range) (s : String) : Except Fault Int := readBytes range (Utf8.encode s)

end RestGateway.Integer
