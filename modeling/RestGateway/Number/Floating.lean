import RestGateway.Number.Decimal
import RestGateway.Number.Digits

/-!
# Floating-point numbers in text

A number is written with digits that may have a point among them or at either end, and a power of
ten may follow. Infinity and the value that is no number are written by name. The number read is the
one nearest to what is written.
-/

namespace RestGateway.Floating

/-- Positive infinity. -/
def infinity : Float := 1.0 / 0.0

/-- The value that is no number. -/
def notANumber : Float := 0.0 / 0.0

/-- The number nearest to `significand * 10 ^ power`. Powers that put it out of all bounds are
settled without computing them. -/
def nearest (significand : Nat) (power : Int) : Float :=
  if significand = 0 then 0
  else
    let magnitude := power + (Nat.toDigits 10 significand).length
    if 400 < magnitude then infinity
    else if magnitude < -400 then 0
    else Float.ofScientific significand (power < 0) power.natAbs

/-- Reads the power of ten behind its letter. -/
def readPower (s : List Char) : Option Int :=
  let (negative, digits) := match s with
    | '+' :: s => (false, s)
    | '-' :: s => (true, s)
    | s => (false, s)
  if digits.isEmpty || !digits.all Char.isDigit then none
  else some (if negative then -Digits.value digits else Digits.value digits)

/-- Reads a number without a sign. -/
def readUnsigned (s : List Char) : Option Float := do
  let whole := s.takeWhile Char.isDigit
  let rest := s.dropWhile Char.isDigit
  let (fraction, rest) := match rest with
    | '.' :: rest => (rest.takeWhile Char.isDigit, rest.dropWhile Char.isDigit)
    | rest => ([], rest)
  if whole.isEmpty && fraction.isEmpty then none
  let power ← match rest with
    | [] => some 0
    | c :: rest => if c.toLower = 'e' then readPower rest else none
  return nearest (Digits.value (whole ++ fraction)) (power - fraction.length)

/-- Reads a number; names are read in any case. -/
def read? (s : List Char) : Option Float :=
  let (negative, s) := match s with
    | '+' :: s => (false, s)
    | '-' :: s => (true, s)
    | s => (false, s)
  let name := String.ofList (s.map Char.toLower)
  let value :=
    if name = "inf" || name = "infinity" then some infinity
    else if name = "nan" then some notANumber
    else readUnsigned s
  value.map fun x => if negative then -x else x

/-- The whole number nearest to `x`, a half going up. What is below zero or no number becomes zero,
and no number gets larger than `greatest`. -/
def toNat (greatest : Nat) (x : Float) : Nat :=
  let bits := x.toBits.toNat
  if bits / Nat.pow 2 63 = 1 then 0
  else if bits / Nat.pow 2 52 % Nat.pow 2 11 = 2047 then
    if bits % Nat.pow 2 52 = 0 then greatest else 0
  else
    let b := Decimal.Binary.ofBits bits
    let places := (-b.exponent).toNat
    let whole :=
      (2 * b.mantissa * Nat.pow 2 b.exponent.toNat + Nat.pow 2 places) / Nat.pow 2 (places + 1)
    Nat.min whole greatest

end RestGateway.Floating
