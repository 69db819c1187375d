import RestGateway.Json.Fault
import RestGateway.Text.Utf8

/-!
# Numbers of JSON texts

A number without fraction and power of ten that fits 64 bits is exact. Every other number is the
floating-point number `significand * 10 ^ power`, where the significand is the longest start of the
digits that fits 64 bits; both it and the product are rounded.
-/

namespace RestGateway.Json

/-- Adds digits to the end of `n` as long as the number fits 64 bits; returns the number, how many
digits were added, and the digits that were not. -/
def absorb (n added : Nat) : Bytes → Nat × Nat × Bytes
  | [] => (n, added, [])
  | d :: ds =>
    let m := n * 10 + Ascii.digitValue d
    if m < Nat.pow 2 64 then absorb m (added + 1) ds else (n, added, d :: ds)

/-- The power `10 ^ n` as a floating-point number. -/
def powerOfTen (n : Nat) : Float := Float.ofScientific 1 false n

/-- `significand * 10 ^ power`, unless that is above all floating-point numbers. -/
def scaled? (significand : Nat) (power : Int) : Option Float :=
  let x := Float.ofNat significand
  if 0 ≤ power then
    if power ≤ 308 then
      let y := x * powerOfTen power.toNat
      if y.isInf then none else some y
    else if significand = 0 then some x
    else none
  else if -308 ≤ power then some (x / powerOfTen (-power).toNat)
  else if -616 ≤ power then some (x / powerOfTen 308 / powerOfTen (-power - 308).toNat)
  else some 0

/-- The number with its sign. -/
def floating (negative : Bool) (x : Float) : Number := .floating (if negative then -x else x)

/-- The number of a significand and a power, read up to `rest`. -/
def finish (negative : Bool) (significand : Nat) (power : Int) (rest : Bytes) : Reading Number :=
  match scaled? significand power with
  | some x => .ok (floating negative x, rest)
  | none => faultBefore .numberOutOfRange rest

/-- Reads the digits of a power after its first ones, `n`. A power above 31 bits is too large
unless it makes the number zero. -/
def readPower (negative : Bool) (significand : Nat) (scale : Int) (down : Bool) (n : Nat) :
    Bytes → Reading Number
  | [] => finish negative significand (if down then scale - n else scale + n) []
  | d :: s =>
    if Ascii.isDigit d then
      let m := n * 10 + Ascii.digitValue d
      if m < Nat.pow 2 31 then readPower negative significand scale down m s
      else if significand ≠ 0 && !down then faultBefore .numberOutOfRange s
      else .ok (floating negative 0, s.dropWhile Ascii.isDigit)
    else finish negative significand (if down then scale - n else scale + n) (d :: s)

/-- Reads what follows the letter of a power of ten. -/
def readExponent (negative : Bool) (significand : Nat) (scale : Int) (s : Bytes) :
    Reading Number :=
  let (down, s) := match s with
    | 0x2B :: s => (false, s)
    | 0x2D :: s => (true, s)
    | s => (false, s)
  match s with
  | [] => endOf .value
  | d :: s =>
    if Ascii.isDigit d then readPower negative significand scale down (Ascii.digitValue d) s
    else faultBefore .invalidNumber s

/-- Letters that introduce a power of ten. -/
def isExponentLetter (b : UInt8) : Bool := b == 0x65 || b == 0x45

/-- Reads what follows the point. -/
def readFraction (negative : Bool) (significand : Nat) (scale : Int) (s : Bytes) :
    Reading Number :=
  let (digits, rest) := s.span Ascii.isDigit
  let (significand, added, _) := absorb significand 0 digits
  match digits, rest with
  | [], [] => endOf .value
  | [], _ :: rest => faultBefore .invalidNumber rest
  | _, [] => finish negative significand (scale - added) []
  | _, b :: rest =>
    if isExponentLetter b then readExponent negative significand (scale - added) rest
    else finish negative significand (scale - added) (b :: rest)

/-- Reads what follows the whole part, whose digits are `digits`. -/
def readTail (negative : Bool) (digits rest : Bytes) : Reading Number :=
  let (significand, _, surplus) := absorb 0 0 digits
  match rest with
  | 0x2E :: rest => readFraction negative significand surplus.length rest
  | 0x65 :: rest | 0x45 :: rest => readExponent negative significand surplus.length rest
  | rest =>
    if !surplus.isEmpty then finish negative significand surplus.length rest
    else if !negative then .ok (.integer significand, rest)
    else if significand = 0 || Nat.pow 2 63 < significand then
      .ok (floating true (Float.ofNat significand), rest)
    else .ok (.integer (-significand), rest)

/-- Reads a number after its sign, if it had one: the whole part is a zero or does not start with
one. -/
def readUnsigned (negative : Bool) (s : Bytes) : Reading Number :=
  match s with
  | [] => endOf .value
  | d :: t =>
    if d == 0x30 then
      match t with
      | e :: u => if Ascii.isDigit e then faultBefore .invalidNumber u
        else readTail negative [d] (e :: u)
      | [] => readTail negative [d] []
    else if Ascii.isDigit d then
      let (digits, rest) := s.span Ascii.isDigit
      readTail negative digits rest
    else faultBefore .invalidNumber t

/-- Reads a number that starts with a digit or the minus sign. -/
def readNumber (s : Bytes) : Reading Number :=
  match s with
  | 0x2D :: s => readUnsigned true s
  | s => readUnsigned false s

/-- Bytes that a number starts with. -/
def startsNumber (b : UInt8) : Bool := b == 0x2D || Ascii.isDigit b

/-- An integer in digits. -/
def writeInteger (n : Int) : Bytes := Utf8.encode (toString n)

end RestGateway.Json
