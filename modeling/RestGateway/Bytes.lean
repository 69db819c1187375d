/-!
# Byte strings

Bodies, header values and encoded messages are lists of bytes. This module holds the ASCII classes
that the readers of the gateway share, and the cuts that they make at a byte and off both ends.
-/

namespace RestGateway

/-- A sequence of bytes. -/
abbrev Bytes := List UInt8

namespace Ascii

/-- The bytes of `0` to `9`. -/
def isDigit (b : UInt8) : Bool := 0x30 ≤ b && b ≤ 0x39

/-- The bytes of `A` to `Z`. -/
def isUpper (b : UInt8) : Bool := 0x41 ≤ b && b ≤ 0x5A

/-- The bytes of `a` to `z`. -/
def isLower (b : UInt8) : Bool := 0x61 ≤ b && b ≤ 0x7A

/-- The bytes of the ASCII letters and digits. -/
def isAlphanumeric (b : UInt8) : Bool := isDigit b || isUpper b || isLower b

/-- A capital letter becomes the small one; every other byte stays. -/
def toLower (b : UInt8) : UInt8 := if isUpper b then b + 0x20 else b

/-- The number that a decimal digit stands for. -/
def digitValue (b : UInt8) : Nat := (b - 0x30).toNat

/-- The number that a hexadecimal digit of either case stands for. -/
def hexValue? (b : UInt8) : Option Nat :=
  if isDigit b then some (b - 0x30).toNat
  else if 0x61 ≤ b && b ≤ 0x66 then some (b - 0x57).toNat
  else if 0x41 ≤ b && b ≤ 0x46 then some (b - 0x37).toNat
  else none

/-- A hexadecimal digit of either case. -/
def isHexDigit (b : UInt8) : Bool := (hexValue? b).isSome

/-- The digit of a number below sixteen, in small letters. -/
def lowerHexDigit (n : Nat) : Char :=
  if n < 10 then Char.ofNat (0x30 + n) else Char.ofNat (0x57 + n)

/-- The digit of a number below sixteen, in capital letters, as a byte. -/
def upperHexByte (n : Nat) : UInt8 :=
  if n < 10 then UInt8.ofNat (0x30 + n) else UInt8.ofNat (0x37 + n)

/-- Blank bytes of ASCII: space, tab, line feed, form feed and carriage return. -/
def isBlank (b : UInt8) : Bool := b == 0x20 || b == 0x09 || b == 0x0A || b == 0x0C || b == 0x0D

/-- The value of a list of decimal digits. -/
def number (ds : Bytes) : Nat := ds.foldl (fun n d => n * 10 + digitValue d) 0

end Ascii

namespace Bytes

/-- What is left between the blank bytes of both ends. -/
def trim (s : Bytes) : Bytes :=
  ((s.dropWhile Ascii.isBlank).reverse.dropWhile Ascii.isBlank).reverse

/-- The part before the first byte that satisfies `p`, and the part from there on. -/
def cut (p : UInt8 → Bool) (s : Bytes) : Bytes × Bytes := s.span (fun b => !p b)

/-- Two byte strings in the order of their first different byte, a shorter one before a longer. -/
def le : Bytes → Bytes → Bool
  | [], _ => true
  | _ :: _, [] => false
  | a :: s, b :: t => a < b || (a == b && le s t)

end Bytes

end RestGateway
