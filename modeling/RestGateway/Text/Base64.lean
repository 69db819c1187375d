import RestGateway.Bytes

/-!
# Base64

Bytes are written six bits at a time, in groups of four letters. The last group may be shorter:
signs may fill it up, and the bits that its last letter has too many have to be zero.
-/

namespace RestGateway.Base64

/-- The six bits that a letter stands for, as a number. -/
def value? (b : UInt8) : Option Nat :=
  if Ascii.isUpper b then some (b - 0x41).toNat
  else if Ascii.isLower b then some ((b - 0x61).toNat + 26)
  else if Ascii.isDigit b then some ((b - 0x30).toNat + 52)
  else if b == 0x2B then some 62
  else if b == 0x2F then some 63
  else none

/-- Letters that end a text: they stand for whole bytes. -/
def isLastGroup (letters : Bytes) : Bool :=
  match letters.map value? with
  | [some _, some b] => b % 16 = 0
  | [some _, some _, some c] => c % 4 = 0
  | [some _, some _, some _, some _] => true
  | _ => false

/-- The bytes are a text in base 64. Up to two equals signs may fill the last group. -/
def isEncoded : Bytes → Bool
  | [] => true
  | a :: b :: c :: d :: e :: s => [a, b, c, d].all (value? · |>.isSome) && isEncoded (e :: s)
  | last =>
    let letters := last.takeWhile (· != 0x3D)
    isLastGroup letters && (last.drop letters.length).all (· == 0x3D)

end RestGateway.Base64
