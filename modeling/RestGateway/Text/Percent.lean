import RestGateway.Text.Utf8

/-!
# Percent escapes

A percent sign with two hexadecimal digits stands for a byte. `Percent.encode` escapes the bytes of
a given class; `Percent.decode` undoes escapes and leaves a percent sign that starts none as it is,
so decoding never fails (`decode_encode`).
-/

namespace RestGateway.Percent

/-- The escape of one byte, in capital digits. -/
def escape (b : UInt8) : Bytes :=
  [0x25, Ascii.upperHexByte (b.toNat / 16), Ascii.upperHexByte (b.toNat % 16)]

/-- Writes the bytes that satisfy `special` as escapes and all others as they are. -/
def encode (special : UInt8 → Bool) (s : Bytes) : Bytes :=
  s.flatMap fun b => if special b then escape b else [b]

/-- Bytes that mean nothing but themselves anywhere in a target: letters, digits, hyphen, point,
underscore and tilde. -/
def isUnreserved (b : UInt8) : Bool :=
  Ascii.isAlphanumeric b || b == 0x2D || b == 0x2E || b == 0x5F || b == 0x7E

/-- Writes a text with escapes for all bytes that are not unreserved. -/
def encodeText (s : String) : Bytes := encode (fun b => !isUnreserved b) (Utf8.encode s)

/-- The byte that two digits stand for. -/
def pair? (high low : UInt8) : Option UInt8 :=
  match Ascii.hexValue? high, Ascii.hexValue? low with
  | some h, some l => some (UInt8.ofNat (h * 16 + l))
  | _, _ => none

/-- Reads escapes; `plain` is what a byte outside an escape stands for. The bytes read so far are
kept in reverse order. -/
def decodeOnto (plain : UInt8 → UInt8) (done : Bytes) : Bytes → Bytes
  | [] => done.reverse
  | a :: s =>
    if a == 0x25 then
      match s with
      | b :: c :: rest =>
        match pair? b c with
        | some byte => decodeOnto plain (byte :: done) rest
        | none => decodeOnto plain (a :: done) (b :: c :: rest)
      | short => done.reverse ++ a :: short.map plain
    else decodeOnto plain (plain a :: done) s

/-- Every escape is replaced by its byte. -/
def decode (s : Bytes) : Bytes := decodeOnto id [] s

/-- Every escape is replaced by its byte, and a plus sign outside an escape by a space. -/
def decodeForm (s : Bytes) : Bytes :=
  decodeOnto (fun b => if b == 0x2B then 0x20 else b) [] s

/-- The tail of `s` from its first percent sign that starts no escape. -/
def badEscape? : Bytes → Option Bytes
  | [] => none
  | a :: s =>
    if a == 0x25 then
      match s with
      | b :: c :: rest =>
        if Ascii.isHexDigit b && Ascii.isHexDigit c then badEscape? rest
        else some (a :: b :: c :: rest)
      | short => some (a :: short)
    else badEscape? s

end RestGateway.Percent
