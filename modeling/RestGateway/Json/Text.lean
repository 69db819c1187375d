import RestGateway.Json.Fault
import RestGateway.Text.Utf8

/-!
# Strings of JSON texts

`readString` reads what follows the opening quote and `writeString` writes a whole string. The
characters that escapes stand for are put among the plain bytes, and at the closing quote the bytes
have to be UTF-8 as a whole.
-/

namespace RestGateway.Json

/-- The character that stands after a backslash for another one. -/
def shortEscape? (b : UInt8) : Option Char :=
  if b == 0x22 then some '"'
  else if b == 0x5C then some '\\'
  else if b == 0x2F then some '/'
  else if b == 0x62 then some '\x08'
  else if b == 0x66 then some '\x0c'
  else if b == 0x6E then some '\n'
  else if b == 0x72 then some '\r'
  else if b == 0x74 then some '\t'
  else none

/-- The number that four hexadecimal digits stand for. -/
def hexNumber? (a b c d : UInt8) : Option Nat := do
  return (((← Ascii.hexValue? a) * 16 + (← Ascii.hexValue? b)) * 16 + (← Ascii.hexValue? c)) * 16
    + (← Ascii.hexValue? d)

/-- The first half of a surrogate pair. -/
def isHighSurrogate (n : Nat) : Bool := 0xD800 ≤ n && n ≤ 0xDBFF

/-- The second half of a surrogate pair. -/
def isLowSurrogate (n : Nat) : Bool := 0xDC00 ≤ n && n ≤ 0xDFFF

/-- The character that a surrogate pair stands for. -/
def joinSurrogates (high low : Nat) : Char :=
  Char.ofNat (0x10000 + (high - 0xD800) * 0x400 + (low - 0xDC00))

/-- The text of the bytes that a string stands for, which are given in reverse; `rest` is what
follows its closing quote. The place of a fault is as many bytes in front of `rest` as the string
stands for from the first wrong one on. -/
def closeString (done rest : Bytes) : Reading String :=
  match Utf8.decode done.reverse with
  | .ok text => .ok (text, rest)
  | .error f => .error ⟨.invalidCodePoint, rest.length + (done.length - f.offset)⟩

/-- The bytes of a character behind those that are `done`; both are in reverse. -/
def putChar (done : Bytes) (c : Char) : Bytes := (Utf8.encodeChar c).reverse ++ done

/-- Reads on after the bytes `done`, which are kept in reverse. -/
def readStringOnto (done : Bytes) : Bytes → Reading String
  | [] => endOf .string
  | b :: s =>
    if b == 0x22 then closeString done s
    else if b == 0x5C then
      match s with
      | [] => endOf .string
      | letter :: s =>
        if letter == 0x75 then
          match s with
          | a :: b :: c :: d :: s =>
            match hexNumber? a b c d with
            | none => faultBefore .invalidEscape s
            | some n =>
              if isLowSurrogate n then faultBefore .loneSurrogate s
              else if isHighSurrogate n then
                match s with
                | [] => endOf .string
                | [x] =>
                  if x == 0x5C then endOf .string else faultBefore .unfinishedPair []
                | x :: y :: s =>
                  if x != 0x5C then faultBefore .unfinishedPair (y :: s)
                  else if y != 0x75 then faultBefore .unfinishedPair s
                  else
                    match s with
                    | a :: b :: c :: d :: s =>
                      match hexNumber? a b c d with
                      | none => faultBefore .invalidEscape s
                      | some m =>
                        if isLowSurrogate m then
                          readStringOnto (putChar done (joinSurrogates n m)) s
                        else faultBefore .loneSurrogate s
                    | _ => endOf .string
              else readStringOnto (putChar done (Char.ofNat n)) s
          | _ => endOf .string
        else
          match shortEscape? letter with
          | some c => readStringOnto (putChar done c) s
          | none => faultBefore .invalidEscape s
    else if b < 0x20 then faultBefore .controlCharacter s
    else readStringOnto (b :: done) s

/-- Reads the rest of a string whose opening quote has been read. -/
def readString (s : Bytes) : Reading String := readStringOnto [] s

/-- A character inside a string: quotes, backslashes and controls are escaped, controls by a letter
where there is one. -/
def writeChar (c : Char) : Bytes :=
  if c = '"' then [0x5C, 0x22]
  else if c = '\\' then [0x5C, 0x5C]
  else if c = '\x08' then [0x5C, 0x62]
  else if c = '\x0c' then [0x5C, 0x66]
  else if c = '\n' then [0x5C, 0x6E]
  else if c = '\r' then [0x5C, 0x72]
  else if c = '\t' then [0x5C, 0x74]
  else if c.toNat < 0x20 then
    [0x5C, 0x75, 0x30, 0x30, 0x30 + UInt8.ofNat (c.toNat / 16),
      UInt8.ofNat (Ascii.lowerHexDigit (c.toNat % 16)).toNat]
  else Utf8.encodeChar c

/-- A text as a string in quotes. -/
def writeString (s : String) : Bytes := 0x22 :: s.toList.flatMap writeChar ++ [0x22]

end RestGateway.Json
