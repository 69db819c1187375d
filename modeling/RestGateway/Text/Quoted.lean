import RestGateway.Bytes
import RestGateway.Text.Printable

/-!
# Quotations

Reports quote the text they are about. `Text.quoted` shows a text so that every character can be
told apart; `Text.quotedHeader` shows a header value, which is bytes rather than text.
-/

namespace RestGateway.Text

/-- The hexadecimal digits of a number, in small letters and without leading zeros. -/
def lowerHex (n : Nat) : String := String.ofList (Nat.toDigits 16 n)

/-- One character of a quotation: the quote and the backslash get a backslash in front, four
controls have a letter, and a character that cannot be shown is written by its number. -/
def quotedChar (c : Char) : String :=
  if c = '"' then "\\\""
  else if c = '\\' then "\\\\"
  else if c = '\n' then "\\n"
  else if c = '\r' then "\\r"
  else if c = '\t' then "\\t"
  else if c.toNat = 0 then "\\0"
  else if isShown c then c.toString
  else "\\u\x7b" ++ lowerHex c.toNat ++ "\x7d"

/-- A text in quotes. -/
def quoted (s : String) : String :=
  "\"" ++ String.join (s.toList.map quotedChar) ++ "\""

/-- Bytes of a header value that can be read as characters: visible ASCII, the space and the tab. -/
def isHeaderText (b : UInt8) : Bool := (0x20 ≤ b && b ≤ 0x7E) || b == 0x09

/-- One byte of a quoted header value; the backslash stands for itself. -/
def quotedHeaderByte (b : UInt8) : String :=
  if b = 0x22 then "\\\""
  else if isHeaderText b then (Char.ofNat b.toNat).toString
  else "\\x" ++ lowerHex b.toNat

/-- A header value in quotes. -/
def quotedHeader (s : Bytes) : String :=
  "\"" ++ String.join (s.map quotedHeaderByte) ++ "\""

end RestGateway.Text
