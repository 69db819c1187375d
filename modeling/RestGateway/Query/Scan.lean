import RestGateway.Text.Percent

/-!
# Looking for bad escapes, position by position

`Percent.badEscape?` looks at what is left of a pair. `Query.scan` is the same search as a loop over
positions, with everything that such a loop can get wrong: it asks for a byte by its position, which
the pair may not have, and cuts the pair at positions that may lie inside a character.
-/

namespace RestGateway

namespace Bytes

/-- The bytes from a position up to another one, if both are positions of the text. -/
def range? (s : Bytes) (i j : Nat) : Option Bytes :=
  if i ≤ j && j ≤ s.length then some ((s.drop i).take (j - i)) else none

end Bytes

namespace Utf8

/-- Positions between two characters: no byte in the middle of a character follows. -/
def isBoundary (s : Bytes) (i : Nat) : Bool :=
  match s[i]? with
  | some b => !isTail b
  | none => i == s.length

/-- The text from a position up to another one, if no character is cut. -/
def slice? (s : Bytes) (i j : Nat) : Option String :=
  if i ≤ j && isBoundary s i && isBoundary s j then decode? ((s.drop i).take (j - i)) else none

end Utf8

namespace Query

/-- How the search ends. -/
inductive Scan
  /-- Every percent sign starts an escape; the loop has come to a position. -/
  | passed (stop : Nat)
  /-- A percent sign starts no escape, and this is shown of it. -/
  | refused (shown : String)
  /-- A byte was asked for that the pair does not have. -/
  | outside
deriving Repr, DecidableEq

/-- Searches a pair from a position on. -/
def scanFrom (pair : Bytes) (i : Nat) : Scan :=
  if i < pair.length then
    match pair[i]? with
    | none => .outside
    | some b =>
      if b == 0x25 then
        if (pair.range? (i + 1) (i + 3)).any fun digits => digits.all Ascii.isHexDigit then
          scanFrom pair (i + 3)
        else .refused ((Utf8.slice? pair i (min (i + 3) pair.length)).getD "%")
      else scanFrom pair (i + 1)
  else .passed i
termination_by pair.length - i

/-- Searches a whole pair. -/
def scan (pair : Bytes) : Scan := scanFrom pair 0

end Query

end RestGateway
