/-!
# Blank characters

The characters that stand for space between words, in ASCII and beyond.
-/

namespace RestGateway.Text

/-- Ranges of blank characters. -/
def blankRanges : List (Nat × Nat) :=
  [(0x09, 0x0D), (0x20, 0x20), (0x85, 0x85), (0xA0, 0xA0), (0x1680, 0x1680), (0x2000, 0x200A),
    (0x2028, 0x2029), (0x202F, 0x202F), (0x205F, 0x205F), (0x3000, 0x3000)]

/-- A character is blank. -/
def isBlank (c : Char) : Bool :=
  blankRanges.any fun (low, high) => low ≤ c.toNat && c.toNat ≤ high

/-- A text has no characters other than blank ones. -/
def isAllBlank (s : String) : Bool := s.toList.all isBlank

end RestGateway.Text
