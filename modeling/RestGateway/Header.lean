import RestGateway.Text.Utf8

/-!
# Header fields

Requests, responses and calls carry lists of named values. A name may occur several times; the
values of one name keep their order, and nothing depends on the order of different names except
where values of two names are collected under a third, which goes name by name (`Headers.grouped`).
-/

namespace RestGateway

/-- A named value. Names are in small letters. -/
structure Header where
  name : String
  value : Bytes
deriving Repr, DecidableEq

/-- Header fields in order. -/
abbrev Headers := List Header

namespace Header

/-- Characters that the name of a field may have. -/
def isNameChar (c : Char) : Bool :=
  c.isAlphanum || "!#$%&'*+-.^_`|~".toList.contains c

/-- A name in small letters, if it is one. Names are not empty and shorter than 64 kibibytes. -/
def name? (s : String) : Option String :=
  if s.toList.all isNameChar && s != "" && s.length < 65536 then
    some (String.ofList (s.toList.map Char.toLower))
  else none

/-- Bytes that a value may have: no controls except the tab. -/
def isValueByte (b : UInt8) : Bool := (0x20 ≤ b && b != 0x7F) || b == 0x09

/-- A value, if the bytes may stand in one. -/
def value? (s : Bytes) : Option Bytes := if s.all isValueByte then some s else none

/-- What is left of a text behind its start `start`. -/
def stripStart? (start s : String) : Option String :=
  if start.toList.isPrefixOf s.toList then some (String.ofList (s.toList.drop start.length))
  else none

/-- The text starts with `start`. -/
def startsWith (start s : String) : Bool := start.toList.isPrefixOf s.toList

/-- The text ends with `tail`. -/
def endsWith (tail s : String) : Bool := tail.toList.isSuffixOf s.toList

end Header

namespace Headers

/-- The values of a name. -/
def values (hs : Headers) (name : String) : List Bytes :=
  hs.filterMap fun h => if h.name = name then some h.value else none

/-- The first value of a name. -/
def get? (hs : Headers) (name : String) : Option Bytes := (hs.values name).head?

/-- The fields of all other names. -/
def erase (hs : Headers) (name : String) : Headers := hs.filter fun h => h.name ≠ name

/-- One more value. -/
def append (hs : Headers) (name : String) (value : Bytes) : Headers := hs ++ [⟨name, value⟩]

/-- One value in the place of all values of the name. -/
def set (hs : Headers) (name : String) (value : Bytes) : Headers :=
  (hs.erase name).append name value

/-- The fields of `more` in the place of all values of the same names. -/
def extend (hs more : Headers) : Headers :=
  (hs.filter fun h => !more.any fun m => m.name = h.name) ++ more

/-- The fields name by name, in the order in which the names come first. -/
def grouped (hs : Headers) : Headers :=
  (hs.map Header.name).eraseDups.flatMap fun name => hs.filter fun h => h.name = name

end Headers

end RestGateway
