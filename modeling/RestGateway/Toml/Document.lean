import RestGateway.Text.Utf8
import RestGateway.Toml.Scalar

/-!
# Reading TOML documents

A document is read line by line. A line opens a table, or gives a value to a key of the table that
was opened last.
-/

namespace RestGateway.Toml

/-- Characters of keys without quotes. -/
def isKeyChar (c : Char) : Bool := c.isAlphanum || c = '_' || c = '-'

/-- Skips blanks within a line. -/
def skipSpaces (s : List Char) : List Char := s.dropWhile isSpace

/-- Reads a key between two points. -/
def readKeyPart (s : List Char) : Option (String × List Char) :=
  let word := s.takeWhile isKeyChar
  if word.isEmpty then readQuoted s else some (String.ofList word, s.drop word.length)

/-- Reads a key: parts between points, with blanks around them. The fuel is at least the length of
what is left. -/
def readKeyParts : Nat → List Char → Option (List String × List Char)
  | 0, _ => none
  | fuel + 1, s => do
    let (part, rest) ← readKeyPart (skipSpaces s)
    match skipSpaces rest with
    | '.' :: rest => (readKeyParts fuel rest).map fun (parts, rest) => (part :: parts, rest)
    | rest => some ([part], rest)

/-- How many brackets and braces may be open at a time, and how many parts a key may have. -/
def depthLimit : Nat := 80

/-- Reads a key. -/
def readKey (s : List Char) : Option (List String × List Char) := do
  let (parts, rest) ← readKeyParts (s.length + 1) s
  if depthLimit < parts.length then none
  return (parts, rest)

/-- Skips a comment, if there is one. -/
def skipComment (s : List Char) : List Char :=
  match s with
  | '#' :: s => s.dropWhile isPlain
  | s => s

/-- Skips blanks, comments and line ends. -/
def skipBlankLines : Nat → List Char → List Char
  | 0, s => s
  | fuel + 1, s =>
    let s := skipComment (skipSpaces s)
    match lineEnd? s with
    | some s => skipBlankLines fuel s
    | none => s

/-- Skips blanks, comments and line ends. -/
def skipBlank (s : List Char) : List Char := skipBlankLines (s.length + 1) s

mutual

/-- Reads a value, in which `room` brackets and braces may be open at a time. The fuel is at least
twice the length of what is left. -/
def readValue : Nat → (room : Nat) → List Char → Option (Value × List Char)
  | 0, _, _ => none
  | fuel + 1, room, s =>
    match s with
    | '"' :: _ | '\'' :: _ => (readText s).map fun (text, rest) => (.text text, rest)
    | '[' :: s =>
      if room = 0 then none
      else (readItems fuel (room - 1) (skipBlank s)).map fun (items, rest) => (.array items, rest)
    | '{' :: s =>
      if room = 0 then none
      else (readEntries fuel (room - 1) [] (skipBlank s)).map fun (entries, rest) =>
        (.table .inline entries, rest)
    | s => readWord s

/-- Reads the items of an array up to its bracket; a comma may follow the last. -/
def readItems : Nat → (room : Nat) → List Char → Option (List Value × List Char)
  | 0, _, _ => none
  | fuel + 1, room, s =>
    match s with
    | ']' :: s => some ([], s)
    | s => do
      let (item, rest) ← readValue fuel room s
      match skipBlank rest with
      | ',' :: rest =>
        (readItems fuel room (skipBlank rest)).map fun (items, rest) => (item :: items, rest)
      | ']' :: rest => some ([item], rest)
      | _ => none

/-- Reads the entries of a table up to its brace; a comma may follow the last. -/
def readEntries : Nat → (room : Nat) → Entries → List Char → Option (Entries × List Char)
  | 0, _, _, _ => none
  | fuel + 1, room, done, s =>
    match s with
    | '}' :: s => some (done, s)
    | s => do
      let (key, rest) ← readKey s
      let (value, rest) ← readValue fuel room (skipSpaces (← expect? '=' rest))
      let done ← done.insertUnder? (key.getLast?.getD "") value key.dropLast
      match skipBlank rest with
      | ',' :: rest => readEntries fuel room done (skipBlank rest)
      | '}' :: rest => some (done, rest)
      | _ => none

end

/-- A document that is being read: what was read, and the table that lines add to. -/
structure Progress where
  entries : Entries := []
  table : List String := []

/-- Reads a header behind its first bracket. -/
def readHeader (p : Progress) (s : List Char) : Option (Progress × List Char) := do
  let (several, s) := match s with
    | '[' :: s => (true, s)
    | s => (false, s)
  let (key, rest) ← readKey s
  let rest ← expect? ']' rest
  let rest ← if several then expect? ']' rest else some rest
  let last := key.getLast?.getD ""
  let change := if several then Entries.openNext last else Entries.openTable last
  return (⟨← Entries.changeAt change key.dropLast p.entries, key⟩, rest)

/-- Reads a key and its value. -/
def readEntry (p : Progress) (s : List Char) : Option (Progress × List Char) := do
  let (key, rest) ← readKey s
  let value := skipSpaces (← expect? '=' rest)
  let (value, rest) ← readValue (2 * value.length + 2) depthLimit value
  let change := Entries.insertUnder? (key.getLast?.getD "") value key.dropLast
  return ({ p with entries := ← Entries.changeAt change p.table p.entries }, rest)

/-- Reads lines up to the end. The fuel is at least the length of what is left. -/
def readDocument (p : Progress) : Nat → List Char → Option Entries
  | 0, _ => none
  | fuel + 1, s =>
    match skipBlank s with
    | [] => some p.entries
    | s => do
      let (p, rest) ← match s with
        | '[' :: s => readHeader p s
        | s => readEntry p s
      match skipComment (skipSpaces rest) with
      | [] => some p.entries
      | rest => readDocument p fuel (← lineEnd? rest)

/-- Reads a document. A mark of the byte order in front does not count. -/
def parse? (text : String) : Option Entries :=
  let s := (Utf8.dropMark text).toList
  readDocument {} (s.length + 1) s

end RestGateway.Toml
