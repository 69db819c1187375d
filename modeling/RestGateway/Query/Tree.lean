import RestGateway.Text.Percent

/-!
# Values of query strings

The pairs of a query string are collected in a tree. Keys are names or numbers; a leaf is what
stands behind a key, and several leaves of one key make a sequence.
-/

namespace RestGateway.Query

/-- A key: a number, or a name after its escapes were read. -/
inductive Key
  | index (n : Nat)
  | name (s : Bytes)
deriving Repr, DecidableEq

/-- The key that is written as `s`. It is a number if it consists of digits, none of them escaped,
and fits 32 bits. -/
def Key.ofWritten (s : Bytes) : Key :=
  if !s.isEmpty && s.all Ascii.isDigit && Ascii.number s < Nat.pow 2 32 then .index (Ascii.number s)
  else .name (Percent.decodeForm s)

/-- What stands behind a key. -/
inductive Leaf
  /-- A value that is not empty. -/
  | text (s : Bytes)
  /-- An equals sign with nothing after it. -/
  | blank
  /-- Not even an equals sign. -/
  | bare
deriving Repr, DecidableEq

/-- The values of a query string. A map has each key once. -/
inductive Tree
  | leaf (l : Leaf)
  | sequence (ls : List Leaf)
  | map (entries : List (Key × Tree))
deriving Repr

/-- The entries of a map. -/
abbrev Entries := List (Key × Tree)

/-- The value of a key. -/
def Entries.get? (entries : Entries) (key : Key) : Option Tree :=
  (entries.find? fun entry => entry.1 = key).map Prod.snd

/-- The value of a key replaced, or added at the end. -/
def Entries.set (entries : Entries) (key : Key) (value : Tree) : Entries :=
  match entries with
  | [] => [(key, value)]
  | entry :: rest =>
    if entry.1 = key then (key, value) :: rest else entry :: Entries.set rest key value

/-- Adds a leaf. A second leaf makes a sequence; a map takes it under the empty key. -/
def Tree.add (node : Option Tree) (l : Leaf) : Tree :=
  match node with
  | none => .leaf l
  | some (.leaf first) => .sequence [first, l]
  | some (.sequence ls) => .sequence (ls ++ [l])
  | some (.map entries) => .map (Entries.set entries (.name []) (.leaf l))

/-- What a key already is when it is used in another way. -/
inductive Use
  | sequence
  | value
  | unitValue
deriving Repr, DecidableEq

/-- The use in words. -/
def Use.describe : Use → String
  | .sequence => "sequence"
  | .value => "value"
  | .unitValue => "unit value"

/-- The entries of a value that is used as a map. -/
def Tree.entries? (node : Option Tree) : Except Use Entries :=
  match node with
  | none => .ok []
  | some (.map entries) => .ok entries
  | some (.leaf (.text _)) => .error .value
  | some (.leaf .blank) | some (.leaf .bare) => .error .unitValue
  | some (.sequence _) => .error .sequence

end RestGateway.Query
