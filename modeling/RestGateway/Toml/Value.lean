/-!
# TOML documents

A document is a table. A table remembers how it was written, because that decides whether later
lines may add to it.
-/

namespace RestGateway.Toml

/-- How a table came about. -/
inductive Form
  /-- Written as a value, in braces. -/
  | inline
  /-- Opened by a header of its own. -/
  | header
  /-- Passed through by the header of a table below it. -/
  | implied
  /-- Added to by a key with points. -/
  | dotted
deriving Repr, DecidableEq

/-- A value of a document. -/
inductive Value
  | text (s : String)
  | integer (n : Int)
  | float (x : Float)
  | bool (b : Bool)
  /-- A date, a time, or both. -/
  | moment (s : String)
  | array (items : List Value)
  | table (form : Form) (entries : List (String × Value))
  /-- Tables that were opened one by one by headers in double brackets. -/
  | tables (items : List (List (String × Value)))

/-- The entries of a table. -/
abbrev Entries := List (String × Value)

namespace Entries

/-- The value of a key. -/
def get? (entries : Entries) (key : String) : Option Value :=
  (entries.find? fun e => e.1 = key).map Prod.snd

/-- The entries with a value for a key, in the place of an earlier one. -/
def put (entries : Entries) (key : String) (value : Value) : Entries :=
  if entries.any fun e => e.1 = key then
    entries.map fun e => if e.1 = key then (key, value) else e
  else entries ++ [(key, value)]

/-- Adds an entry, unless the key is there already. -/
def insert? (entries : Entries) (key : String) (value : Value) : Option Entries :=
  if entries.any fun e => e.1 = key then none else some (entries ++ [(key, value)])

/-- Adds an entry under a key with points. Tables on the way are added too; those that are there may
not have been opened by a header. The table that gets the entry is from then on one of such keys, so
that no header opens it. -/
def insertUnder? (key : String) (value : Value) : List String → Entries → Option Entries
  | [], entries => entries.insert? key value
  | step :: path, entries =>
    match entries.get? step with
    | none => (insertUnder? key value path []).map fun sub => entries.put step (.table .dotted sub)
    | some (.table form sub) =>
      if form = .dotted || form = .implied then
        (insertUnder? key value path sub).map fun sub =>
          entries.put step (.table (if path.isEmpty then .dotted else form) sub)
      else none
    | some (.tables items) =>
      if path.isEmpty then none
      else (insertUnder? key value path (items.getLast?.getD [])).map fun sub =>
        entries.put step (.tables (items.dropLast ++ [sub]))
    | some _ => none

/-- Changes the entries of the table that a path leads to. Tables on the way that are missing are
added, and of tables that were opened one by one the last is meant. -/
def changeAt (change : Entries → Option Entries) : List String → Entries → Option Entries
  | [], entries => change entries
  | step :: path, entries =>
    match entries.get? step with
    | none => (changeAt change path []).map fun sub => entries.put step (.table .implied sub)
    | some (.table form sub) =>
      if form = .inline then none
      else (changeAt change path sub).map fun sub => entries.put step (.table form sub)
    | some (.tables items) =>
      (changeAt change path (items.getLast?.getD [])).map fun sub =>
        entries.put step (.tables (items.dropLast ++ [sub]))
    | some _ => none

/-- Opens a table by its header. A table is opened once. -/
def openTable (key : String) (entries : Entries) : Option Entries :=
  match entries.get? key with
  | none => some (entries.put key (.table .header []))
  | some (.table .implied sub) => some (entries.put key (.table .header sub))
  | some _ => none

/-- Opens one more table under a key. -/
def openNext (key : String) (entries : Entries) : Option Entries :=
  match entries.get? key with
  | none => some (entries.put key (.tables [[]]))
  | some (.tables items) => some (entries.put key (.tables (items ++ [[]])))
  | some _ => none

end Entries

end RestGateway.Toml
