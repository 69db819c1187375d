import RestGateway.Settings.Value
import RestGateway.Toml.Document

/-!
# Sources of settings

A source is a list of assignments. An assignment names a setting, or a part of one, which makes the
setting a table or a sequence. Sources are put one behind the other, and the last assignment of a
name decides.
-/

namespace RestGateway.Settings

/-- Where a value comes from, as far as reports say it. -/
inductive Origin
  | file
  | environment
deriving Repr, DecidableEq

/-- The origin in words. -/
def Origin.describe : Origin → String
  | .file => "sso-gateway.toml"
  | .environment => "the environment"

/-- A step from a value to a part of it. -/
inductive Step
  /-- To an entry, which only tables have. -/
  | entry
  /-- To an item, which only sequences have. Numbers below zero count from the end. -/
  | item (index : Int)
deriving Repr, DecidableEq

/-- A setting by its name, and the steps to a part of it. -/
structure Place where
  name : String
  steps : List Step := []
deriving Repr, DecidableEq

namespace Place

/-- Characters of names. -/
def isNameChar (c : Char) : Bool := c.isAlphanum || c = '_' || c = '-'

/-- Blanks around the number of an item. -/
def isSpace (c : Char) : Bool := c = ' ' || c = '\t'

/-- The number of an item as it stands in brackets: digits behind an optional minus sign, with
blanks around them. -/
def index? (s : List Char) : Option Int :=
  let digits := ((s.dropWhile isSpace).reverse.dropWhile isSpace).reverse
  if digits.head? = some '+' then none
  else match Integer.read Integer.int64 (String.ofList digits) with
    | .ok n => some n
    | .error _ => none

/-- The steps behind a name lead to entries by their names and to items by their numbers. The fuel
is at least the length of what is left. -/
def readSteps : Nat → List Char → Option (List Step)
  | _, [] => some []
  | 0, _ => none
  | fuel + 1, '.' :: s =>
    let name := s.takeWhile isNameChar
    if name.isEmpty then none
    else (readSteps fuel (s.drop name.length)).map (Step.entry :: ·)
  | fuel + 1, '[' :: s =>
    let number := s.takeWhile (· ≠ ']')
    match index? number, s.drop number.length with
    | some n, _ :: s => (readSteps fuel s).map (Step.item n :: ·)
    | _, _ => none
  | _, _ => none

/-- The place that a key leads to. A key that does not have the form of one is a name as it is. -/
def ofKey (key : String) : Place :=
  let s := key.toList
  let name := s.takeWhile isNameChar
  let steps := s.drop name.length
  if name.isEmpty then { name := key }
  else match readSteps steps.length steps with
    | some steps => { name := String.ofList name, steps }
    | none => { name := key }

end Place

/-- How many items a sequence can have: each takes 96 bytes of a memory of 2 ^ 63. -/
def itemLimit : Nat := (Nat.pow 2 63 - 1) / 96

/-- How many items a sequence has at least that has the item of a number. -/
def itemsFor (index : Int) : Nat := if index < 0 then index.natAbs else index.natAbs + 1

/-- No sequence on the way to a place has more items than it can have. -/
def Place.fits (p : Place) : Bool :=
  p.steps.all fun step => match step with
    | .entry => true
    | .item n => itemsFor n ≤ itemLimit

/-- A value for a setting, and where it comes from. -/
structure Setting where
  given : Given
  origin : Option Origin

/-- One assignment. -/
structure Assignment where
  place : Place
  setting : Setting

/-- The setting after an assignment to it or to a part of it. Tables come from several places, so
they have no origin. -/
def Setting.assign (steps : List Step) (new : Setting) (old : Option Setting) : Setting :=
  match steps with
  | [] => match new.given with
    | .table => ⟨.table, none⟩
    | _ => new
  | .entry :: _ => ⟨.table, none⟩
  | .item _ :: _ => match old with
    | some ⟨.sequence, origin⟩ => ⟨.sequence, origin⟩
    | _ => ⟨.sequence, none⟩

/-- Assignments, first to last. -/
abbrev Source := List Assignment

namespace Source

/-- The setting of a name, if there are assignments of it. -/
def get? (source : Source) (name : String) : Option Setting :=
  source.foldl (fun old a =>
    if a.place.name = name then some (a.setting.assign a.place.steps old) else old) none

/-- The places of all assignments fit. -/
def fits (source : Source) : Bool := source.all fun a => a.place.fits

/-- The source of keys and values. -/
def ofPairs (origin : Option Origin) (pairs : List (String × Given)) : Source :=
  pairs.map fun (key, given) => ⟨Place.ofKey key, ⟨given, origin⟩⟩

end Source

/-- The value of a document as what is given. -/
def Given.ofToml : Toml.Value → Given
  | .text s | .moment s => .text s
  | .integer n => .integer n
  | .float x => .float x
  | .bool b => .bool b
  | .array _ | .tables _ => .sequence
  | .table _ _ => .table

/-- The source of the text of a file, unless the file is no document. A mark of the byte order in
front belongs to the file and not to the document. -/
def Source.ofFile? (text : String) : Option Source :=
  (Toml.parse? (Utf8.dropMark text)).map fun entries =>
    Source.ofPairs (some .file) (entries.map fun (key, value) => (key, Given.ofToml value))

/-- Variables of the environment. -/
abbrev Environment := List (String × String)

namespace Environment

/-- What the names of the variables that count start with, in any case. -/
def leader : String := "sso_gateway__"

/-- The small letter of a letter, where it is an ASCII one. The sign of the kelvin has one, too. -/
def toSmall (c : Char) : Char := if c = '\u212a' then 'k' else c.toLower

/-- Writes a point for each two underscores. -/
def pointed : List Char → List Char
  | '_' :: '_' :: s => '.' :: pointed s
  | c :: s => c :: pointed s
  | [] => []

/-- The key that a variable is for, if it counts. -/
def key? (name : String) : Option String :=
  let name := name.toList.map toSmall
  if leader.toList.isPrefixOf name then some (String.ofList (pointed (name.drop leader.length)))
  else none

/-- The source of variables. -/
def source (environment : Environment) : Source :=
  Source.ofPairs (some .environment) (environment.filterMap fun (name, text) =>
    (key? name).map fun key => (key, Given.ofText text))

end Environment

end RestGateway.Settings
