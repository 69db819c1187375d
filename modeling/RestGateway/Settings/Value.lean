import RestGateway.Number.Decimal
import RestGateway.Number.Floating
import RestGateway.Number.Integer
import RestGateway.Text.Quoted

/-!
# What is given for a setting

Sources give values of several kinds. A setting is a text or a number, and takes every value that
has a plain reading as one: a number is a text too, a truth value is zero or one.
-/

namespace RestGateway.Settings

/-- What a source gives for a setting. -/
inductive Given
  | nothing
  | bool (b : Bool)
  | integer (n : Int)
  | float (x : Float)
  | text (s : String)
  | sequence
  | table

/-- What a setting wants. -/
inductive Wanted
  | text
  | number
  | natural
deriving Repr, DecidableEq

/-- The kind in words. -/
def Wanted.describe : Wanted → String
  | .text => "a string"
  | .number => "an integer"
  | .natural => "an unsigned 64 bit or less integer"

namespace Given

/-- The value in words. -/
def describe : Given → String
  | .nothing => "unit value"
  | .bool b => s!"boolean `{b}`"
  | .integer n => s!"64-bit integer `{n}`"
  | .float x => "floating point `" ++ Decimal.format Decimal.Style.plain x ++ "`"
  | .text s => "string " ++ Text.quoted s
  | .sequence => "sequence"
  | .table => "map"

/-- The value as a text. -/
def toText? : Given → Option String
  | .bool b => some (if b then "true" else "false")
  | .integer n => some (toString n)
  | .float x => some (Decimal.format Decimal.Style.plain x)
  | .text s => some s
  | .nothing | .sequence | .table => none

/-- Words for one. -/
def yesWords : List String := ["true", "on", "yes"]

/-- Words for zero. -/
def noWords : List String := ["false", "off", "no"]

/-- The number that a text stands for: a word in any case, or digits. -/
def naturalOfText? (s : String) : Option Nat :=
  let word := String.ofList (s.toList.map Char.toLower)
  if word ∈ yesWords then some 1
  else if word ∈ noWords then some 0
  else match Integer.read Integer.uint64 s with
    | .ok n => some n.toNat
    | .error _ => none

/-- The value as a number from zero to the greatest of 64 bits, or what would have been one. -/
def toNatural : Given → Except Wanted Nat
  | .bool b => .ok (if b then 1 else 0)
  | .integer n => if 0 ≤ n then .ok n.toNat else .error .natural
  | .float x => .ok (Floating.toNat (Nat.pow 2 64 - 1) x)
  | .text s => match naturalOfText? s with
    | some n => .ok n
    | none => .error .number
  | .nothing | .sequence | .table => .error .number

/-- The value of a bare text: a truth value in any case, a whole number, another number, or the text
itself. -/
def ofText (s : String) : Given :=
  let word := String.ofList (s.toList.map Char.toLower)
  if word = "true" then .bool true
  else if word = "false" then .bool false
  else match Integer.read Integer.int64 s with
    | .ok n => .integer n
    | .error _ =>
      match Floating.read? s.toList with
      | some x => .float x
      | none => .text s

end Given

end RestGateway.Settings
