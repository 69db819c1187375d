import RestGateway.Json.Number
import RestGateway.Proofs.Json.Text

/-!
# The grammar of JSON texts

A text in JSON spells a tree. The grammar is a relation between a text and what is left of it behind
the tree, so it says nothing about how a reader finds its way. It is the full grammar: strings with
any escapes, numbers with fractions and powers of ten, and lists and objects nested to any depth.

A tree keeps of a text what its values are. The spelling of a number belongs to its value; blanks
and the spelling of strings do not. A string may stand for no text at all, if half a surrogate pair
is in it or its bytes are not UTF-8.
-/

namespace RestGateway.Json

/-- Between the two texts there are only blanks. -/
def Blanks (s rest : Bytes) : Prop :=
  ∃ blanks, (∀ b ∈ blanks, isBlank b = true) ∧ s = blanks ++ rest

/-- What is between the quotes of a string, and the closing quote. -/
inductive Content : Bytes → Bytes → Prop
  | close (rest : Bytes) : Content (0x22 :: rest) rest
  | plain {b : UInt8} {s rest : Bytes} (hb : IsPlain b) (h : Content s rest) :
      Content (b :: s) rest
  | letter {letter : UInt8} {c : Char} {s rest : Bytes} (hletter : shortEscape? letter = some c)
      (h : Content s rest) : Content (0x5C :: letter :: s) rest
  | code {a b c d : UInt8} {n : Nat} {s rest : Bytes} (hn : hexNumber? a b c d = some n)
      (h : Content s rest) : Content (0x5C :: 0x75 :: a :: b :: c :: d :: s) rest

/-- The bytes that a string stands for: those of a character in the place of every escape. Two
escapes with the halves of a surrogate pair are one character. -/
inductive StandsFor : Bytes → Bytes → Bytes → Prop
  | close (rest : Bytes) : StandsFor (0x22 :: rest) [] rest
  | plain {b : UInt8} {s bytes rest : Bytes} (hb : IsPlain b) (h : StandsFor s bytes rest) :
      StandsFor (b :: s) (b :: bytes) rest
  | letter {letter : UInt8} {c : Char} {s bytes rest : Bytes}
      (hletter : shortEscape? letter = some c) (h : StandsFor s bytes rest) :
      StandsFor (0x5C :: letter :: s) (Utf8.encodeChar c ++ bytes) rest
  | code {a b c d : UInt8} {n : Nat} {s bytes rest : Bytes} (hn : hexNumber? a b c d = some n)
      (hlow : isLowSurrogate n = false) (hhigh : isHighSurrogate n = false)
      (h : StandsFor s bytes rest) :
      StandsFor (0x5C :: 0x75 :: a :: b :: c :: d :: s)
        (Utf8.encodeChar (Char.ofNat n) ++ bytes) rest
  | pair {a b c d a' b' c' d' : UInt8} {n m : Nat} {s bytes rest : Bytes}
      (hn : hexNumber? a b c d = some n) (hhigh : isHighSurrogate n = true)
      (hm : hexNumber? a' b' c' d' = some m) (hlow : isLowSurrogate m = true)
      (h : StandsFor s bytes rest) :
      StandsFor
        (0x5C :: 0x75 :: a :: b :: c :: d :: 0x5C :: 0x75 :: a' :: b' :: c' :: d' :: s)
        (Utf8.encodeChar (joinSurrogates n m) ++ bytes) rest

/-- A string, and the text that it stands for if there is one. -/
structure IsString (s : Bytes) (text : Option String) (rest : Bytes) : Prop where
  content : Content s rest
  text : ∀ t, text = some t ↔ StandsFor s (Utf8.encode t) rest

/-- Decimal digits, at least one. -/
def AreDigits (ds : Bytes) : Prop := ds ≠ [] ∧ ∀ b ∈ ds, Ascii.isDigit b = true

/-- A whole part: a zero, or digits that do not start with one. -/
inductive IsWhole : Bytes → Prop
  | zero : IsWhole [0x30]
  | digits {d : UInt8} {ds : Bytes} (hne : d ≠ 0x30) (h : AreDigits (d :: ds)) : IsWhole (d :: ds)

/-- What may follow a whole part: a point and digits. -/
inductive IsFraction : Bytes → Prop
  | none : IsFraction []
  | digits {ds : Bytes} (h : AreDigits ds) : IsFraction (0x2E :: ds)

/-- What may follow a fraction: a letter, a sign if need be, and digits. -/
inductive IsPower : Bytes → Prop
  | none : IsPower []
  | unsigned {letter : UInt8} {ds : Bytes} (hletter : isExponentLetter letter = true)
      (h : AreDigits ds) : IsPower (letter :: ds)
  | signed {letter sign : UInt8} {ds : Bytes} (hletter : isExponentLetter letter = true)
      (hsign : sign = 0x2B ∨ sign = 0x2D) (h : AreDigits ds) : IsPower (letter :: sign :: ds)

/-- A number as it is spelled. -/
structure Numeral where
  negative : Bool
  whole : Bytes
  fraction : Bytes
  power : Bytes
  isWhole : IsWhole whole
  isFraction : IsFraction fraction
  isPower : IsPower power

/-- The minus sign of a number, if it has one. -/
def sign (negative : Bool) : Bytes := if negative then [0x2D] else []

/-- The bytes of a number. -/
def Numeral.spelling (n : Numeral) : Bytes := sign n.negative ++ n.whole ++ n.fraction ++ n.power

/-- The word for a truth value. -/
def word : Bool → Bytes
  | true => [0x74, 0x72, 0x75, 0x65]
  | false => [0x66, 0x61, 0x6C, 0x73, 0x65]

/-- What a text in JSON spells. -/
inductive Tree
  | null
  | boolean (b : Bool)
  | number (n : Numeral)
  | string (text : Option String)
  | list (vs : List Tree)
  | object (ms : List (Option String × Tree))

/-- A member of an object: its name, if that is a text, and its value. -/
abbrev Tree.Member : Type := Option String × Tree

/-- In front of an item there are blanks, and a comma if it is not the first. -/
def Separated (first : Bool) (s rest : Bytes) : Prop :=
  if first then Blanks s rest else ∃ t, Blanks s (0x2C :: t) ∧ Blanks t rest

/-- What is spelled: a value, or what is left of a list or of an object, from its beginning or from
behind an item of it. -/
inductive Part
  | value (v : Tree)
  | elements (first : Bool) (vs : List Tree)
  | members (first : Bool) (ms : List Tree.Member)

/-- A text starts with a spelling of a part, and goes on with the rest. -/
inductive Spells : Part → Bytes → Bytes → Prop
  | null (rest : Bytes) : Spells (.value .null) (0x6E :: 0x75 :: 0x6C :: 0x6C :: rest) rest
  | boolean (b : Bool) (rest : Bytes) : Spells (.value (.boolean b)) (word b ++ rest) rest
  | number (n : Numeral) (rest : Bytes) : Spells (.value (.number n)) (n.spelling ++ rest) rest
  | string {text : Option String} {s rest : Bytes} (h : IsString s text rest) :
      Spells (.value (.string text)) (0x22 :: s) rest
  | list {vs : List Tree} {s rest : Bytes} (h : Spells (.elements true vs) s rest) :
      Spells (.value (.list vs)) (0x5B :: s) rest
  | object {ms : List Tree.Member} {s rest : Bytes} (h : Spells (.members true ms) s rest) :
      Spells (.value (.object ms)) (0x7B :: s) rest
  | closeList {first : Bool} {s rest : Bytes} (h : Blanks s (0x5D :: rest)) :
      Spells (.elements first []) s rest
  | element {first : Bool} {v : Tree} {vs : List Tree} {s t u rest : Bytes}
      (hseparated : Separated first s t) (hv : Spells (.value v) t u)
      (hvs : Spells (.elements false vs) u rest) : Spells (.elements first (v :: vs)) s rest
  | closeObject {first : Bool} {s rest : Bytes} (h : Blanks s (0x7D :: rest)) :
      Spells (.members first []) s rest
  | member {first : Bool} {name : Option String} {v : Tree} {ms : List Tree.Member}
      {s t u w x y rest : Bytes} (hseparated : Separated first s (0x22 :: t))
      (hname : IsString t name u) (hcolon : Blanks u (0x3A :: w)) (hblank : Blanks w x)
      (hv : Spells (.value v) x y) (hms : Spells (.members false ms) y rest) :
      Spells (.members first ((name, v) :: ms)) s rest

/-- A whole text is a value between blanks. -/
def IsText (text : Bytes) (v : Tree) : Prop :=
  ∃ s rest, Blanks text s ∧ Spells (.value v) s rest ∧ Blanks rest []

end RestGateway.Json
