import RestGateway.Json.Fault

/-!
# Skipping values

A value that no field wants is passed over with its syntax checked, at any depth. Skipping is a
pushdown automaton: it steps from byte to byte with the brackets that are open on a stack, and it
stops in front of the first byte that the value does not need.
-/

namespace RestGateway.Json

/-- An open bracket. -/
inductive Bracket
  | list
  | object
deriving Repr, DecidableEq

/-- Where in a value the automaton stands. -/
inductive Skip
  /-- A value has to follow. -/
  | value
  /-- The last byte opened a bracket. -/
  | opened
  /-- A value has ended. -/
  | ended
  /-- A member has to follow. -/
  | member
  /-- The name of a member has ended. -/
  | named
  /-- A word goes on with these letters. -/
  | word (letters : Bytes)
  /-- Inside a string, which is the name of a member or a value. -/
  | string (name : Bool)
  /-- After the backslash of an escape. -/
  | escape (name : Bool)
  /-- Inside a numbered escape, with so many digits to come. -/
  | code (name : Bool) (left : Nat) (valid : Bool)
  /-- A whole part has to follow. -/
  | whole
  /-- After a whole part that is zero. -/
  | zero
  /-- Inside a whole part. -/
  | digits
  /-- After the point, with or without a digit. -/
  | fraction (started : Bool)
  /-- After the letter of a power, and whether its sign may still follow. -/
  | power (signed : Bool)
  /-- Inside the digits of a power. -/
  | powerDigits
deriving Repr, DecidableEq

/-- What one byte leads to. -/
inductive Step
  /-- The byte belongs to the value. -/
  | go (state : Skip) (brackets : List Bracket)
  /-- The value has ended in front of the byte. -/
  | stop
  /-- The byte is wrong, and the place of the fault is after it. -/
  | faultAfter (cause : Cause)
  /-- The byte is wrong, and the place of the fault is in front of it. -/
  | faultBefore (cause : Cause)

/-- The first byte of a value. -/
def startValue (brackets : List Bracket) (b : UInt8) : Step :=
  if b == 0x6E then .go (.word [0x75, 0x6C, 0x6C]) brackets
  else if b == 0x74 then .go (.word [0x72, 0x75, 0x65]) brackets
  else if b == 0x66 then .go (.word [0x61, 0x6C, 0x73, 0x65]) brackets
  else if b == 0x2D then .go .whole brackets
  else if b == 0x30 then .go .zero brackets
  else if Ascii.isDigit b then .go .digits brackets
  else if b == 0x22 then .go (.string false) brackets
  else if b == 0x5B then .go .opened (.list :: brackets)
  else if b == 0x7B then .go .opened (.object :: brackets)
  else .faultAfter .expectedValue

/-- The first byte of a member. -/
def startMember (brackets : List Bracket) (b : UInt8) : Step :=
  if b == 0x22 then .go (.string true) brackets else .faultAfter .keyNotString

/-- The first byte after a value. -/
def afterValue (brackets : List Bracket) (b : UInt8) : Step :=
  match brackets with
  | [] => .stop
  | .list :: outer =>
    if isBlank b then .go .ended brackets
    else if b == 0x2C then .go .value brackets
    else if b == 0x5D then .go .ended outer
    else .faultAfter .expectedCommaOrBracket
  | .object :: outer =>
    if isBlank b then .go .ended brackets
    else if b == 0x2C then .go .member brackets
    else if b == 0x7D then .go .ended outer
    else .faultAfter .expectedCommaOrBrace

/-- The first byte after an opening bracket. -/
def afterBracket (brackets : List Bracket) (b : UInt8) : Step :=
  if isBlank b then .go .opened brackets
  else match brackets with
    | .list :: outer => if b == 0x5D then .go .ended outer else startValue brackets b
    | .object :: outer => if b == 0x7D then .go .ended outer else startMember brackets b
    | [] => .stop

/-- What follows the end of a string. -/
def afterString (name : Bool) : Skip := if name then .named else .ended

/-- One byte further. -/
def Skip.step (state : Skip) (brackets : List Bracket) (b : UInt8) : Step :=
  match state with
  | .value => if isBlank b then .go .value brackets else startValue brackets b
  | .opened => afterBracket brackets b
  | .ended => afterValue brackets b
  | .member => if isBlank b then .go .member brackets else startMember brackets b
  | .named =>
    if isBlank b then .go .named brackets
    else if b == 0x3A then .go .value brackets
    else .faultAfter .expectedColon
  | .word [] => afterValue brackets b
  | .word (letter :: letters) =>
    if b == letter then .go (if letters.isEmpty then .ended else .word letters) brackets
    else .faultAfter .expectedWord
  | .string name =>
    if b == 0x22 then .go (afterString name) brackets
    else if b == 0x5C then .go (.escape name) brackets
    else if b < 0x20 then .faultBefore .controlCharacter
    else .go (.string name) brackets
  | .escape name =>
    if b == 0x75 then .go (.code name 4 true) brackets
    else if [0x22, 0x5C, 0x2F, 0x62, 0x66, 0x6E, 0x72, 0x74].contains b then
      .go (.string name) brackets
    else .faultAfter .invalidEscape
  | .code name left valid =>
    let valid := valid && Ascii.isHexDigit b
    if 1 < left then .go (.code name (left - 1) valid) brackets
    else if valid then .go (.string name) brackets
    else .faultAfter .invalidEscape
  | .whole =>
    if b == 0x30 then .go .zero brackets
    else if Ascii.isDigit b then .go .digits brackets
    else .faultAfter .invalidNumber
  | .zero =>
    if Ascii.isDigit b then .faultAfter .invalidNumber
    else if b == 0x2E then .go (.fraction false) brackets
    else if b == 0x65 || b == 0x45 then .go (.power true) brackets
    else afterValue brackets b
  | .digits =>
    if Ascii.isDigit b then .go .digits brackets
    else if b == 0x2E then .go (.fraction false) brackets
    else if b == 0x65 || b == 0x45 then .go (.power true) brackets
    else afterValue brackets b
  | .fraction started =>
    if Ascii.isDigit b then .go (.fraction true) brackets
    else if !started then .faultAfter .invalidNumber
    else if b == 0x65 || b == 0x45 then .go (.power true) brackets
    else afterValue brackets b
  | .power signed =>
    if Ascii.isDigit b then .go .powerDigits brackets
    else if signed && (b == 0x2B || b == 0x2D) then .go (.power false) brackets
    else .faultAfter .invalidNumber
  | .powerDigits =>
    if Ascii.isDigit b then .go .powerDigits brackets else afterValue brackets b

/-- The end of the text after a value. -/
def endAfterValue (brackets : List Bracket) : Except Fault Bytes :=
  match brackets with
  | [] => .ok []
  | .list :: _ => endOf .list
  | .object :: _ => endOf .object

/-- The end of the text. -/
def Skip.atEnd (state : Skip) (brackets : List Bracket) : Except Fault Bytes :=
  match state with
  | .value => endOf .value
  | .opened | .ended | .zero | .digits | .powerDigits => endAfterValue brackets
  | .member | .named => endOf .object
  | .word letters => if letters.isEmpty then endAfterValue brackets else endOf .value
  | .string _ | .escape _ | .code _ _ _ => endOf .string
  | .fraction started => if started then endAfterValue brackets else faultBefore .invalidNumber []
  | .whole | .power _ => faultBefore .invalidNumber []

/-- Passes over bytes up to the end of the value. -/
def skipFrom (state : Skip) (brackets : List Bracket) : Bytes → Except Fault Bytes
  | [] => state.atEnd brackets
  | b :: s =>
    match state.step brackets b with
    | .go state brackets => skipFrom state brackets s
    | .stop => .ok (b :: s)
    | .faultAfter cause => faultBefore cause s
    | .faultBefore cause => faultBefore cause (b :: s)

/-- The bytes after the value at the start of `s`. -/
def skipValue (s : Bytes) : Except Fault Bytes := skipFrom .value [] s

end RestGateway.Json
