import RestGateway.Number.Floating
import RestGateway.Number.Integer
import RestGateway.Pieces
import RestGateway.Toml.Text

/-!
# Numbers, truth values and moments in TOML

These values are words without blanks, except that a blank may stand between a date and a time. A
word is read as a whole. Digits may be grouped with underscores between them.
-/

namespace RestGateway.Toml

/-- Characters of words. -/
def isWordChar (c : Char) : Bool :=
  c.isAlphanum || c = '+' || c = '-' || c = '_' || c = '.' || c = ':'

/-- Digits without the underscores between them, if there are digits on both sides of each. -/
def ungroup? (isDigit : Char → Bool) (s : List Char) : Option (List Char) :=
  let groups := pieces '_' s
  if groups.all fun group => !group.isEmpty && group.all isDigit then some groups.flatten else none

/-- A sign, and what is left behind it. -/
def splitSign (s : List Char) : List Char × List Char :=
  match s with
  | '+' :: s => (['+'], s)
  | '-' :: s => (['-'], s)
  | s => ([], s)

/-- Digits of a whole number: no zero in front of others. -/
def wholeDigits? (s : List Char) : Option (List Char) := do
  let digits ← ungroup? Char.isDigit s
  if digits.head? = some '0' && 1 < digits.length then none
  return digits

/-- A number within 64 bits. -/
def bounded? (n : Int) : Option Value :=
  if Integer.int64.least ≤ n && n ≤ Integer.int64.greatest then some (.integer n) else none

/-- The number of digits in a base. -/
def baseNumber? (base : Nat) (s : List Char) : Option Value := do
  let digits ← ungroup? Char.isAlphanum s
  let n ← digits.foldl (fun n c => do
    let n ← n
    let v ← Ascii.hexValue? (UInt8.ofNat c.toNat)
    if base ≤ v then none
    return n * base + v) (some 0)
  bounded? n

/-- A whole number. -/
def integer? (s : List Char) : Option Value :=
  match s with
  | '0' :: 'x' :: s => baseNumber? 16 s
  | '0' :: 'o' :: s => baseNumber? 8 s
  | '0' :: 'b' :: s => baseNumber? 2 s
  | s => do
    let (sign, s) := splitSign s
    let n := Digits.value (← wholeDigits? s)
    bounded? (if sign = ['-'] then -n else n)

/-- The digits of a power of ten behind its letter, with their sign. -/
def powerDigits? (s : List Char) : Option (List Char) := do
  let (sign, s) := splitSign s
  return sign ++ (← ungroup? Char.isDigit s)

/-- A number with a point or a power of ten, or one that is written by name. -/
def float? (s : List Char) : Option Value := do
  let (sign, rest) := splitSign s
  if rest = ['i', 'n', 'f'] || rest = ['n', 'a', 'n'] then return .float (← Floating.read? s)
  let whole := rest.takeWhile fun c => c ≠ '.' && c ≠ 'e' && c ≠ 'E'
  let rest := rest.drop whole.length
  let whole ← wholeDigits? whole
  let (fraction, rest) ← match rest with
    | '.' :: rest =>
      let fraction := rest.takeWhile fun c => c ≠ 'e' && c ≠ 'E'
      (ungroup? Char.isDigit fraction).map fun ds => ('.' :: ds, rest.drop fraction.length)
    | rest => some ([], rest)
  let power ← match rest with
    | [] => if fraction.isEmpty then none else some []
    | _ :: rest => (powerDigits? rest).map ('e' :: ·)
  let x ← Floating.read? (sign ++ whole ++ fraction ++ power)
  if x.isInf then none else return .float x

/-- The number of exactly `count` digits at the start of a text. -/
def fixedNumber? (count : Nat) (s : List Char) : Option (Nat × List Char) :=
  let digits := s.take count
  if digits.length = count && digits.all Char.isDigit then
    some (Digits.value digits, s.drop count)
  else none

/-- The text behind a character that has to come. -/
def expect? (c : Char) : List Char → Option (List Char)
  | d :: s => if d = c then some s else none
  | [] => none

/-- The days of a month. -/
def daysOf (year month : Nat) : Nat :=
  if month = 2 then
    if year % 4 = 0 && (year % 100 ≠ 0 || year % 400 = 0) then 29 else 28
  else if month = 4 || month = 6 || month = 9 || month = 11 then 30
  else 31

/-- A date at the start of a text: its own text, and what is left. -/
def readDate (s : List Char) : Option (List Char × List Char) := do
  let (year, rest) ← fixedNumber? 4 s
  let (month, rest) ← fixedNumber? 2 (← expect? '-' rest)
  let (day, rest) ← fixedNumber? 2 (← expect? '-' rest)
  if month < 1 || 12 < month || day < 1 || daysOf year month < day then none
  return (s.take (s.length - rest.length), rest)

/-- Digits behind the point of seconds: no more than nine count, and of zeros at the end only one
that stands alone. -/
def shownFraction (digits : List Char) : List Char :=
  let kept := ((digits.take 9).reverse.dropWhile (· = '0')).reverse
  '.' :: if kept.isEmpty then ['0'] else kept

/-- Seconds at the start of a text, which may be missing. -/
def readSeconds (s : List Char) : Option (List Char × List Char) :=
  match s with
  | ':' :: s => do
    let (second, rest) ← fixedNumber? 2 s
    if 60 < second then none
    let shown := ':' :: s.take 2
    match rest with
    | '.' :: rest =>
      let digits := rest.takeWhile Char.isDigit
      if digits.isEmpty then none
      return (shown ++ shownFraction digits, rest.drop digits.length)
    | rest => return (shown, rest)
  | s => some ([], s)

/-- A time at the start of a text. -/
def readTime (s : List Char) : Option (List Char × List Char) := do
  let (hour, rest) ← fixedNumber? 2 s
  let (minute, rest) ← fixedNumber? 2 (← expect? ':' rest)
  if 23 < hour || 59 < minute then none
  let (seconds, rest) ← readSeconds rest
  return (s.take 5 ++ seconds, rest)

/-- The distance to the time of the zero meridian, which ends a text. No distance is ahead. -/
def offset? (s : List Char) : Option (List Char) :=
  match s with
  | [] => some []
  | ['Z'] | ['z'] => some ['Z']
  | _ :: t => do
    let (hour, rest) ← fixedNumber? 2 t
    let (minute, rest) ← fixedNumber? 2 (← expect? ':' rest)
    if !(s.head? = some '+' || s.head? = some '-') || 23 < hour || 59 < minute || !rest.isEmpty then
      none
    return if hour = 0 && minute = 0 then '+' :: t else s

/-- A time with what may follow it. -/
def dayTime? (s : List Char) : Option (List Char) := do
  let (time, rest) ← readTime s
  return time ++ (← offset? rest)

/-- A date, a time, or both. -/
def moment? (s : List Char) : Option Value := do
  let text ← match readDate s with
    | some (date, []) => some date
    | some (date, _ :: rest) =>
      if (s.drop date.length).head?.any fun c => c = 'T' || c = 't' || c = ' ' then
        (dayTime? rest).map fun time => date ++ 'T' :: time
      else none
    | none =>
      match readTime s with
      | some (time, []) => some time
      | _ => none
  return .moment (String.ofList text)

/-- The value of a word. -/
def word? (s : List Char) : Option Value :=
  if s = "true".toList then some (.bool true)
  else if s = "false".toList then some (.bool false)
  else (integer? s).or ((float? s).or (moment? s))

/-- Reads a word. A blank and a digit behind a date belong to it. -/
def readWord (s : List Char) : Option (Value × List Char) := do
  let word := s.takeWhile isWordChar
  let rest := s.drop word.length
  let (word, rest) := match readDate word, rest with
    | some (_, []), ' ' :: c :: more =>
      if c.isDigit then
        let time := (c :: more).takeWhile isWordChar
        (word ++ ' ' :: time, (c :: more).drop time.length)
      else (word, rest)
    | _, _ => (word, rest)
  return (← word? word, rest)

end RestGateway.Toml
