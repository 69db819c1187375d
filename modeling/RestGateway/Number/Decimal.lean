/-!
# Decimal text of floating-point numbers

A number is written with the fewest digits that read back as the same number, and among those with
the digits nearest to it; a `Tie` decides between digits that are equally near. The search works on
exact integers: a finite number is `m * 2 ^ q`, the numbers that round to it form an interval, and a
decimal with `n` digits lies in the interval only if one of the two neighbours of `m * 2 ^ q` on the
grid of such decimals does.
-/

namespace RestGateway.Decimal

/-- A finite number as `mantissa * 2 ^ exponent`; `atPower` says that the gap below it is half the
gap above. -/
structure Binary where
  mantissa : Nat
  exponent : Int
  atPower : Bool
deriving Repr, DecidableEq

/-- The magnitude of a finite number, from its bits. -/
def Binary.ofBits (bits : Nat) : Binary :=
  let fraction : Nat := bits % Nat.pow 2 52
  let field : Nat := bits / Nat.pow 2 52 % Nat.pow 2 11
  if field = 0 then ⟨fraction, -1074, false⟩
  else ⟨Nat.pow 2 52 + fraction, (field : Int) - 1075, fraction = 0 && 1 < field⟩

/-- `numerator * 2 ^ e` below, at or above `10 ^ k`, with whole numbers on both sides. -/
def powerAtMost (k : Int) (m : Nat) (e : Int) : Bool :=
  Nat.pow 10 k.toNat * Nat.pow 2 (-e).toNat ≤ m * Nat.pow 2 e.toNat * Nat.pow 10 (-k).toNat

/-- The greatest `k` with `10 ^ k ≤ m * 2 ^ e`, for a positive `m`. -/
def magnitude (m : Nat) (e : Int) : Int :=
  let guess := (e + Nat.log2 m) * 30103 / 100000
  if powerAtMost (guess + 1) m e then guess + 1
  else if powerAtMost guess m e then guess
  else guess - 1

/-- The digit string `digits * 10 ^ scale`. -/
structure Digits where
  digits : Nat
  scale : Int
deriving Repr, DecidableEq

/-- Which of two digit strings is written that are equally near. -/
inductive Tie
  | toEven
  | toGreater
deriving Repr, DecidableEq

/-- A tie between `below` and the number after it goes to `below`. -/
def Tie.staysAt (tie : Tie) (below : Nat) : Bool :=
  match tie with
  | .toEven => below % 2 = 0
  | .toGreater => false

/-- The nearer of the neighbours of `x` on the multiples of `10 ^ scale` that rounds to `x`. -/
def onGrid? (tie : Tie) (x : Binary) (scale : Int) : Option Digits :=
  let a := Nat.pow 2 (x.exponent - 2).toNat * Nat.pow 10 (-scale).toNat
  let b := Nat.pow 2 (2 - x.exponent).toNat * Nat.pow 10 scale.toNat
  let value := 4 * x.mantissa * a
  let low := (4 * x.mantissa - (if x.atPower then 1 else 2)) * a
  let high := (4 * x.mantissa + 2) * a
  let even := x.mantissa % 2 = 0
  let below := value / b
  let above := below + 1
  let belowFits := if even then low ≤ below * b else low < below * b
  let aboveFits := if even then above * b ≤ high else above * b < high
  if belowFits && aboveFits then
    let down := value - below * b
    let up := above * b - value
    if down < up || (down = up && tie.staysAt below) then some ⟨below, scale⟩
    else some ⟨above, scale⟩
  else if belowFits then some ⟨below, scale⟩
  else if aboveFits then some ⟨above, scale⟩
  else none

/-- The first grid that has a hit, from `n` digits on. -/
def shortestFrom (tie : Tie) (x : Binary) (top : Int) : Nat → Nat → Digits
  | 0, _ => ⟨x.mantissa, x.exponent⟩
  | rounds + 1, n =>
    match onGrid? tie x (top - (n : Int) + 1) with
    | some d => d
    | none => shortestFrom tie x top rounds (n + 1)

/-- The fewest digits that read back as the number, which is not zero. -/
def shortest (tie : Tie) (x : Binary) : Digits :=
  shortestFrom tie x (magnitude x.mantissa x.exponent) 17 1

/-- The digits of a number, first digit first. -/
def digitChars (n : Nat) : List Char := Nat.toDigits 10 n

/-- Digits without the zeros at their end, and how many those were. -/
def stripZeros (ds : List Char) : List Char × Nat :=
  let kept := (ds.reverse.dropWhile (· == '0')).reverse
  (kept, ds.length - kept.length)

/-- The digits in place, with a point where the number has a fraction; `whole` is what follows the
digits of a number without one. -/
def positional (ds : List Char) (scale : Int) (whole : String) : String :=
  if 0 ≤ scale then String.ofList (ds ++ List.replicate scale.toNat '0') ++ whole
  else
    let places := (-scale).toNat
    if places < ds.length then
      String.ofList (ds.take (ds.length - places) ++ '.' :: ds.drop (ds.length - places))
    else
      String.ofList ('0' :: '.' :: List.replicate (places - ds.length) '0' ++ ds)

/-- The first digit, a point before the others if there are any, and the power of ten with its
sign. -/
def scientific (ds : List Char) (power : Int) : String :=
  let mantissa := match ds with
    | [] => "0"
    | [d] => d.toString
    | d :: rest => d.toString ++ "." ++ String.ofList rest
  mantissa ++ "e" ++ (if power < 0 then "-" else "+") ++ toString power.natAbs

/-- How numbers are written: what follows a number without a fraction, the powers of ten, if any are
set, at which the places of the digits are kept, and where ties go. -/
structure Style where
  whole : String
  positionalPowers : Option (Int × Int)
  tie : Tie

/-- Reports write every number with a point or a power of ten; the places are kept from the fifth
after the point to the sixteenth before it. Ties go to the even digit. -/
def Style.report : Style := ⟨".0", some (-5, 15), .toEven⟩

/-- Plain text keeps the places always and writes no point after a whole number. Ties go away from
zero. -/
def Style.plain : Style := ⟨"", none, .toGreater⟩

/-- A number in text. -/
def format (style : Style) (x : Float) : String :=
  let bits := x.toBits.toNat
  let sign := if bits / Nat.pow 2 63 = 1 then "-" else ""
  if bits / Nat.pow 2 52 % Nat.pow 2 11 = 2047 then
    if bits % Nat.pow 2 52 = 0 then sign ++ "inf" else "NaN"
  else
    let x := Binary.ofBits bits
    if x.mantissa = 0 then sign ++ "0" ++ style.whole
    else
      let d := shortest style.tie x
      let (ds, zeros) := stripZeros (digitChars d.digits)
      let scale := d.scale + zeros
      let power := scale + ds.length - 1
      let inPlace := match style.positionalPowers with
        | none => true
        | some (least, greatest) => least ≤ power && power ≤ greatest
      sign ++ if inPlace then positional ds scale style.whole else scientific ds power

end RestGateway.Decimal
