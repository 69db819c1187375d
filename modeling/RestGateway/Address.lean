import RestGateway.Bytes
import RestGateway.Text.Quoted

/-!
# Network addresses

An address is a host with a port. Hosts are written in the usual way: four decimal numbers, or eight
groups of hexadecimal digits in which the longest run of zero groups is left out.
-/

namespace RestGateway

/-- A host. -/
inductive Host
  | v4 (a b c d : UInt8)
  /-- Eight groups. -/
  | v6 (groups : List UInt16)
deriving Repr, DecidableEq

/-- A host and a port; the zone tells apart local hosts of the second kind. -/
structure Address where
  host : Host
  zone : UInt32 := 0
  port : UInt16
deriving Repr, DecidableEq

namespace Address

/-- Reads a number of digits in a base, of at most `most` digits if that is given, and below
`bound`. -/
def readNumber (base : Nat) (most : Option Nat) (leadingZeros : Bool) (bound : Nat) (s : Bytes) :
    Option (Nat × Bytes) :=
  let isDigit (b : UInt8) : Bool := match Ascii.hexValue? b with
    | some v => v < base
    | none => false
  let (digits, rest) := s.span isDigit
  let value := digits.foldl (fun n d => n * base + (Ascii.hexValue? d).getD 0) 0
  let tooLong := match most with
    | some most => most < digits.length
    | none => false
  let padded := !leadingZeros && digits.head? = some 0x30 && 1 < digits.length
  if digits.isEmpty || tooLong || padded || bound ≤ value then none else some (value, rest)

/-- The bytes behind one that has to come. -/
def expect (b : UInt8) : Bytes → Option Bytes
  | [] => none
  | c :: s => if c == b then some s else none

/-- Reads four decimal numbers between points. -/
def readV4 (s : Bytes) : Option ((UInt8 × UInt8 × UInt8 × UInt8) × Bytes) := do
  let octet (s : Bytes) := readNumber 10 (some 3) false 256 s
  let (a, s) ← octet s
  let (b, s) ← octet (← expect 0x2E s)
  let (c, s) ← octet (← expect 0x2E s)
  let (d, s) ← octet (← expect 0x2E s)
  return ((UInt8.ofNat a, UInt8.ofNat b, UInt8.ofNat c, UInt8.ofNat d), s)

/-- The group of two bytes. -/
def group (high low : UInt8) : UInt16 := high.toUInt16 * 256 + low.toUInt16

/-- Reads up to `limit` groups between colons, after those in `done`, which are kept in reverse. The
last two may be written as four decimal numbers, and the flag says that they are. -/
def readGroups : (limit : Nat) → (done : List UInt16) → Bytes → (List UInt16 × Bool) × Bytes
  | 0, done, s => ((done.reverse, false), s)
  | limit + 1, done, s =>
    match if done.isEmpty then some s else expect 0x3A s with
    | none => ((done.reverse, false), s)
    | some t =>
      match if 0 < limit then readV4 t else none with
      | some ((a, b, c, d), u) => (((group c d :: group a b :: done).reverse, true), u)
      | none =>
        match readNumber 16 (some 4) true 65536 t with
        | some (n, u) => readGroups limit (UInt16.ofNat n :: done) u
        | none => ((done.reverse, false), s)

/-- Reads eight groups; two colons stand for the zero groups that are missing. -/
def readV6 (s : Bytes) : Option (List UInt16 × Bytes) := do
  let ((head, dotted), s) := readGroups 8 [] s
  if head.length = 8 then return (head, s)
  if dotted then none
  let s ← expect 0x3A (← expect 0x3A s)
  let ((tail, _), s) := readGroups (7 - head.length) [] s
  return (head ++ List.replicate (8 - head.length - tail.length) 0 ++ tail, s)

/-- Reads a colon and a port. -/
def readPort (s : Bytes) : Option (UInt16 × Bytes) := do
  let (n, s) ← readNumber 10 none true 65536 (← expect 0x3A s)
  return (UInt16.ofNat n, s)

/-- Reads a host of the first kind and a port. -/
def readDotted (s : Bytes) : Option (Address × Bytes) := do
  let ((a, b, c, d), s) ← readV4 s
  let (port, s) ← readPort s
  return (⟨.v4 a b c d, 0, port⟩, s)

/-- Reads a zone, if there is one. -/
def readZone (s : Bytes) : UInt32 × Bytes :=
  match (expect 0x25 s).bind (readNumber 10 none true (Nat.pow 2 32)) with
  | some (n, s) => (UInt32.ofNat n, s)
  | none => (0, s)

/-- Reads a host of the second kind in brackets and a port. -/
def readBracketed (s : Bytes) : Option (Address × Bytes) := do
  let (groups, s) ← readV6 (← expect 0x5B s)
  let (zone, s) := readZone s
  let (port, s) ← readPort (← expect 0x5D s)
  return (⟨.v6 groups, zone, port⟩, s)

/-- Reads an address. -/
def parse? (s : Bytes) : Option Address :=
  match readDotted s with
  | some (address, []) => some address
  | _ =>
    match readBracketed s with
    | some (address, []) => some address
    | _ => none

/-- The first longest run of zero groups: where it starts and how long it is. -/
def longestZeros (groups : List UInt16) : Nat × Nat :=
  let runs := (List.range groups.length).map fun i =>
    (i, ((groups.drop i).takeWhile (· == 0)).length)
  runs.foldl (fun best run => if best.2 < run.2 then run else best) (0, 0)

/-- Groups between colons. -/
def showGroups (groups : List UInt16) : String :=
  ":".intercalate (groups.map fun g => Text.lowerHex g.toNat)

/-- Four numbers between points. -/
def showV4 (a b c d : UInt8) : String :=
  s!"{a.toNat}.{b.toNat}.{c.toNat}.{d.toNat}"

/-- A host of the second kind. One that stands for a host of the first kind shows it. -/
def showV6 (groups : List UInt16) : String :=
  match groups with
  | [0, 0, 0, 0, 0, 0xFFFF, high, low] =>
    "::ffff:" ++ showV4 (high / 256).toUInt8 high.toUInt8 (low / 256).toUInt8 low.toUInt8
  | groups =>
    let (start, length) := longestZeros groups
    if 1 < length then
      showGroups (groups.take start) ++ "::" ++ showGroups (groups.drop (start + length))
    else showGroups groups

end Address

/-- A host in text. -/
def Host.describe : Host → String
  | .v4 a b c d => Address.showV4 a b c d
  | .v6 groups => Address.showV6 groups

/-- An address in text. -/
def Address.describe (a : Address) : String :=
  match a.host with
  | .v4 _ _ _ _ => s!"{a.host.describe}:{a.port.toNat}"
  | .v6 _ =>
    let zone := if a.zone = 0 then "" else s!"%{a.zone.toNat}"
    s!"[{a.host.describe}{zone}]:{a.port.toNat}"

end RestGateway
