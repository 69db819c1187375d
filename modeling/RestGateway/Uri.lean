import RestGateway.Text.Utf8

/-!
# Request targets

A target is a path with an optional query, or an authority in front of them, or an authority alone.
What follows a number sign is dropped.
-/

namespace RestGateway

/-- A request target. -/
structure Uri where
  /-- The host with its port, and the user in front of it. -/
  authority : Option Bytes := none
  path : Bytes
  query : Option Bytes := none
deriving Repr, DecidableEq

namespace Uri

/-- Bytes of a path. -/
def isPathByte (b : UInt8) : Bool :=
  b == 0x21 || b == 0x22 || (0x24 ≤ b && b ≤ 0x3B) || b == 0x3D || (0x40 ≤ b && b ≤ 0x5F)
    || (0x61 ≤ b && b ≤ 0x7E) || 0x80 ≤ b

/-- Bytes of a query. -/
def isQueryByte (b : UInt8) : Bool :=
  b == 0x21 || (0x24 ≤ b && b ≤ 0x3B) || b == 0x3D || (0x3F ≤ b && b ≤ 0x7E) || 0x80 ≤ b

/-- Bytes of an authority: letters, digits, unreserved marks and delimiters. -/
def isAuthorityByte (b : UInt8) : Bool :=
  Ascii.isAlphanumeric b
    || [0x21, 0x24, 0x26, 0x27, 0x28, 0x29, 0x2A, 0x2B, 0x2C, 0x2D, 0x2E, 0x3A, 0x3B, 0x3D, 0x40,
      0x5B, 0x5D, 0x5F, 0x7E].contains b

/-- Bytes that end an authority. -/
def endsAuthority (b : UInt8) : Bool := b == 0x2F || b == 0x3F || b == 0x23

/-- Bytes of the name of a scheme: letters, digits, plus, minus, point and tilde. -/
def isSchemeByte (b : UInt8) : Bool :=
  Ascii.isAlphanumeric b || b == 0x2B || b == 0x2D || b == 0x2E || b == 0x7E

/-- Reads a path and a query. -/
def readTarget (s : Bytes) : Option (Bytes × Option Bytes) :=
  let (path, rest) := s.span fun b => b != 0x3F && b != 0x23
  if !path.all isPathByte then none
  else match rest with
    | 0x3F :: rest =>
      let query := rest.takeWhile (· != 0x23)
      if query.all isQueryByte then some (path, some query) else none
    | _ => some (path, none)

/-- What the bytes of an authority in front of a place were: colons that may introduce a port,
brackets, and a percent sign that was not in a user or in brackets. -/
structure AuthorityState where
  colons : Nat := 0
  opened : Bool := false
  closed : Bool := false
  percent : Bool := false

/-- One byte further, if it may stand there. -/
def AuthorityState.step (state : AuthorityState) (b : UInt8) : Option AuthorityState :=
  if b == 0x3A then
    if 8 ≤ state.colons then none else some { state with colons := state.colons + 1 }
  else if b == 0x5B then
    if state.percent || state.opened then none else some { state with opened := true }
  else if b == 0x5D then
    if !state.opened || state.closed then none
    else some { state with closed := true, colons := 0, percent := false }
  else if b == 0x40 then some { state with colons := 0, percent := false }
  else if b == 0x25 then some { state with percent := true }
  else if isAuthorityByte b then some state
  else none

/-- The bytes are an authority, or none. -/
def isAuthority (s : Bytes) : Bool :=
  match s.foldlM AuthorityState.step {} with
  | none => false
  | some state =>
    state.opened == state.closed && state.colons ≤ 1 && s.getLast? != some 0x40
      && !state.percent

/-- The separator between a scheme and an authority. -/
def schemeMark : Bytes := [0x3A, 0x2F, 0x2F]

/-- What stands behind a scheme: nothing if there is no scheme, and a fault if its name is too
long. -/
def afterScheme (s : Bytes) : Except Unit (Option Bytes) :=
  let (scheme, rest) := s.span isSchemeByte
  if schemeMark.isPrefixOf rest && 3 < s.length then
    if 64 < scheme.length then .error () else .ok (some (rest.drop 3))
  else .ok none

/-- Reads a target. -/
def parse? (s : Bytes) : Option Uri :=
  if s.isEmpty || 65534 < s.length then none
  else if s == [0x2A] then some ⟨none, s, none⟩
  else if s.head? = some 0x2F then (readTarget s).map fun (path, query) => ⟨none, path, query⟩
  else match afterScheme s with
    | .error () => none
    | .ok none =>
      if isAuthority s && !s.any endsAuthority then some ⟨some s, [], none⟩ else none
    | .ok (some rest) =>
      let (authority, rest) := rest.span fun b => !endsAuthority b
      if authority.isEmpty || !isAuthority authority then none
      else (readTarget rest).map fun (path, query) =>
        ⟨some authority, if path.isEmpty then [0x2F] else path, query⟩

end Uri

end RestGateway
