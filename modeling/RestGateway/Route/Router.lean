import RestGateway.Route.Table
import RestGateway.Text.Utf8

/-!
# Routers

A router picks the path that a request belongs to. A literal matches the segment that it spells, a
variable any segment that is not empty, and where both match the literal is tried first. What comes
behind it decides whether the variable is tried at all: a choice that leads nowhere is taken back.
-/

namespace RestGateway

/-- Paths that can be told apart: no two templates differ in names of variables only. -/
structure Router where
  paths : List Path
  distinct : (paths.map fun p => p.template.shape).Nodup

/-- The values of variables as they are written in the path of a request. -/
abbrev Captures := List (String × Bytes)

namespace Router

/-- The router of a table, if its paths can be told apart. -/
def ofTable? (t : Table) : Option Router :=
  if h : (t.paths.map fun p => p.template.shape).Nodup then some ⟨t.paths, h⟩ else none

/-- The segments of the path of a request; a path has to start with a slash. -/
def segments? : Bytes → Option (List Bytes)
  | [] => none
  | b :: rest =>
    if b != 0x2F then none
    else if rest.isEmpty then some []
    else some (pieces 0x2F rest)

/-- A path with the segments of its template that are not matched yet. -/
structure Candidate where
  left : List Segment
  path : Path

namespace Candidate

/-- The candidate behind a literal that spells a segment. -/
def pastLiteral? (piece : Bytes) (c : Candidate) : Option Candidate :=
  match c.left with
  | .literal s :: left => if Utf8.encode s = piece then some { c with left } else none
  | _ => none

/-- The candidate behind a variable. -/
def pastVariable? (c : Candidate) : Option Candidate :=
  match c.left with
  | .variable _ :: left => some { c with left }
  | _ => none

end Candidate

/-- The candidate that matches the segments, literals first. -/
def choose : List Candidate → List Bytes → Option Path
  | cs, [] => (cs.find? fun c => c.left.isEmpty).map Candidate.path
  | cs, piece :: rest =>
    if cs.isEmpty then none
    else match choose (cs.filterMap (Candidate.pastLiteral? piece)) rest with
      | some p => some p
      | none =>
        if piece.isEmpty then none else choose (cs.filterMap Candidate.pastVariable?) rest

/-- The values of the variables of a template that matches the segments. -/
def captures : List Segment → List Bytes → Captures
  | .variable name :: left, piece :: rest => (name, piece) :: captures left rest
  | .literal _ :: left, _ :: rest => captures left rest
  | _, _ => []

/-- The path that a request belongs to, and the values of its variables. -/
def find? (router : Router) (path : Bytes) : Option (Path × Captures) := do
  let segments ← segments? path
  let p ← choose (router.paths.map fun p => ⟨p.template.segments, p⟩) segments
  return (p, captures p.template.segments segments)

end Router

end RestGateway
