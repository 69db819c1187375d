import RestGateway.Pieces
import RestGateway.Text.Quoted

/-!
# Path templates

A template is a slash and segments between slashes. A segment is a literal or a variable in braces,
and no variable occurs twice.
-/

namespace RestGateway

/-- One segment of a template. -/
inductive Segment
  | literal (s : String)
  | variable (name : String)
deriving Repr, DecidableEq

/-- A path template. -/
structure Template where
  segments : List Segment
deriving Repr, DecidableEq

/-- The text of a segment. -/
def Segment.text : Segment → String
  | .literal s => s
  | .variable name => "\x7b" ++ name ++ "\x7d"

namespace Template

/-- Why a text is no template. -/
inductive Fault
  | missingLeadingSlash
  | emptySegment (position : Nat)
  | invalidVariable (piece : String)
  | duplicateVariable (name : String)
  | wildcard (piece : String)
deriving Repr, DecidableEq

/-- The fault in words. -/
def Fault.message : Fault → String
  | .missingLeadingSlash => "pattern must start with '/'"
  | .emptySegment position => s!"empty segment at position {position}"
  | .invalidVariable piece => s!"invalid variable {Text.quoted piece}"
  | .duplicateVariable name => s!"variable {Text.quoted name} appears more than once"
  | .wildcard piece => s!"wildcard segment {Text.quoted piece} is not supported"

/-- Names of variables: ASCII letters, digits and underscores, no digit in front. -/
def isName : List Char → Bool
  | [] => false
  | c :: rest => (c.isAlpha || c == '_') && rest.all fun c => c.isAlphanum || c == '_'

/-- Reads the piece between two slashes. Braces are allowed around a whole piece only, and a colon
may not stand in front. -/
def readSegment (position : Nat) (piece : List Char) : Except Fault Segment :=
  let text := String.ofList piece
  if piece.isEmpty then .error (.emptySegment position)
  else if piece.contains '*' then .error (.wildcard text)
  else if piece.head? = some '{' then
    if piece.getLast? = some '}' && isName piece.tail.dropLast then
      .ok (.variable (String.ofList piece.tail.dropLast))
    else .error (.invalidVariable text)
  else if piece.contains '{' || piece.contains '}' || piece.head? = some ':' then
    .error (.invalidVariable text)
  else .ok (.literal text)

/-- Reads pieces from a position on. `seen` holds the variables in front of it. -/
def readSegments (position : Nat) (seen : List String) :
    List (List Char) → Except Fault (List Segment)
  | [] => .ok []
  | piece :: rest =>
    match readSegment position piece with
    | .error f => .error f
    | .ok (.literal s) => (readSegments (position + 1) seen rest).map (.literal s :: ·)
    | .ok (.variable name) =>
      if seen.contains name then .error (.duplicateVariable name)
      else (readSegments (position + 1) (name :: seen) rest).map (.variable name :: ·)

/-- Reads a template. A slash alone has no segments. -/
def parse (s : String) : Except Fault Template :=
  match s.toList with
  | '/' :: rest =>
    if rest.isEmpty then .ok ⟨[]⟩
    else (readSegments 0 [] (pieces '/' rest)).map Template.mk
  | _ => .error .missingLeadingSlash

/-- The text of a template. -/
def text (t : Template) : String :=
  "/" ++ String.ofList (joined '/' (t.segments.map fun segment => segment.text.toList))

end Template

/-- The names of the variables, in the order of the path. -/
def Template.variables (t : Template) : List String :=
  t.segments.filterMap fun
    | .variable name => some name
    | .literal _ => none

/-- The segments without the names of the variables. -/
def Template.shape (t : Template) : List (Option String) :=
  t.segments.map fun
    | .variable _ => none
    | .literal s => some s

end RestGateway
