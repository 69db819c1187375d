import RestGateway.Message.Schema
import RestGateway.Pieces
import RestGateway.Text.Percent

/-!
# Writing query strings

A record of scalars is written as a query string with one pair for each field that is set: the name
of the field, an equals sign, and the text of its value with escapes. Readers do not care about the
order of the pairs.
-/

namespace RestGateway.Query

/-- The text of a value that is set. -/
def setText? : (k : Scalar) → k.Value → Option String
  | .text, (s : String) => if s = "" then none else some s
  | .optionalText, s => s
  | .optionalInt, n => Option.map (fun n : Int64 => toString n.toInt) n

/-- The names of the fields that are set, each with the text of its value. -/
def setFields : {fs : List (Field Scalar)} → Record Scalar.Value fs → List (String × String)
  | [], _ => []
  | f :: _, (v, vs) => ((setText? f.kind v).map (f.name, ·)).toList ++ setFields vs

/-- Writes a name and a value. -/
def writePair (p : String × String) : Bytes := Utf8.encode p.1 ++ 0x3D :: Percent.encodeText p.2

/-- Writes pairs of names and values in their order. -/
def write (ps : List (String × String)) : Bytes := joined 0x26 (ps.map writePair)

end RestGateway.Query
