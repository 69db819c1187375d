/-!
# What readers of messages expect

Readers of messages, from whatever format, report a value of the wrong type with the type that the
field has.
-/

namespace RestGateway

/-- What was expected. -/
inductive Expected
  | text
  | integer
  | sequence
  | record (name : String)
deriving Repr, DecidableEq

/-- What was expected, in words. -/
def Expected.describe : Expected → String
  | .text => "a string"
  | .integer => "i64"
  | .sequence => "a sequence"
  | .record name => s!"struct {name}"

end RestGateway
