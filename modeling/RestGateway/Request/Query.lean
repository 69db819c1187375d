import RestGateway.Failure
import RestGateway.Pieces
import RestGateway.Query.Record

/-!
# Messages from the query of a request

Before a query is decoded its pairs are checked one by one: every percent sign has to start an
escape, pairs whose key is rooted at a filtered name are dropped, and no other key may come twice.
-/

namespace RestGateway

namespace Query

/-- The pairs of a query; empty ones do not count. -/
def pairs (query : Bytes) : List Bytes := (pieces 0x26 query).filter fun pair => !pair.isEmpty

/-- The key of a pair as it is written: all in front of the first equals sign. -/
def keyOf (pair : Bytes) : Bytes := pair.takeWhile (· != 0x3D)

/-- The name that a key is rooted at: all in front of the first point or bracket. -/
def rootOf (key : Bytes) : Bytes := key.takeWhile fun b => b != 0x2E && b != 0x5B

/-- The start of a bad escape, as it is reported: three bytes if they are a text, else the percent
sign alone. -/
def shownEscape (tail : Bytes) : String := (Utf8.decode? (tail.take 3)).getD "%"

/-- Why a pair was refused. -/
inductive PairFault
  | badEscape (shown : String)
  | repeated (key : Bytes)
deriving Repr, DecidableEq

/-- The fault in words. -/
def PairFault.message : PairFault → String
  | .badEscape shown => s!"invalid URL escape {Text.quoted shown}"
  | .repeated key => "too many values for query parameter " ++ (Utf8.decode? key).getD ""

/-- The pairs that are kept, in order. `seen` holds the keys that were kept already. -/
def keep (filter : List Bytes) (seen : List Bytes) : List Bytes → Except PairFault (List Bytes)
  | [] => .ok []
  | pair :: rest =>
    match Percent.badEscape? pair with
    | some tail => .error (.badEscape (shownEscape tail))
    | none =>
      let key := keyOf pair
      if filter.contains (rootOf key) then keep filter seen rest
      else if seen.contains key then .error (.repeated key)
      else (keep filter (key :: seen) rest).map (pair :: ·)

end Query

/-- Reads a message from a query without the keys rooted at a name in `filter`. -/
def decodeQuery (α : Type) [Message α] (filter : List String) (query : Bytes) :
    Except Failure α :=
  match Query.keep (filter.map Utf8.encode) [] (Query.pairs query) with
  | .error f => .error (.invalidArgument f.message)
  | .ok kept =>
    let text := joined 0x26 kept
    (Query.decode α text).mapError fun f => .invalidArgument (f.message text)

end RestGateway
