import RestGateway.Deadline

/-!
# The race between an answer, a deadline and a cancellation

A request that waits for an answer ends with the first of three events: the answer is there, the
deadline passes, or the request is cancelled. At equal moments the answer comes first, then the
deadline. Moments are counted from the start of the request.
-/

namespace RestGateway

/-- How a request that waits for an answer ends. -/
inductive Ending
  | answered
  | expired
  | canceled
  /-- None of the three events ever happens. -/
  | pending
deriving Repr, DecidableEq

/-- The moments of the three events; `none` is a moment that never comes. -/
structure Race where
  answer : Option Duration
  deadline : Option Duration
  cancel : Option Duration
deriving Repr, DecidableEq

namespace Race

/-- The first moment does not come after the second. -/
def notAfter (d : Duration) : Option Duration → Bool
  | none => true
  | some e => d.nanos ≤ e.nanos

/-- What happens until a moment happens before the deadline and the cancellation. -/
def inTime (r : Race) (d : Duration) : Bool := notAfter d r.deadline && notAfter d r.cancel

/-- How the request ends if the answer does not come in time. -/
def interruption (r : Race) : Ending :=
  match r.deadline, r.cancel with
  | some d, cancel => if notAfter d cancel then .expired else .canceled
  | none, some _ => .canceled
  | none, none => .pending

/-- How the request ends. -/
def ending (r : Race) : Ending :=
  match r.answer with
  | some a => if r.inTime a then .answered else r.interruption
  | none => r.interruption

/-- The moment at which the request ends, if it does. -/
def moment? (r : Race) : Option Duration :=
  match r.ending with
  | .answered => r.answer
  | .expired => r.deadline
  | .canceled => r.cancel
  | .pending => none

end Race

end RestGateway
