import RestGateway.Bytes

/-!
# Status codes of calls

Every call ends with one of seventeen codes. A code travels as its number, and it is reported to
HTTP clients with the status of `Code.httpStatus`.
-/

namespace RestGateway

/-- How a call ended. -/
inductive Code
  | ok
  | canceled
  | unknown
  | invalidArgument
  | deadlineExceeded
  | notFound
  | alreadyExists
  | permissionDenied
  | resourceExhausted
  | failedPrecondition
  | aborted
  | outOfRange
  | unimplemented
  | internal
  | unavailable
  | dataLoss
  | unauthenticated
deriving Repr, DecidableEq

namespace Code

/-- The codes in the order of their numbers. -/
def all : List Code :=
  [ok, canceled, unknown, invalidArgument, deadlineExceeded, notFound, alreadyExists,
    permissionDenied, resourceExhausted, failedPrecondition, aborted, outOfRange, unimplemented,
    internal, unavailable, dataLoss, unauthenticated]

/-- The number of a code. -/
def number : Code → Nat
  | ok => 0
  | canceled => 1
  | unknown => 2
  | invalidArgument => 3
  | deadlineExceeded => 4
  | notFound => 5
  | alreadyExists => 6
  | permissionDenied => 7
  | resourceExhausted => 8
  | failedPrecondition => 9
  | aborted => 10
  | outOfRange => 11
  | unimplemented => 12
  | internal => 13
  | unavailable => 14
  | dataLoss => 15
  | unauthenticated => 16

/-- The code with a number; a number that no code has is unknown. -/
def ofNumber (n : Int) : Code := if n < 0 then unknown else all.getD n.toNat unknown

theorem ofNumber_number (c : Code) : ofNumber c.number = c := by cases c <;> rfl

/-- The name of a code. -/
def name : Code → String
  | ok => "ok"
  | canceled => "canceled"
  | unknown => "unknown"
  | invalidArgument => "invalid_argument"
  | deadlineExceeded => "deadline_exceeded"
  | notFound => "not_found"
  | alreadyExists => "already_exists"
  | permissionDenied => "permission_denied"
  | resourceExhausted => "resource_exhausted"
  | failedPrecondition => "failed_precondition"
  | aborted => "aborted"
  | outOfRange => "out_of_range"
  | unimplemented => "unimplemented"
  | internal => "internal"
  | unavailable => "unavailable"
  | dataLoss => "data_loss"
  | unauthenticated => "unauthenticated"

/-- The HTTP status that a call with this code is answered with. -/
def httpStatus : Code → Nat
  | ok => 200
  | canceled => 408
  | unknown => 500
  | invalidArgument => 400
  | deadlineExceeded => 504
  | notFound => 404
  | alreadyExists => 409
  | permissionDenied => 403
  | resourceExhausted => 429
  | failedPrecondition => 400
  | aborted => 409
  | outOfRange => 400
  | unimplemented => 501
  | internal => 500
  | unavailable => 503
  | dataLoss => 500
  | unauthenticated => 401

end Code

end RestGateway
