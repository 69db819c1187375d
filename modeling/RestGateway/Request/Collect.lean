import RestGateway.Request.Body

/-!
# Bodies chunk by chunk

`Body.read` looks at a body as a whole. `Body.collect` is the same as a loop over what arrives: each
chunk is counted against the room that is left, and the first one that does not fit ends the loop
before anything behind it is asked for.
-/

namespace RestGateway

/-- What was collected of a body, and the room that is left for more. -/
structure Collector (limit : Nat) where
  bytes : Bytes
  room : Nat
  filled : bytes.length + room = limit

namespace Body

/-- How collecting a body ends. -/
inductive Ending
  /-- The stream came to its end. -/
  | whole (bytes : Bytes)
  /-- The stream broke off. -/
  | broken (fault : String)
  /-- A chunk did not fit. What comes behind it was not asked for. -/
  | overfull (unread : Body)
deriving Repr, DecidableEq

/-- What is answered at the end. -/
def Ending.answer (limit : Nat) : Ending → Except Failure Bytes
  | whole bytes => .ok bytes
  | broken fault => .error (.invalidArgument s!"failed to read request body: {fault}")
  | overfull _ => .error (.resourceExhausted s!"request body exceeds the {limit} byte limit")

end Body

namespace Collector

variable {limit : Nat}

/-- Nothing was collected yet. -/
def empty (limit : Nat) : Collector limit := ⟨[], limit, Nat.zero_add limit⟩

/-- Takes one more chunk, if there is room for it. -/
def take? (c : Collector limit) (chunk : Bytes) : Option (Collector limit) :=
  if h : chunk.length ≤ c.room then
    have filled : (c.bytes ++ chunk).length + (c.room - chunk.length) = limit := by
      have := c.filled
      rw [List.length_append]
      omega
    some ⟨c.bytes ++ chunk, c.room - chunk.length, filled⟩
  else none

/-- Takes chunk after chunk of a stream that ends with `fault`, if with any. -/
def collect (fault : Option String) (c : Collector limit) : List Bytes → Body.Ending
  | [] =>
    match fault with
    | some fault => .broken fault
    | none => .whole c.bytes
  | chunk :: rest =>
    match c.take? chunk with
    | some c => c.collect fault rest
    | none => .overfull ⟨rest, fault⟩

end Collector

/-- Collects a body up to a limit. -/
def Body.collect (b : Body) (limit : Nat) : Body.Ending :=
  (Collector.empty limit).collect b.fault b.chunks

end RestGateway
