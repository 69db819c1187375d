import RestGateway.Proofs.Dispatch.Answers
import RestGateway.Proofs.Gateway.Forwarding
import RestGateway.Session

/-!
# A connection is closed once

Whoever closes a shared connection first finds it open, and from then on everyone finds it closed.
What becomes of a request depends on what it found when it reached the target. What happens between
that moment and its answer does not matter, and what keeps a request from the target is reported as
without a connection.
-/

namespace RestGateway

namespace Connection

theorem afterCalls_nil (c : Connection) : c.afterCalls [] = c := by
  obtain ⟨endpoint, channel, isClosed, followsCancel⟩ := c
  cases channel with
  | toService service => rfl
  | unreachable reason => rfl

theorem afterCalls_endpoint (c : Connection) (calls : List Call) :
    (c.afterCalls calls).endpoint = c.endpoint := by
  unfold afterCalls
  split <;> rfl

theorem afterCalls_channel {c : Connection} {service : Service}
    (hc : c.channel = .toService service) (calls : List Call) :
    (c.afterCalls calls).channel = .toService (service.afterCalls calls) := by
  simp only [afterCalls, hc]

/-- Calls of a connection add up, whether it was closed in between or not. -/
theorem afterCalls_append (c : Connection) (calls more : List Call) (closed : Bool) :
    Connection.afterCalls { c.afterCalls calls with isClosed := closed } more =
      { c.afterCalls (calls ++ more) with isClosed := closed } := by
  cases hc : c.channel with
  | toService service => simp [afterCalls, hc, Service.afterCalls]
  | unreachable reason => simp [afterCalls, hc]

end Connection

/-- A request that found the connection closed or not, and the gateway cancelled or not, is answered
as it has to be. -/
structure Front.Answers (front : Front) (limits : Limits) (c : Connection) (r : Request)
    (closed canceled : Bool) (e : Exchange) : Prop where
  /-- What keeps a request from the target is reported alike whatever the target is. -/
  refused : front.call? limits r = none →
    ∀ target cancel, front.serve limits target r cancel = e
  /-- A request that reaches a closed connection is unavailable, and the service is not called. -/
  unavailable : closed = true → ∀ call, front.call? limits r = some call → e.calls = [] ∧
    ∃ p, e.outcome = .response p ∧ p.status = 503 ∧ p.body =
      Failure.body ⟨.unavailable, s!"connection to {c.endpoint} is closed", none⟩
  /-- A request that reaches an open connection is forwarded to the server, unless its call has no
  time for it. What the server can read, the service sees. -/
  forwarded : closed = false → canceled = false → ∀ call service,
    front.call? limits r = some call → c.channel = .toService service →
      Grpc.Client.limit? call.metadata ≠ some ⟨0⟩ →
        let received := Grpc.acrossConnection (Grpc.sanitized call.metadata)
        e.calls = (Grpc.Client.sent service call.rpc call.message call.metadata).calls ∧
          (received.get? Grpc.encodingName = none →
            (Wire.encode call.message).length ≤ Grpc.sizeLimit →
              e.calls = [⟨call.rpc, call.message, received⟩])

namespace Event

/-- What an event tells agrees with what happened before it. -/
def Lawful (front : Front) (limits : Limits) (c : Connection) (past : List Event) : Event → Prop
  | closed _ wasOpen => wasOpen = !past.any closes
  | told _ isClosed => isClosed = past.any closes
  | canceled => True
  | sent _ foundClosed foundCanceled =>
    foundClosed = past.any closes ∧ foundCanceled = past.any cancels
  | answered position _ e => ∃ r foundClosed foundCanceled,
    past[position]? = some (.sent r foundClosed foundCanceled) ∧
      front.Answers limits c r ((past.take position).any closes)
        ((past.take position).any cancels) e
  | nothing => True

end Event

namespace Session

variable {front : Front} {limits : Limits} {c : Connection} {s : Session}

/-- The connection of a session is the one that it started with, after some calls, and closed as
soon as somebody has closed it. All events are lawful. -/
structure Follows (front : Front) (limits : Limits) (c : Connection) (s : Session) : Prop where
  connection : ∃ calls,
    s.connection = { c.afterCalls calls with isClosed := s.trace.any Event.closes }
  canceled : s.canceled = s.trace.any Event.cancels
  lawful : ∀ (position : Nat) (event : Event), s.trace[position]? = some event →
    event.Lawful front limits c (s.trace.take position)

theorem start_follows (h : c.isClosed = false) : (start c).Follows front limits c where
  connection := by
    refine ⟨[], ?_⟩
    rw [c.afterCalls_nil]
    exact congrArg (fun closed => { c with isClosed := closed }) h
  canceled := rfl
  lawful position event hevent := by cases hevent

/-- A lawful event is recorded, with what it does to the connection and to the gateway. -/
theorem Follows.record (h : s.Follows front limits c) {event : Event}
    (hevent : event.Lawful front limits c s.trace) {connection : Connection} {canceled : Bool}
    (hconnection : ∃ calls, connection =
      { c.afterCalls calls with isClosed := s.trace.any Event.closes || event.closes })
    (hcanceled : canceled = (s.trace.any Event.cancels || event.cancels)) :
    (Session.record { connection, canceled, trace := s.trace } event).Follows front limits c where
  connection := by simpa [Session.record] using hconnection
  canceled := by simpa [Session.record] using hcanceled
  lawful position e he := by
    simp only [Session.record] at he ⊢
    rcases Nat.lt_trichotomy position s.trace.length with hlt | rfl | hgt
    · rw [List.getElem?_append_left hlt] at he
      rw [List.take_append_of_le_length hlt.le]
      exact h.lawful position e he
    · rw [List.getElem?_concat_length] at he
      cases he
      rwa [List.take_left]
    · have hlength : (s.trace ++ [event]).length ≤ position := by simpa using hgt
      rw [List.getElem?_eq_none hlength] at he
      cases he

/-- An event that changes nothing is recorded. -/
theorem Follows.record_same (h : s.Follows front limits c) {event : Event}
    (hevent : event.Lawful front limits c s.trace) (hcloses : event.closes = false)
    (hcancels : event.cancels = false) : (s.record event).Follows front limits c := by
  apply h.record hevent
  · rw [hcloses, Bool.or_false]
    exact h.connection
  · rw [hcancels, Bool.or_false]
    exact h.canceled

theorem Follows.isClosed_eq (h : s.Follows front limits c) :
    s.connection.isClosed = s.trace.any Event.closes := by
  obtain ⟨calls, hconnection⟩ := h.connection
  rw [hconnection]

theorem Follows.close (h : s.Follows front limits c) (holder : Holder) :
    (s.close holder).Follows front limits c := by
  have hevent : Event.Lawful front limits c s.trace (.closed holder !s.connection.isClosed) :=
    congrArg (!·) h.isClosed_eq
  apply h.record hevent
  · obtain ⟨calls, hconnection⟩ := h.connection
    refine ⟨calls, ?_⟩
    rw [hconnection, Event.closes, Bool.or_true]
  · rw [h.canceled]
    exact (Bool.or_false _).symm

/-- A gateway that was not cancelled does not cancel a request from the start. -/
theorem cancelMoment_ne_zero (cancelAfter : Option Duration) :
    Gateway.cancelMoment false cancelAfter ≠ some ⟨0⟩ := by
  cases cancelAfter with
  | none =>
      intro h
      cases h
  | some d =>
      intro h
      have hnanos : max d.nanos 1 = 0 := congrArg Duration.nanos (Option.some.inj h)
      omega

/-- A request is answered as what it found demands, whatever has happened since. -/
theorem Follows.answers (h : s.Follows front limits c) (r : Request) (closed canceled : Bool)
    (cancelAfter : Option Duration) :
    front.Answers limits c r closed canceled
      (front.serve limits (.remote { s.connection with isClosed := closed }) r
        (Gateway.cancelMoment canceled cancelAfter)) := by
  obtain ⟨calls, hconnection⟩ := h.connection
  rw [hconnection]
  constructor
  · intro hcall target cancel
    exact Front.serve_of_call?_eq_none hcall target _ cancel _
  · rintro rfl call hcall
    obtain ⟨hcalls, p, hp, hstatus, hbody⟩ := Front.serve_of_isClosed hcall
      (c := { c.afterCalls calls with isClosed := true }) rfl
      (Gateway.cancelMoment canceled cancelAfter)
    refine ⟨hcalls, p, hp, hstatus, hbody.trans ?_⟩
    rw [← c.afterCalls_endpoint calls]
    rfl
  · rintro rfl rfl call service hcall hchannel hlimit
    have hafter : Connection.channel { c.afterCalls calls with isClosed := false } =
        .toService (service.afterCalls calls) := Connection.afterCalls_channel hchannel calls
    rw [Front.serve_calls_of_isOpen hcall hafter rfl hlimit (cancelMoment_ne_zero cancelAfter)]
    constructor
    · exact Grpc.Client.sent_calls_eq _ _ _ _ _
    · exact Grpc.Client.sent_calls_of_readable _

theorem Follows.nothing (h : s.Follows front limits c) :
    (s.record .nothing).Follows front limits c := by
  apply h.record_same
  · exact True.intro
  · rfl
  · rfl

theorem Follows.watch (h : s.Follows front limits c) : s.watch.Follows front limits c := by
  unfold Session.watch
  split
  · exact h.close .watcher
  · exact h.nothing

theorem Follows.cancel (h : s.Follows front limits c) :
    (Session.record { s with canceled := true } .canceled).Follows front limits c := by
  apply h.record
  · exact True.intro
  · obtain ⟨calls, hconnection⟩ := h.connection
    exact ⟨calls, hconnection.trans (by simp [Event.closes])⟩
  · exact (Bool.or_true _).symm

theorem Follows.answer (h : s.Follows front limits c) (position : Nat)
    (cancelAfter : Option Duration) :
    (s.answer front limits position cancelAfter).Follows front limits c := by
  unfold Session.answer
  split
  · rename_i r foundClosed foundCanceled hsent
    split
    · exact h.nothing
    · obtain ⟨rfl, rfl⟩ := h.lawful position _ hsent
      apply h.record
      · exact ⟨r, _, _, hsent, h.answers r _ _ cancelAfter⟩
      · obtain ⟨calls, hconnection⟩ := h.connection
        simp only [Event.closes, Bool.or_false]
        rw [hconnection, Connection.afterCalls_append]
        exact ⟨_, rfl⟩
      · exact h.canceled.trans (Bool.or_false _).symm
  · exact h.nothing

/-- What one operation does is lawful, and leaves the session in step with its connection. -/
theorem Follows.step (h : s.Follows front limits c) (op : Operation) :
    (s.step front limits op).Follows front limits c := by
  cases op with
  | close holder =>
      cases holder with
      | caller clone => exact h.close (.caller clone)
      | watcher => exact h.watch
  | isClosed holder => exact h.record_same h.isClosed_eq rfl rfl
  | cancel => exact h.cancel
  | send r => exact h.record_same ⟨h.isClosed_eq, h.canceled⟩ rfl rfl
  | answer position cancelAfter => exact h.answer position cancelAfter

theorem Follows.run (h : s.Follows front limits c) (ops : List Operation) :
    (s.run front limits ops).Follows front limits c := by
  induction ops generalizing s with
  | nil => exact h
  | cons op rest ih => exact ih (h.step op)

/-- A request that is sent now is not answered yet. -/
theorem Follows.not_answered (h : s.Follows front limits c) :
    s.trace.any (Event.answers s.trace.length) = false := by
  refine List.any_eq_false.mpr fun event hevent => ?_
  obtain ⟨position, hposition⟩ := List.getElem?_of_mem hevent
  have hlawful := h.lawful position event hposition
  cases event with
  | answered sentAt cancelAfter e =>
      obtain ⟨r, _, _, hsent, _⟩ := hlawful
      have hlt : sentAt < (s.trace.take position).length :=
        (List.getElem?_eq_some_iff.mp hsent).1
      have hle : (s.trace.take position).length ≤ s.trace.length := List.length_take_le' _ _
      simpa [Event.answers] using (hlt.trans_le hle).ne
  | _ => exact Bool.false_ne_true

section Gateways

/-- A gateway sends its requests through the connection of a session. -/
structure IsOf (s : Session) (g : Gateway) : Prop where
  target : g.target = .remote s.connection
  canceled : g.canceled = s.canceled

variable {g : Gateway}

theorem IsOf.afterCalls (h : s.IsOf g) (calls : List Call) :
    g.target.afterCalls calls = .remote (s.connection.afterCalls calls) := by
  rw [h.target]
  cases hc : s.connection.channel with
  | toService service => simp only [Target.afterCalls, Connection.afterCalls, hc]
  | unreachable reason => simp only [Target.afterCalls, Connection.afterCalls, hc]

/-- A gateway closes its connection as any other holder does. -/
theorem IsOf.close (h : s.IsOf g) (clone : Nat) :
    (s.close (.caller clone)).IsOf g.close.2 ∧
      (s.close (.caller clone)).trace = s.trace ++ [.closed (.caller clone) g.close.1] := by
  unfold Gateway.close
  rw [h.target]
  exact ⟨⟨rfl, h.canceled⟩, rfl⟩

/-- A gateway that is cancelled is cancelled before the watcher closes its connection. -/
theorem IsOf.cancel (h : s.IsOf g) :
    (s.run front limits [.cancel, .close .watcher]).IsOf g.cancel := by
  have hwatch : s.run front limits [.cancel, .close .watcher] =
      (Session.record { s with canceled := true } .canceled).watch := rfl
  have htarget : g.cancel.target = (Target.remote s.connection).afterCancel :=
    congrArg Target.afterCancel h.target
  rw [hwatch, Session.watch]
  split
  · rename_i hfollows
    exact ⟨htarget.trans (if_pos hfollows), rfl⟩
  · rename_i hstays
    exact ⟨htarget.trans (if_neg hstays), rfl⟩

/-- A gateway that handles a request sends it and waits for the answer. If it is cancelled
meanwhile, the watcher sees it afterwards. -/
theorem IsOf.handle (h : s.IsOf g) (hw : s.Follows g.front g.limits c) (r : Request)
    (cancelAfter : Option Duration) :
    let s' := s.run g.front g.limits [.send r, .answer s.trace.length cancelAfter]
    s'.trace = s.trace ++ [.sent r s.connection.isClosed s.canceled,
      .answered s.trace.length cancelAfter (g.handle r cancelAfter).1] ∧
    (s'.IsOf (g.handle r cancelAfter).2 ∨
      (s'.run g.front g.limits [.cancel, .close .watcher]).IsOf (g.handle r cancelAfter).2) := by
  intro s'
  let e := g.front.serve g.limits g.target r (Gateway.cancelMoment g.canceled cancelAfter)
  have hs' : s' = ⟨s.connection.afterCalls e.calls, s.canceled,
      s.trace ++ [.sent r s.connection.isClosed s.canceled] ++
        [.answered s.trace.length cancelAfter e]⟩ := by
    have hany := hw.not_answered
    simp [s', e, Session.run, Session.step, Session.answer, Session.record, hany, h.target,
      h.canceled, Event.answers]
  have hafter : s'.IsOf { g with target := g.target.afterCalls e.calls } := by
    rw [hs']
    exact ⟨h.afterCalls e.calls, h.canceled⟩
  constructor
  · rw [hs', List.append_assoc]
    rfl
  · have hhandle : (g.handle r cancelAfter).2 =
        g.afterRequest (Gateway.cancelMoment g.canceled cancelAfter) e := rfl
    rw [hhandle, Gateway.afterRequest]
    split
    · exact Or.inr hafter.cancel
    · exact Or.inl hafter

end Gateways

/-- Whatever is done with the clones of an open connection, by whom and in which order, the first
close finds it open and every later one finds it closed, and whoever asks is told so. A request that
reached the connection before it was closed is forwarded to the server, even if the connection is
closed before it is answered, unless the gateway was cancelled by then or its call has a limit of
zero; a server that can read the call hands it to the service as one call. A request that reached it
later is unavailable, without a call. A request that does not reach it is answered as without a
connection. -/
theorem run_lawful (front : Front) (limits : Limits) {c : Connection} (hopen : c.isClosed = false)
    (ops : List Operation) {position : Nat} {event : Event}
    (h : ((start c).run front limits ops).trace[position]? = some event) :
    event.Lawful front limits c (((start c).run front limits ops).trace.take position) :=
  ((start_follows hopen).run ops).lawful position event h

/-- Greetings go through an open connection. -/
def toGreeter : Connection where
  endpoint := "http://localhost"
  channel := .toService .empty
  followsCancel := true

/-- A gateway that takes all requests for greetings. -/
def greetingFront : Front := .endpoint ⟨.ping, CompiledRoute.greetings⟩

/-- The connection is closed between the greeting and its answer, and a second greeting follows. -/
def interrupted : List Operation :=
  [.send CompiledRoute.greeting, .close (.caller 0), .send CompiledRoute.greeting,
    .answer 0 none, .answer 2 none, .close (.caller 1)]

theorem run_interrupted_lawful :
    let events := ((start toGreeter).run greetingFront {} interrupted).trace
    ∃ e e', events[3]? = some (.answered 0 none e) ∧ events[4]? = some (.answered 2 none e') ∧
      e.calls = [⟨.ping, {}, []⟩] ∧ e'.calls = [] ∧
      (∃ p, e'.outcome = .response p ∧ p.status = 503) ∧
      events[5]? = some (.closed (.caller 1) false) := by
  intro events
  obtain ⟨_, _, _, hsent, hfirst⟩ :=
    @run_lawful greetingFront {} toGreeter rfl interrupted 3 _ rfl
  obtain ⟨_, _, _, hsent', hsecond⟩ :=
    @run_lawful greetingFront {} toGreeter rfl interrupted 4 _ rfl
  cases hsent
  cases hsent'
  have hcall : greetingFront.call? {} CompiledRoute.greeting = some ⟨.ping, {}, []⟩ := rfl
  refine ⟨_, _, rfl, rfl, ?_, ?_, ?_, rfl⟩
  · exact (hfirst.forwarded rfl rfl _ .empty hcall rfl (by decide)).2 (by decide) (by decide)
  · exact (hsecond.unavailable rfl _ hcall).1
  · obtain ⟨p, hp, hstatus, _⟩ := (hsecond.unavailable rfl _ hcall).2
    exact ⟨p, hp, hstatus⟩

/-- A greeting with a limit of zero. -/
def hasty : Request :=
  { CompiledRoute.greeting with headers := [⟨Deadline.name, Utf8.encode "0n"⟩] }

/-- Not every request that reaches an open connection is forwarded: a limit of zero has passed
before. -/
theorem not_forwarded_of_open :
    ¬ ∀ (front : Front) (limits : Limits) (c : Connection) (service : Service)
        (ops : List Operation) (position sentAt : Nat) (cancelAfter : Option Duration)
        (e : Exchange) (r : Request) (call : Call),
      c.isClosed = false → c.channel = .toService service →
      ((start c).run front limits ops).trace[position]? =
        some (Event.answered sentAt cancelAfter e) →
      ((start c).run front limits ops).trace[sentAt]? = some (Event.sent r false false) →
      front.call? limits r = some call →
        e.calls = (Grpc.Client.sent service call.rpc call.message call.metadata).calls := by
  intro h
  have hcalls := h greetingFront {} toGreeter .empty [.send hasty, .answer 0 none] 1 0 none _ hasty
    _ rfl rfl rfl rfl rfl
  rw [Grpc.Client.sent_calls_of_readable _ (by decide) (by decide)] at hcalls
  cases hcalls

end Session

end RestGateway
