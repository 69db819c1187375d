import RestGateway.Proofs.Dispatch.Refusal
import RestGateway.Proofs.Race.Polling

/-!
# How a request in flight ends

A request whose call was made is a task: the call is polled inside its time limit, and both before
the cancellation of the request is looked at. The response follows from the way this task ends.
-/

namespace RestGateway

open Race

namespace Answering

variable {rpc : Rpc}

/-- The answer as it is polled: its time has to pass, and then it may watch the cancellation. -/
def poll (a : Answering rpc) (cancel : Option Duration) : Task Ending := fun now =>
  if a.hangs then none
  else if now < a.delay.nanos then none
  else if a.awaitsCancel then Task.alarm cancel .answered now
  else some .answered

/-- The answer with its time limit, and the cancellation of its request behind them. -/
def flight (a : Answering rpc) (deadline cancel : Option Duration) : Task Ending :=
  ((a.poll cancel).first (Task.alarm deadline .expired)).first (Task.alarm cancel .canceled)

/-- An answer is given when its time has passed and what it watches for has come. -/
theorem poll_eq_alarm (a : Answering rpc) (cancel : Option Duration) :
    a.poll cancel = Task.alarm (a.ready cancel) .answered := by
  funext now
  unfold poll ready
  by_cases hh : a.hangs = true
  · simp [hh, Task.alarm]
  · by_cases hw : a.awaitsCancel = true
    · cases cancel with
      | none => simp [hh, hw, Task.alarm]
      | some c =>
          have hmax : Nat.max a.delay.nanos c.nanos ≤ now ↔
              ¬ now < a.delay.nanos ∧ c.nanos ≤ now := by
            rw [not_lt]
            exact Nat.max_le
          by_cases hd : now < a.delay.nanos
          · simp [hh, hw, Task.alarm, hmax, hd]
          · simp [hh, hw, Task.alarm, hmax, hd]
    · by_cases hd : now < a.delay.nanos
      · simp [hh, hw, Task.alarm, hd]
      · simp [hh, hw, Task.alarm, hd, not_lt.mp hd]

/-- An answer that already watches the cancellation is there when it comes. -/
theorem time_ready_of_watching {a : Answering rpc} {cancel : Option Duration}
    (hh : a.hangs = false) (hw : a.awaitsCancel = true) (hd : time (some a.delay) ≤ time cancel) :
    time (a.ready cancel) = time cancel := by
  unfold ready
  cases cancel with
  | none => simp [hh, hw]
  | some c =>
      have hle : a.delay.nanos ≤ c.nanos := by simpa using hd
      simp [hh, hw, hle]

theorem flight_eq_task (a : Answering rpc) (deadline cancel : Option Duration) :
    a.flight deadline cancel = Race.task ⟨a.ready cancel, deadline, cancel⟩ := by
  rw [flight, poll_eq_alarm, Race.task]

end Answering

namespace CompiledRoute

variable {rpc : Rpc} {route : CompiledRoute rpc} {limits : Limits} {captures : Option Captures}
  {r : Request}

/-- What becomes of a request whose call returns a result, by the way it ends. -/
def conclude (route : CompiledRoute rpc) (result : Except Status (Reply rpc)) : Ending → Outcome
  | .answered => .response (route.respondTo result)
  | .expired => .response Failure.deadlineExceeded.response
  | .canceled => .response Failure.canceled.response
  | .pending => .pending

/-- A call whose limit can be written ends as the race of its three moments. A result that breaks
the rules of its channel is given up. -/
theorem perform_of_metadata? {target : Target} {o : Order rpc} {cancel : Option Duration}
    {metadata : Headers} (hm : metadata? r o.deadline = some metadata) :
    let attempt := target.invoke rpc o.message metadata cancel
    let race : Race := ⟨attempt.ready, o.deadline, cancel⟩
    let e := route.perform target r o cancel
    e.outcome = (if race.ending = .answered ∧ attempt.broken = true then .abandoned
      else route.conclude attempt.result race.ending) ∧ e.ended = race.moment? := by
  intro attempt race e
  simp only [e, race, attempt, perform, hm, and_true]
  generalize Race.ending _ = ending
  cases ending with
  | answered => simp [conclude]
  | expired => simp [conclude]
  | canceled => simp [conclude]
  | pending => simp [conclude]

/-- A result that comes first makes the response. -/
theorem perform_of_answered {target : Target} {o : Order rpc} {cancel : Option Duration}
    {metadata : Headers} (hm : metadata? r o.deadline = some metadata)
    (hfirst : AnswersFirst ⟨(target.invoke rpc o.message metadata cancel).ready, o.deadline, cancel⟩)
    (hbroken : (target.invoke rpc o.message metadata cancel).broken = false) :
    (route.perform target r o cancel).outcome =
      .response (route.respondTo (target.invoke rpc o.message metadata cancel).result) := by
  rw [(perform_of_metadata? hm).1, ending_eq_answered_iff.mpr hfirst, if_neg (by simp [hbroken])]
  rfl

/-- A call that nothing cancels and that has not returned when its limit passes fails with it. -/
theorem perform_of_expired {target : Target} {o : Order rpc} {d : Duration} {metadata : Headers}
    (hm : metadata? r o.deadline = some metadata) (hd : o.deadline = some d)
    (hlate : time (some d) < time (target.invoke rpc o.message metadata none).ready) :
    (route.perform target r o none).outcome = .response Failure.deadlineExceeded.response := by
  have hending : Race.ending ⟨(target.invoke rpc o.message metadata none).ready, o.deadline,
      none⟩ = .expired := by
    rw [hd]
    apply ending_eq_expired
    · rw [ne_eq, ending_eq_answered_iff]
      exact fun hfirst => hfirst.2.1.not_gt hlate
    · exact ENat.natCast_lt_top _
  rw [(perform_of_metadata? hm).1, hending, if_neg (by simp)]
  rfl

/-- A call waits forever exactly if none of the three moments comes. -/
theorem perform_pending_iff {target : Target} {o : Order rpc} {cancel : Option Duration} :
    (route.perform target r o cancel).outcome = .pending ↔
      cancel = none ∧ o.deadline = none ∧
        (target.invoke rpc o.message (Metadata.annotate r) none).ready = none := by
  have hunlimited (hd : o.deadline = none) :
      metadata? r o.deadline = some (Metadata.annotate r) := by rw [hd]; rfl
  cases hm : metadata? r o.deadline with
  | none =>
      refine iff_of_false (by simp [perform, hm]) ?_
      rintro ⟨_, hd, _⟩
      cases hm.symm.trans (hunlimited hd)
  | some metadata =>
      have hpending : (route.perform target r o cancel).outcome = .pending ↔
          Race.ending ⟨(target.invoke rpc o.message metadata cancel).ready, o.deadline, cancel⟩ =
            .pending := by
        rw [(perform_of_metadata? hm).1]
        generalize Race.ending _ = ending
        cases ending with
        | answered => split <;> simp [conclude]
        | expired => simp [conclude]
        | canceled => simp [conclude]
        | pending => simp [conclude]
      rw [hpending, ending_eq_pending_iff]
      simp only [time_eq_top_iff]
      constructor
      · rintro ⟨hready, hd, rfl⟩
        cases hm.symm.trans (hunlimited hd)
        exact ⟨rfl, hd, hready⟩
      · rintro ⟨rfl, hd, hready⟩
        cases hm.symm.trans (hunlimited hd)
        exact ⟨hready, hd, rfl⟩

/-- A request that was read waits for a call that never returns, and has no limit. -/
def Waits (route : CompiledRoute rpc) (limits : Limits) (target : Target)
    (captures : Option Captures) (r : Request) : Prop :=
  r.method = route.method ∧ ∃ o, route.order limits captures r = .ok o ∧ o.deadline = none ∧
    (target.invoke rpc o.message (Metadata.annotate r) none).ready = none

theorem serve_pending_iff {target : Target} {cancel : Option Duration} :
    (route.serve limits target captures r cancel).outcome = .pending ↔
      cancel = none ∧ route.Waits limits target captures r := by
  obtain ⟨hm, he⟩ | ⟨hm, ⟨f, ho, he⟩ | ⟨o, ho, he⟩⟩ :=
    serve_cases route limits target captures r cancel
  · rw [he]
    exact iff_of_false Outcome.noConfusion fun h => hm h.2.1
  · rw [he]
    refine iff_of_false Outcome.noConfusion ?_
    rintro ⟨_, _, o, ho', _⟩
    cases ho.symm.trans ho'
  · rw [he, perform_pending_iff]
    constructor
    · rintro ⟨hcancel, hd, hready⟩
      exact ⟨hcancel, hm, o, ho, hd, hready⟩
    · rintro ⟨hcancel, _, o', ho', hd, hready⟩
      cases ho.symm.trans ho'
      exact ⟨hcancel, hd, hready⟩

/-- A call that a service of the same process sees ends as the race of its three moments. -/
theorem perform_inProcess_of_calls {o : Order rpc} {service : Service} {cancel : Option Duration}
    (h : (route.perform (.inProcess service) r o cancel).calls ≠ []) :
    let race : Race := ⟨(service.next rpc).ready cancel, o.deadline, cancel⟩
    (route.perform (.inProcess service) r o cancel).outcome =
        route.conclude (service.next rpc).result race.ending ∧
      (route.perform (.inProcess service) r o cancel).ended = race.moment? := by
  intro race
  cases hm : metadata? r o.deadline with
  | none =>
      simp only [perform, hm] at h
      exact absurd rfl h
  | some metadata =>
      obtain ⟨hout, hend⟩ :=
        @perform_of_metadata? _ route r (.inProcess service) o cancel metadata hm
      refine ⟨hout.trans (if_neg ?_), hend⟩
      rintro ⟨_, hbroken⟩
      cases hbroken

/-- A request that a service of the same process sees was read, so its limit is known. -/
theorem order_of_serve_calls {target : Target} {cancel : Option Duration}
    (h : (route.serve limits target captures r cancel).calls ≠ []) :
    ∃ o client, Deadline.ofHeaders r.headers = .ok client ∧
      o.deadline = Deadline.effective limits.timeout client ∧
      route.serve limits target captures r cancel = route.perform target r o cancel := by
  obtain ⟨_, he⟩ | ⟨_, ⟨_, _, he⟩ | ⟨o, ho, he⟩⟩ :=
    serve_cases route limits target captures r cancel
  · rw [he] at h
    exact absurd rfl h
  · rw [he] at h
    exact absurd rfl h
  · obtain ⟨_, client, _, _, hc, hd⟩ := order_eq_ok_iff.mp ho
    exact ⟨o, client, hc, hd, he⟩

/-- A request that a service of the same process sees ends as its task does when it is polled. It is
answered with the result of its call exactly if the call needs no waiting, or if the result is there
before the deadline and not after the cancellation. Otherwise the earlier one of the two decides the
response. A result that needs no waiting does not depend on either, and a call that already watches
the cancellation when it comes before the deadline returns its own result. -/
theorem serve_inProcess_ends {service : Service} {cancel : Option Duration}
    (h : (route.serve limits (.inProcess service) captures r cancel).calls ≠ []) :
    ∃ client ending, Deadline.ofHeaders r.headers = .ok client ∧
      let e := route.serve limits (.inProcess service) captures r cancel
      let a := service.next rpc
      let deadline := Deadline.effective limits.timeout client
      let F := time (a.ready cancel)
      let D := time deadline
      let C := time cancel
      Ends (a.flight deadline cancel) ending e.ended ∧
      e.outcome = route.conclude a.result ending ∧
      ((F = D → F = ⊤) → (ending = .answered ↔ F = 0 ∨ F < D ∧ F ≤ C)) ∧
      (ending ≠ .answered → D < C → ending = .expired ∧
        ∃ p, e.outcome = .response p ∧ p.status = 504 ∧ p.body = Utf8.encode
          "\x7b\"code\":4,\"message\":\"context deadline exceeded\",\"details\":[]\x7d") ∧
      (ending ≠ .answered → C < D → ending = .canceled ∧
        ∃ p, e.outcome = .response p ∧ p.status = 408 ∧ p.body = Utf8.encode
          "\x7b\"code\":1,\"message\":\"context canceled\",\"details\":[]\x7d") ∧
      (ending = .pending ↔ F = ⊤ ∧ D = ⊤ ∧ C = ⊤) ∧
      (a.hangs = false → a.awaitsCancel = false → a.delay = ⟨0⟩ →
        e.outcome = .response (route.respondTo a.result)) ∧
      (a.hangs = false → a.awaitsCancel = true → time (some a.delay) ≤ C → C < D →
        e.outcome = .response (route.respondTo a.result)) := by
  obtain ⟨o, client, hc, hd, hs⟩ := order_of_serve_calls h
  rw [hs] at h
  obtain ⟨hout, hend⟩ := perform_inProcess_of_calls h
  rw [hd, ← hs] at hout hend
  let race : Race :=
    ⟨(service.next rpc).ready cancel, Deadline.effective limits.timeout client, cancel⟩
  refine ⟨client, race.ending, hc, ?_⟩
  intro e a deadline F D C
  have hanswered : race.ending = .answered → e.outcome = .response (route.respondTo a.result) :=
    fun he => hout.trans (congrArg (route.conclude a.result) he)
  refine ⟨?_, hout, @ending_eq_answered_iff_of_ne race, ?_, ?_, @ending_eq_pending_iff race, ?_,
    ?_⟩
  · rw [Answering.flight_eq_task]
    exact hend ▸ ends_task race
  · intro hna hDC
    have he : race.ending = .expired := ending_eq_expired hna hDC
    exact ⟨he, _, hout.trans (congrArg (route.conclude a.result) he), rfl, by decide⟩
  · intro hna hCD
    have he : race.ending = .canceled := ending_eq_canceled hna hCD
    exact ⟨he, _, hout.trans (congrArg (route.conclude a.result) he), rfl, by decide⟩
  · intro hh hw hdelay
    have hready : F = 0 := by
      simp [F, a, Answering.ready, hh, hw, hdelay]
    exact hanswered (ending_eq_answered_iff.mpr (answersFirst_of_time_eq_zero hready))
  · intro hh hw hdelay hCD
    have hready : F = C := Answering.time_ready_of_watching hh hw hdelay
    refine hanswered (ending_eq_answered_iff.mpr ?_)
    change F ≠ ⊤ ∧ F ≤ D ∧ F ≤ C
    rw [hready]
    exact ⟨hCD.ne_top, hCD.le, le_rfl⟩

/-- The route of readings of audits. -/
def readings : CompiledRoute .auditRead :=
  ⟨.get, ⟨[.literal "v1", .literal "audit", .variable "id"]⟩, .empty, [.named .auditRead "id"],
    .message⟩

/-- A reading of an audit with a limit of five milliseconds. -/
def limited : Request where
  method := .get
  uri := ⟨none, Utf8.encode "/v1/audit/7", none⟩
  headers := [⟨Deadline.name, Utf8.encode "5m"⟩]

/-- After one millisecond, readings wait for the cancellation and report it. -/
def watching : Service where
  answers
    | .auditRead => [⟨⟨1000000⟩, false, true, .error ⟨.aborted, "stopped", []⟩⟩]
    | _ => []

/-- Cancelled after two milliseconds, the reading reports what its service says. -/
theorem serve_watching :
    (readings.serve {} (.inProcess watching) (some [("id", [0x37])]) limited
      (some ⟨2000000⟩)).calls ≠ [] ∧
    (readings.serve {} (.inProcess watching) (some [("id", [0x37])]) limited
      (some ⟨2000000⟩)).outcome =
        .response (readings.respondTo (.error ⟨.aborted, "stopped", []⟩)) := by
  have hcalls : (readings.serve {} (.inProcess watching) (some [("id", [0x37])]) limited
      (some ⟨2000000⟩)).calls ≠ [] := List.ne_nil_of_length_pos (by decide)
  obtain ⟨client, ending, hc, h⟩ := serve_inProcess_ends hcalls
  have hclient : Deadline.ofHeaders limited.headers = .ok (some ⟨5000000⟩) := by decide
  cases hclient.symm.trans hc
  refine ⟨hcalls, h.2.2.2.2.2.2.2 rfl rfl ?_ ?_⟩
  · change time (some ⟨1000000⟩) ≤ time (some ⟨2000000⟩)
    exact Nat.cast_le.mpr (by decide)
  · change time (some ⟨2000000⟩) < time (some ⟨5000000⟩)
    exact Nat.cast_lt.mpr (by decide)

end CompiledRoute

end RestGateway
