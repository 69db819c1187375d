import RestGateway.Bindings
import RestGateway.Proofs.Dispatch.InFlight
import RestGateway.Proofs.Settings.Timeouts

/-!
# Which requests succeed

A response has the status of a success or that of an error. It is a success where the call of a
request returns in time and its reply can be written. A failure is an error unless it has the code
of a success, which a service can give to it, and so can a field that refuses its value.
-/

namespace RestGateway

open Race

namespace Code

theorem httpStatus_eq_iff (c : Code) : c.httpStatus = 200 ↔ c = .ok := by cases c <;> decide

theorem le_httpStatus {c : Code} (h : c ≠ .ok) : 400 ≤ c.httpStatus := by
  cases c with
  | ok => exact absurd rfl h
  | _ => decide

end Code

/-- A response is a success under a condition, and an error otherwise. -/
structure Response.Succeeds (p : Response) (condition : Prop) : Prop where
  success : p.status = 200 ↔ condition
  error : p.status ≠ 200 → 400 ≤ p.status

namespace Response.Succeeds

variable {p : Response} {condition condition' : Prop}

theorem congr (h : p.Succeeds condition) (hc : condition ↔ condition') : p.Succeeds condition' :=
  ⟨h.success.trans hc, h.error⟩

theorem of_not (h : 400 ≤ p.status) (hc : ¬ condition) : p.Succeeds condition :=
  ⟨iff_of_false (fun he => absurd h (by rw [he]; decide)) hc, fun _ => h⟩

end Response.Succeeds

theorem Failure.response_succeeds (f : Failure) : f.response.Succeeds (f.code = .ok) where
  success := f.code.httpStatus_eq_iff
  error h := Code.le_httpStatus fun hc => h (f.code.httpStatus_eq_iff.mpr hc)

namespace CompiledRoute

variable {rpc : Rpc}

/-- A result makes a success: a reply that can be written, or a failure with the code of one. -/
def IsSuccess (route : CompiledRoute rpc) : Except Status (Reply rpc) → Prop
  | .error status => status.code = .ok
  | .ok reply => ∃ body, route.answer.write reply.message = .ok body

theorem respondTo_succeeds (route : CompiledRoute rpc) (result : Except Status (Reply rpc)) :
    (route.respondTo result).Succeeds (route.IsSuccess result) := by
  cases result with
  | error status => exact (Failure.ofStatus status).response_succeeds
  | ok reply =>
      cases hw : route.answer.write reply.message with
      | error fault =>
          simp only [respondTo, respond, hw]
          refine (Failure.response_succeeds _).congr (iff_of_false Code.noConfusion ?_)
          rintro ⟨body, hbody⟩
          cases hw.symm.trans hbody
      | ok body =>
          simp only [respondTo, respond, hw]
          exact ⟨iff_of_true rfl ⟨body, hw⟩, fun h => absurd rfl h⟩

/-- The call of a request that was read returns a result in time. -/
def Returns (route : CompiledRoute rpc) (limits : Limits) (target : Target)
    (captures : Option Captures) (r : Request) (cancel : Option Duration)
    (result : Except Status (Reply rpc)) : Prop :=
  r.method = route.method ∧ ∃ o metadata, route.order limits captures r = .ok o ∧
    metadata? r o.deadline = some metadata ∧
      let attempt := target.invoke rpc o.message metadata cancel
      AnswersFirst ⟨attempt.ready, o.deadline, cancel⟩ ∧ attempt.broken = false ∧
        attempt.result = result

/-- The values of a request do not fit the fields of a route, which give a failure for it. -/
def Refuses (route : CompiledRoute rpc) (limits : Limits) (captures : Option Captures)
    (r : Request) (f : Failure) : Prop :=
  r.method = route.method ∧ route.firstFailure? limits captures r = some (.binding, f)

variable {route : CompiledRoute rpc} {limits : Limits} {target : Target}
  {captures : Option Captures} {r : Request} {cancel : Option Duration} {p : Response}
  {o : Order rpc}

/-- Only fields give failures the code of a success. -/
theorem stage_eq_binding {stage : Stage} {f : Failure}
    (h : route.firstFailure? limits captures r = some (stage, f)) (hf : f.code = .ok) :
    stage = .binding := by
  rcases failure?_code (failure?_of_firstFailure? h) with hc | ⟨hc, _⟩ | ⟨hstage, _⟩
  · cases hf.symm.trans hc
  · cases hf.symm.trans hc
  · exact hstage

/-- What is read of a request decides whether its call returns. -/
theorem returns_iff (hm : r.method = route.method) (ho : route.order limits captures r = .ok o)
    {metadata : Headers} (hmetadata : metadata? r o.deadline = some metadata)
    {result : Except Status (Reply rpc)} :
    route.Returns limits target captures r cancel result ↔
      AnswersFirst ⟨(target.invoke rpc o.message metadata cancel).ready, o.deadline, cancel⟩ ∧
        (target.invoke rpc o.message metadata cancel).broken = false ∧
          (target.invoke rpc o.message metadata cancel).result = result := by
  constructor
  · rintro ⟨_, o', metadata', ho', hmetadata', h⟩
    cases ho.symm.trans ho'
    cases hmetadata.symm.trans hmetadata'
    exact h
  · intro h
    exact ⟨hm, o, metadata, ho, hmetadata, h⟩

/-- The response to a call that is made succeeds if its call returns what makes a success. -/
theorem perform_succeeds (hm : r.method = route.method)
    (ho : route.order limits captures r = .ok o)
    (hp : (route.perform target r o cancel).outcome = .response p) :
    p.Succeeds (∃ result, route.Returns limits target captures r cancel result ∧
      route.IsSuccess result) := by
  cases hmetadata : metadata? r o.deadline with
  | none =>
      simp only [perform, hmetadata] at hp
      cases hp
  | some metadata =>
      let race : Race := ⟨(target.invoke rpc o.message metadata cancel).ready, o.deadline, cancel⟩
      have hreturns {result : Except Status (Reply rpc)} :
          route.Returns limits target captures r cancel result ↔ race.AnswersFirst ∧ _ :=
        returns_iff hm ho hmetadata
      have hnone (hlate : ¬ race.AnswersFirst) : ¬ ∃ result,
          route.Returns limits target captures r cancel result ∧ route.IsSuccess result := by
        rintro ⟨_, h, _⟩
        exact hlate (hreturns.mp h).1
      rw [(perform_of_metadata? hmetadata).1] at hp
      change (if race.ending = .answered ∧ _ then _ else route.conclude _ race.ending) = _ at hp
      rw [← ending_eq_answered_iff] at hreturns hnone
      cases hending : race.ending with
      | answered =>
          split at hp
          · cases hp
          · rename_i hbroken
            rw [hending] at hp
            cases hp
            refine (route.respondTo_succeeds _).congr ?_
            constructor
            · intro hsuccess
              exact ⟨_, hreturns.mpr ⟨hending, by simpa [hending] using hbroken, rfl⟩, hsuccess⟩
            · rintro ⟨result, h, hsuccess⟩
              obtain ⟨_, _, rfl⟩ := hreturns.mp h
              exact hsuccess
      | expired =>
          rw [hending, if_neg (by simp)] at hp
          cases hp
          exact Response.Succeeds.of_not (by decide) (hnone (by simp [hending]))
      | canceled =>
          rw [hending, if_neg (by simp)] at hp
          cases hp
          exact Response.Succeeds.of_not (by decide) (hnone (by simp [hending]))
      | pending =>
          rw [hending, if_neg (by simp)] at hp
          cases hp

/-- A response succeeds if the call of its request returns what makes a success, or if a field has
refused a value with the code of one. -/
theorem serve_succeeds (hp : (route.serve limits target captures r cancel).outcome = .response p) :
    p.Succeeds ((∃ result, route.Returns limits target captures r cancel result ∧
      route.IsSuccess result) ∨ ∃ f, route.Refuses limits captures r f ∧ f.code = .ok) := by
  obtain ⟨hm, he⟩ | ⟨hm, ⟨f, ho, he⟩ | ⟨o, ho, he⟩⟩ :=
    serve_cases route limits target captures r cancel
  · rw [he] at hp
    cases hp
    apply Response.Succeeds.of_not (show 400 ≤ 405 by decide)
    rintro (⟨_, h, _⟩ | ⟨_, h, _⟩)
    · exact hm h.1
    · exact hm h.1
  · rw [he] at hp
    cases hp
    refine f.response_succeeds.congr ?_
    constructor
    · intro hf
      obtain ⟨stage, hstage⟩ := order_eq_error_iff.mp ho
      cases stage_eq_binding hstage hf
      exact Or.inr ⟨f, ⟨hm, hstage⟩, hf⟩
    · rintro (⟨_, ⟨_, o, _, ho', _⟩, _⟩ | ⟨f', h, hf⟩)
      · cases ho.symm.trans ho'
      · cases ho.symm.trans (order_eq_error_iff.mpr ⟨_, h.2⟩)
        exact hf
  · rw [he] at hp
    refine (perform_succeeds hm ho hp).congr (or_iff_left ?_).symm
    rintro ⟨f, h, _⟩
    cases ho.symm.trans (order_eq_error_iff.mpr ⟨_, h.2⟩)

/-- A response has the status of a success exactly if the call of its request returns in time a
reply that can be written or a failure with the code of a success, or if a field refuses a value
with this code. Every other response has the status of an error. With a target whose calls do not
break, and a server whose limit can be written, there is a response unless the request waits for a
call that never returns while nothing limits or cancels it. -/
theorem serve_status (route : CompiledRoute rpc) (limits : Limits) (target : Target)
    (captures : Option Captures) (r : Request) (cancel : Option Duration) :
    let outcome := (route.serve limits target captures r cancel).outcome
    (∀ p, outcome = .response p →
      (p.status = 200 ↔
        (∃ reply body, route.Returns limits target captures r cancel (.ok reply) ∧
          route.answer.write reply.message = .ok body) ∨
        (∃ status, route.Returns limits target captures r cancel (.error status) ∧
          status.code = .ok) ∨
        ∃ f, route.Refuses limits captures r f ∧ f.code = .ok) ∧
      (p.status ≠ 200 → 400 ≤ p.status)) ∧
    (target.IsSound → ¬ Deadline.IsOverlong limits.timeout →
      ((∃ p, outcome = .response p) ↔
        ¬ (cancel = none ∧ route.Waits limits target captures r))) := by
  intro outcome
  constructor
  · intro p hp
    obtain ⟨hsuccess, herror⟩ := serve_succeeds hp
    refine ⟨hsuccess.trans ?_, herror⟩
    rw [← or_assoc]
    refine or_congr_left ?_
    constructor
    · rintro ⟨result, h, hresult⟩
      cases result with
      | error status => exact Or.inr ⟨status, h, hresult⟩
      | ok reply => exact Or.inl ⟨reply, hresult.choose, h, hresult.choose_spec⟩
    · rintro (⟨reply, body, h, hbody⟩ | ⟨status, h, hstatus⟩)
      · exact ⟨.ok reply, h, body, hbody⟩
      · exact ⟨.error status, h, hstatus⟩
  · intro hsound hlimit
    rw [← serve_pending_iff]
    cases hout : (route.serve limits target captures r cancel).outcome with
    | response p => exact iff_of_true ⟨p, hout⟩ Outcome.noConfusion
    | pending => exact iff_of_false (fun ⟨p, hp⟩ => by cases hout.symm.trans hp) (fun h => h rfl)
    | abandoned =>
        have hoverlong := (serve_abandoned_iff_isOverlong hsound limits captures r cancel).mp hout
        exact absurd hoverlong.2.2.2 hlimit

/-- A service that answers greetings with a result. -/
def greeter (result : Except Status (Reply .ping)) : Service where
  answers
    | .ping => [{ result := result }]
    | _ => []

/-- The route of greetings. -/
def greetings : CompiledRoute .ping :=
  ⟨.get, ⟨[.literal "ping"]⟩, .empty, [], .named .ping "text"⟩

theorem serve_greetings_status :
    (Target.inProcess (greeter (.ok ⟨⟨"pong"⟩, {}⟩))).IsSound ∧ ∃ p,
      (greetings.serve {} (.inProcess (greeter (.ok ⟨⟨"pong"⟩, {}⟩))) (some []) greeting
        none).outcome = .response p ∧ p.status = 200 := by
  have hsound := Target.inProcess_isSound (greeter (.ok ⟨⟨"pong"⟩, {}⟩))
  obtain ⟨hstatus, hanswered⟩ := serve_status greetings {}
    (.inProcess (greeter (.ok ⟨⟨"pong"⟩, {}⟩))) (some []) greeting none
  obtain ⟨p, hp⟩ := (hanswered hsound id).mpr fun ⟨_, _, _, _, _, hready⟩ => by cases hready
  refine ⟨hsound, p, hp, (hstatus p hp).1.mpr (Or.inl ⟨⟨⟨"pong"⟩, {}⟩, _, ?_, rfl⟩)⟩
  exact ⟨rfl, _, _, rfl, rfl, answersFirst_of_time_eq_zero rfl, rfl, rfl⟩

/-- Not only replies have the status of a success. -/
theorem not_reply_of_success :
    ¬ ∀ limits target captures r cancel p,
      (greetings.serve limits target captures r cancel).outcome = .response p → p.status = 200 →
        ∃ reply, greetings.Returns limits target captures r cancel (.ok reply) := by
  intro h
  obtain ⟨reply, _, o, metadata, _, _, _, _, hresult⟩ := h {}
    (.inProcess (greeter (.error ⟨.ok, "fine", []⟩))) (some []) greeting none _ rfl rfl
  cases hresult

/-- A field can answer for the service. -/
example : ∃ route, lenient.compile = .ok route ∧
    (route.serve {} (.inProcess .empty) (some [("id", [0x37])]) limited none).outcome =
      .response (Failure.response ⟨.ok, "fine", none⟩) := ⟨_, rfl, rfl⟩

end CompiledRoute

end RestGateway
