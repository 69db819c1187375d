import RestGateway.Gateway

/-!
# Which route takes a request

The method and the path of a request alone decide which route takes it. A request that no route
takes is answered without a look at the rest of it and without a call.
-/

namespace RestGateway

theorem Exchange.withLength_calls (e : Exchange) : e.withLength.calls = e.calls := by
  unfold withLength
  split <;> rfl

namespace Front

variable {front : Front} {method : Method} {path : Bytes}

/-- The route that takes requests with a method and a path, and the values of its variables. -/
def takes? (front : Front) (method : Method) (path : Bytes) :
    Option (Endpoint × Option Captures) :=
  match front with
  | .endpoint e => some (e, none)
  | .router paths =>
    (paths.find? path).bind fun found =>
      (found.1.endpoint? method).map fun e => (e, some found.2)

/-- The exchange as it leaves the gateway. A router adds the length of the body. -/
def finish : Front → Exchange → Exchange
  | .endpoint _, e => e
  | .router _, e => e.withLength

theorem finish_calls (front : Front) (e : Exchange) : (front.finish e).calls = e.calls := by
  cases front with
  | endpoint _ => rfl
  | router _ => exact e.withLength_calls

/-- A response leaves with its status and its body. -/
theorem exists_finish_response (front : Front) {e : Exchange} {p : Response}
    (h : e.outcome = .response p) : ∃ p', (front.finish e).outcome = .response p' ∧
      p'.status = p.status ∧ p'.body = p.body := by
  cases front with
  | endpoint _ => exact ⟨p, h, rfl, rfl⟩
  | router _ =>
      refine ⟨p.withLength, ?_, rfl, rfl⟩
      simp only [finish, Exchange.withLength, h]

/-- A request is served by the route that takes it. -/
theorem serve_of_takes? {r : Request} {e : Endpoint} {captures : Option Captures}
    (h : front.takes? r.method r.uri.path = some (e, captures)) (limits : Limits)
    (target : Target) (cancel : Option Duration) :
    front.serve limits target r cancel =
      front.finish (e.route.serve limits target captures r cancel) := by
  cases front with
  | endpoint e' =>
      cases h
      rfl
  | router paths =>
      obtain ⟨found, hfind, htakes⟩ := Option.bind_eq_some_iff.mp h
      obtain ⟨e', he, heq⟩ := Option.map_eq_some_iff.mp htakes
      cases heq
      simp only [serve, Router.serve, hfind, he]
      rfl

/-- Requests that no route takes get one response. -/
theorem exists_refusal (h : front.takes? method path = none) :
    ∃ refusal : Response, ∀ r limits target cancel, r.method = method → r.uri.path = path →
      front.serve limits target r cancel = { outcome := .response refusal } := by
  cases front with
  | endpoint e => cases h
  | router paths =>
      cases hfind : paths.find? path with
      | none =>
          refine ⟨⟨404, [], []⟩, ?_⟩
          rintro r limits target cancel rfl rfl
          simp only [serve, Router.serve, hfind]
      | some found =>
          refine ⟨(methodNotAllowed found.1.methods).withLength, ?_⟩
          rintro r limits target cancel rfl rfl
          have hnone : found.1.endpoint? r.method = none := by
            simpa [takes?, hfind] using h
          simp only [serve, Router.serve, hfind, hnone]
          rfl

/-- Two requests with the same method and path are served alike if the route that takes them serves
them alike. -/
theorem serve_congr {r r' : Request} (hmethod : r'.method = r.method)
    (hpath : r'.uri.path = r.uri.path) {limits : Limits} {target : Target}
    {cancel : Option Duration}
    (h : ∀ e captures, front.takes? r.method r.uri.path = some (e, captures) →
      e.route.serve limits target captures r' cancel =
        e.route.serve limits target captures r cancel) :
    front.serve limits target r' cancel = front.serve limits target r cancel := by
  cases htakes : front.takes? r.method r.uri.path with
  | none =>
      obtain ⟨refusal, hrefusal⟩ := exists_refusal htakes
      rw [hrefusal r limits target cancel rfl rfl, hrefusal r' limits target cancel hmethod hpath]
  | some taken =>
      have htakes' : front.takes? r'.method r'.uri.path = some taken := by
        rw [hmethod, hpath, htakes]
      rw [serve_of_takes? htakes, serve_of_takes? htakes', h _ _ htakes]

end Front

end RestGateway
