import RestGateway.Proofs.Gateway.Front
import RestGateway.Proofs.Gateway.Proxy

/-!
# What a request is not asked for

A route reads the body of a request or its query only if its message comes from there. Requests that
differ elsewhere in what their routes do not read get the same responses and cause the same calls,
one after the other.
-/

namespace RestGateway

/-- Two requests are the same except for what is not read for a message from the source: bodies
matter for messages from the body only, and queries for messages from the query only. -/
structure Source.Overlooks (source : Source) (r r' : Request) : Prop where
  method : r'.method = r.method
  authority : r'.uri.authority = r.uri.authority
  path : r'.uri.path = r.uri.path
  headers : r'.headers = r.headers
  remote : r'.remote = r.remote
  query : source = .query → r'.uri.query = r.uri.query
  body : source = .body → r'.body = r.body

namespace Source

variable {source : Source}

theorem overlooks_body (h : source ≠ .body) (r : Request) (body : Body) :
    source.Overlooks r { r with body } :=
  ⟨rfl, rfl, rfl, rfl, rfl, fun _ => rfl, fun hs => absurd hs h⟩

theorem overlooks_query (h : source ≠ .query) (r : Request) (query : Option Bytes) :
    source.Overlooks r { r with uri := { r.uri with query } } :=
  ⟨rfl, rfl, rfl, rfl, rfl, fun hs => absurd hs h, fun _ => rfl⟩

variable {r r' : Request} (h : source.Overlooks r r')
include h

namespace Overlooks

theorem annotate_eq : Metadata.annotate r' = Metadata.annotate r := by
  have hhost : Metadata.hostOf? r' = Metadata.hostOf? r := by
    rw [Metadata.hostOf?, h.headers, h.authority, Metadata.hostOf?]
  have hhops : Metadata.hopsOf? r' = Metadata.hopsOf? r := by
    rw [Metadata.hopsOf?, h.headers, h.remote, Metadata.hopsOf?]
  rw [Metadata.annotate, h.headers, hhost, hhops, Metadata.annotate]

theorem metadata?_eq (deadline : Option Duration) :
    CompiledRoute.metadata? r' deadline = CompiledRoute.metadata? r deadline := by
  unfold CompiledRoute.metadata?
  rw [h.annotate_eq]

end Overlooks

end Source

namespace CompiledRoute

variable {rpc : Rpc} {route : CompiledRoute rpc} {r r' : Request} {limits : Limits}
  {captures : Option Captures} (h : route.source.Overlooks r r')
include h

theorem decodeSource_congr (limit : Nat) :
    route.decodeSource limit r' = route.decodeSource limit r := by
  unfold decodeSource
  cases hs : route.source with
  | empty => rfl
  | query =>
      dsimp only
      rw [h.query hs]
  | body =>
      dsimp only
      rw [h.body hs]

theorem order_congr : route.order limits captures r' = route.order limits captures r := by
  unfold order decodeRequest
  rw [decodeSource_congr h, h.headers]

/-- A route serves two requests alike that are the same in all that it reads. -/
theorem serve_congr (target : Target) (cancel : Option Duration) :
    route.serve limits target captures r' cancel =
      route.serve limits target captures r cancel := by
  have hperform : ∀ o, route.perform target r' o cancel = route.perform target r o cancel := by
    intro o
    rw [perform, h.metadata?_eq, perform]
  unfold serve
  rw [h.method, order_congr h]
  simp only [hperform]

end CompiledRoute

/-- Two requests are the same in all that is read by the route that takes them. -/
structure Front.Overlooks (front : Front) (r r' : Request) : Prop where
  method : r'.method = r.method
  path : r'.uri.path = r.uri.path
  source : ∀ e captures, front.takes? r.method r.uri.path = some (e, captures) →
    e.route.source.Overlooks r r'

namespace Gateway

/-- Requests of a gateway, one after the other, each with the time after which the gateway is
cancelled during the request, if it is. -/
def handleEach (g : Gateway) : List (Request × Option Duration) → List Exchange × Gateway
  | [] => ([], g)
  | (r, cancelAfter) :: rest =>
    let (e, g) := g.handle r cancelAfter
    let (es, g) := g.handleEach rest
    (e :: es, g)

/-- A gateway does not change how it takes requests. -/
theorem handle_front (g : Gateway) (r : Request) (cancelAfter : Option Duration) :
    (g.handle r cancelAfter).2.front = g.front := by
  simp only [handle, afterRequest]
  split <;> rfl

/-- Two requests that are the same in all that is read lead to the same exchange and leave the same
gateway. -/
theorem handle_congr {g : Gateway} {r r' : Request} (h : g.front.Overlooks r r')
    (cancelAfter : Option Duration) : g.handle r' cancelAfter = g.handle r cancelAfter := by
  have hserve : g.front.serve g.limits g.target r' (cancelMoment g.canceled cancelAfter) =
      g.front.serve g.limits g.target r (cancelMoment g.canceled cancelAfter) := by
    apply Front.serve_congr h.method h.path
    intro e captures htakes
    exact CompiledRoute.serve_congr (h.source e captures htakes) _ _
  rw [handle, hserve, handle]

theorem handleEach_congr {g : Gateway} {steps steps' : List (Request × Option Duration)}
    (h : List.Forall₂ (fun s s' => g.front.Overlooks s.1 s'.1 ∧ s'.2 = s.2) steps steps') :
    g.handleEach steps' = g.handleEach steps := by
  induction steps generalizing g steps' with
  | nil =>
      cases h
      rfl
  | cons s rest ih =>
      cases h with
      | @cons _ s' _ rest' hs hrest =>
          have hrest' : List.Forall₂ (fun q q' =>
              (g.handle s.1 s.2).2.front.Overlooks q.1 q'.1 ∧ q'.2 = q.2) rest rest' := by
            simpa only [handle_front] using hrest
          simp only [handleEach, hs.2, handle_congr hs.1, ih hrest']

end Gateway

/-- A route whose messages do not come from the body serves a request alike whatever its body is,
and one whose messages do not come from the query whatever its query is. So a gateway that takes
requests one after the other answers them alike, and causes the same calls, if they differ only in
what is not read by the routes that take them. -/
theorem serve_overlooks :
    (∀ {rpc : Rpc} (route : CompiledRoute rpc) limits target captures r cancel,
      (route.source ≠ .body → ∀ body : Body,
        route.serve limits target captures { r with body } cancel =
          route.serve limits target captures r cancel) ∧
      (route.source ≠ .query → ∀ query : Option Bytes,
        route.serve limits target captures { r with uri := { r.uri with query } } cancel =
          route.serve limits target captures r cancel)) ∧
    ∀ (g : Gateway) (steps steps' : List (Request × Option Duration)),
      List.Forall₂ (fun s s' => g.front.Overlooks s.1 s'.1 ∧ s'.2 = s.2) steps steps' →
        g.handleEach steps' = g.handleEach steps := by
  constructor
  · intro rpc route limits target captures r cancel
    constructor
    · intro h body
      exact CompiledRoute.serve_congr (Source.overlooks_body h r body) target cancel
    · intro h query
      exact CompiledRoute.serve_congr (Source.overlooks_query h r query) target cancel
  · intro g steps steps' h
    exact Gateway.handleEach_congr h

/-- The reading of an audit with a query that cannot be decoded and a body that breaks off. -/
def noisyReading : Request :=
  { Gateway.reading with
    uri := { Gateway.reading.uri with query := some (Utf8.encode "id=%") }
    body := ⟨[Utf8.encode "\x7b"], some "reset"⟩ }

/-- Readings of audits take neither into account, also when the gateway is cancelled. -/
theorem serve_noisyReading :
    (∃ route, Bindings.auditRead.compile = .ok route ∧
      route.serve {} (.inProcess Gateway.missing) none
          { Gateway.reading with body := noisyReading.body } none =
        route.serve {} (.inProcess Gateway.missing) none Gateway.reading none) ∧
    ∃ g, Gateway.ofBindings? (.inProcess Gateway.missing) = some g ∧
      g.handleEach [(noisyReading, none), (noisyReading, some ⟨5⟩)] =
        g.handleEach [(Gateway.reading, none), (Gateway.reading, some ⟨5⟩)] := by
  refine ⟨⟨_, rfl, (serve_overlooks.1 _ _ _ _ _ _).1 (by decide) _⟩, ?_⟩
  obtain ⟨g, hg⟩ := Option.isSome_iff_exists.mp
    (by decide : (Gateway.ofBindings? (.inProcess Gateway.missing)).isSome = true)
  have hsource : (Gateway.ofBindings? (.inProcess Gateway.missing)).all (fun g =>
      (g.front.takes? Gateway.reading.method Gateway.reading.uri.path).all fun taken =>
        taken.1.route.source = .empty) = true := by decide
  have hoverlooks : g.front.Overlooks Gateway.reading noisyReading := by
    refine ⟨rfl, rfl, fun e captures htakes => ?_⟩
    have hempty : e.route.source = .empty := by simpa [hg, htakes] using hsource
    rw [hempty]
    exact ⟨rfl, rfl, rfl, rfl, rfl, nofun, nofun⟩
  refine ⟨g, hg, serve_overlooks.2 g _ _ ?_⟩
  exact .cons ⟨hoverlooks, rfl⟩ (.cons ⟨hoverlooks, rfl⟩ .nil)

end RestGateway
