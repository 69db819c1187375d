import RestGateway.Proofs.Dispatch.InFlight
import RestGateway.Proofs.Gateway.Front
import RestGateway.Proofs.Grpc.Crossing

/-!
# Gateways in front of a remote service

A gateway whose service is behind an open connection answers requests like a gateway with the
service in its own process, and the service sees the same calls. What keeps the two in step is a
relation between the gateways that every request preserves.
-/

namespace RestGateway

/-- All answers of the service are given at once and cross a channel unharmed. -/
def Service.IsPlain (s : Service) : Prop := ∀ rpc, ∀ a ∈ s.answers rpc, a.IsPlain

namespace Service

variable {s : Service}

theorem unimplemented_isPlain (rpc : Rpc) : (Answering.unimplemented rpc).IsPlain where
  delay := rfl
  hangs := rfl
  awaitsCancel := rfl
  crosses := ⟨Grpc.IsFree.nil, fun h => by cases h⟩

theorem next_isPlain (h : s.IsPlain) (rpc : Rpc) : (s.next rpc).IsPlain := by
  unfold next
  cases ha : s.answers rpc with
  | nil => exact unimplemented_isPlain rpc
  | cons a rest => exact h rpc a (by simp [ha])

theorem mem_of_mem_remaining {α : Type} {a : α} {answers : List α} (h : a ∈ remaining answers) :
    a ∈ answers := by
  match answers with
  | [] | [_] => exact h
  | _ :: _ :: _ => exact List.mem_cons_of_mem _ h

theorem after_isPlain (h : s.IsPlain) (rpc : Rpc) : (s.after rpc).IsPlain := by
  intro other a ha
  simp only [after] at ha
  split at ha
  · exact h other a (mem_of_mem_remaining ha)
  · exact h other a ha

theorem afterCalls_isPlain (h : s.IsPlain) (calls : List Call) : (s.afterCalls calls).IsPlain := by
  induction calls generalizing s with
  | nil => exact h
  | cons call rest ih => exact ih (after_isPlain h call.rpc)

end Service

/-- The request leads to a call without a deadline, whose metadata has free names. -/
structure Request.IsPlain (limits : Limits) (r : Request) : Prop where
  marks : Metadata.MarksFree r.headers
  limit : ∀ client, Deadline.ofHeaders r.headers = .ok client →
    Deadline.effective limits.timeout client = none

namespace Metadata

/-- What an answer has besides metadata is not put on responses. -/
theorem forwarded_answerHeaders {metadata tail : Headers} (start : String)
    (h : ∀ x ∈ tail, isForwardable x.name = false) :
    forwarded start (Grpc.answerHeaders metadata tail) = forwarded start metadata := by
  have htail : forwarded start tail = [] :=
    List.filterMap_eq_nil_iff.mpr fun x hx => if_neg (by simp [h x hx])
  calc
    forwarded start (Grpc.answerHeaders metadata tail)
        = forwarded start (metadata ++ tail) := rfl
    _ = forwarded start metadata ++ forwarded start tail := List.filterMap_append
    _ = forwarded start metadata := by rw [htail, List.append_nil]

end Metadata

/-- Two exchanges with the same outcome in which the service saw the same calls. -/
structure Exchange.Agrees (e e' : Exchange) : Prop where
  outcome : e.outcome = e'.outcome
  calls : e.calls = e'.calls

namespace CompiledRoute

variable {rpc : Rpc} {route : CompiledRoute rpc} {limits : Limits} {captures : Option Captures}
  {r : Request}

/-- A result that has crossed a channel makes the same response. -/
theorem respondTo_carried {result : Except Status (Reply rpc)} (h : Crosses result) :
    route.respondTo (Grpc.Client.carried result) = route.respondTo result := by
  cases result with
  | error s =>
      have hforwarded := @Metadata.forwarded_answerHeaders s.metadata [] Metadata.headerStart
        fun _ hx => absurd hx List.not_mem_nil
      simp only [Grpc.Client.carried, respondTo, Failure.ofStatus, hforwarded]
  | ok reply =>
      have hforwarded := @Metadata.forwarded_answerHeaders reply.metadata.headers
        [⟨Grpc.statusName, Grpc.codeText .ok⟩] Metadata.headerStart (by decide)
      simp only [Grpc.Client.carried, respondTo, respond, Metadata.forwardReply, Metadata.forward,
        hforwarded, h.2.1]

/-- Where nothing limits a call, its result makes the response. -/
theorem perform_outcome {target : Target} {o : Order rpc} (hd : o.deadline = none)
    {moment : Duration}
    (hready : (target.invoke rpc o.message (Metadata.annotate r) none).ready = some moment)
    (hbroken : (target.invoke rpc o.message (Metadata.annotate r) none).broken = false) :
    (route.perform target r o none).outcome =
      .response (route.respondTo
        (target.invoke rpc o.message (Metadata.annotate r) none).result) := by
  have hmetadata : metadata? r o.deadline = some (Metadata.annotate r) := by rw [hd]; rfl
  refine perform_of_answered hmetadata ?_ hbroken
  rw [hready, hd]
  exact ⟨ENat.natCast_ne_top _, le_top, le_top⟩

/-- A call without a deadline leads to the same response on both ways. -/
theorem perform_agrees {service : Service} (hs : service.IsPlain) {c : Connection}
    (hc : c.channel = .toService service) (ho : c.isClosed = false)
    (hm : Metadata.MarksFree r.headers) {o : Order rpc} (hd : o.deadline = none)
    (hsize : (Wire.encode o.message).length ≤ Grpc.sizeLimit) :
    (route.perform (.remote c) r o none).Agrees (route.perform (.inProcess service) r o none) := by
  have hnext := Service.next_isPlain hs rpc
  have hcall : (Target.remote c).invoke rpc o.message (Metadata.annotate r) none =
      { arrival := Grpc.Client.crossing
        calls := [⟨rpc, o.message, Metadata.annotate r⟩]
        ready := some Grpc.Client.crossing
        result := Grpc.Client.carried (service.next rpc).result } := by
    rw [Target.invoke, Connection.invoke, ho, hc]
    exact Grpc.Client.call_toService (Metadata.annotate_isFree hm) hsize hnext
  constructor
  · have hready : ((Target.inProcess service).invoke rpc o.message (Metadata.annotate r)
        none).ready = some ⟨0⟩ := hnext.ready_eq none
    rw [perform_outcome hd (congrArg Attempt.ready hcall) (congrArg Attempt.broken hcall), hcall,
      respondTo_carried hnext.crosses]
    exact (perform_outcome hd hready rfl).symm
  · simp only [perform, metadata?, hd, hcall]
    rfl

/-- A request is served in the same way on both ways. -/
theorem serve_agrees {service : Service} (hs : service.IsPlain) {c : Connection}
    (hc : c.channel = .toService service) (ho : c.isClosed = false) (hr : r.IsPlain limits)
    (hsize : ∀ call ∈ (route.serve limits (.inProcess service) captures r none).calls,
      (Wire.encode call.message).length ≤ Grpc.sizeLimit) :
    (route.serve limits (.remote c) captures r none).Agrees
      (route.serve limits (.inProcess service) captures r none) := by
  by_cases hm : r.method = route.method
  · cases horder : route.order limits captures r with
    | error f =>
        rw [serve_of_order_error hm horder, serve_of_order_error hm horder]
        exact ⟨rfl, rfl⟩
    | ok o =>
        obtain ⟨_, client, _, _, hclient, hdeadline⟩ := order_eq_ok_iff.mp horder
        have hd : o.deadline = none := hdeadline.trans (hr.limit client hclient)
        rw [serve_of_order_ok hm horder] at hsize ⊢
        obtain ⟨metadata, _, hcalls⟩ := @perform_inProcess_calls _ route r o service none
          fun d h => by rw [hd] at h; cases h
        rw [serve_of_order_ok hm horder]
        refine perform_agrees hs hc ho hr.marks hd ?_
        exact hsize ⟨rpc, o.message, metadata⟩ (by rw [hcalls]; exact List.mem_singleton_self _)
  · rw [serve_of_method_ne hm, serve_of_method_ne hm]
    exact ⟨rfl, rfl⟩

end CompiledRoute

theorem Exchange.Agrees.finish {e e' : Exchange} (h : e.Agrees e') (front : Front) :
    (front.finish e).Agrees (front.finish e') := by
  obtain ⟨outcome, calls, ended⟩ := e
  obtain ⟨outcome', calls', ended'⟩ := e'
  obtain ⟨rfl, rfl⟩ : outcome = outcome' ∧ calls = calls' := ⟨h.outcome, h.calls⟩
  cases front with
  | endpoint _ => exact ⟨rfl, rfl⟩
  | router _ =>
      cases outcome with
      | response r => exact ⟨rfl, rfl⟩
      | pending => exact ⟨rfl, rfl⟩
      | abandoned => exact ⟨rfl, rfl⟩

/-- Whatever takes the requests of a gateway, it takes them in the same way on both ways. -/
theorem Front.serve_agrees {front : Front} {limits : Limits} {r : Request} {service : Service}
    (hs : service.IsPlain) {c : Connection} (hc : c.channel = .toService service)
    (ho : c.isClosed = false) (hr : r.IsPlain limits)
    (hsize : ∀ call ∈ (front.serve limits (.inProcess service) r none).calls,
      (Wire.encode call.message).length ≤ Grpc.sizeLimit) :
    (front.serve limits (.remote c) r none).Agrees
      (front.serve limits (.inProcess service) r none) := by
  cases htakes : front.takes? r.method r.uri.path with
  | none =>
      obtain ⟨refusal, hrefusal⟩ := exists_refusal htakes
      rw [hrefusal r limits _ none rfl rfl, hrefusal r limits _ none rfl rfl]
      exact ⟨rfl, rfl⟩
  | some taken =>
      rw [serve_of_takes? htakes, finish_calls] at hsize
      rw [serve_of_takes? htakes, serve_of_takes? htakes]
      exact (CompiledRoute.serve_agrees hs hc ho hr hsize).finish front

namespace Gateway

/-- The second gateway reaches the service of the first one through an open connection; otherwise
the two are alike, and neither was cancelled. -/
structure Proxies (l p : Gateway) : Prop where
  front : p.front = l.front
  limits : p.limits = l.limits
  running : l.canceled = false ∧ p.canceled = false
  targets : ∃ (service : Service) (c : Connection), service.IsPlain ∧
    c.channel = .toService service ∧ c.isClosed = false ∧ l.target = .inProcess service ∧
    p.target = .remote c

/-- Requests of a gateway, one after the other. -/
def handleAll (g : Gateway) : List Request → List Exchange × Gateway
  | [] => ([], g)
  | r :: rest =>
    let (e, g) := g.handle r none
    let (es, g) := g.handleAll rest
    (e :: es, g)

/-- A gateway that is not cancelled changes with its target only. -/
theorem handle_of_running {g : Gateway} (h : g.canceled = false) (r : Request) :
    g.handle r none =
      let e := g.front.serve g.limits g.target r none
      (e, { g with target := g.target.afterCalls e.calls }) := by
  simp [handle, cancelMoment, h, afterRequest, cancelHappens]

/-- The service of an open connection after calls is that of the same process after them. -/
theorem afterCalls_remote {c : Connection} {service : Service} (hc : c.channel = .toService service)
    (calls : List Call) :
    (Target.remote c).afterCalls calls =
      .remote { c with channel := .toService (service.afterCalls calls) } := by
  simp [Target.afterCalls, hc]

/-- A request is answered in the same way by both gateways, and leaves them in step. -/
theorem Proxies.handle {l p : Gateway} (h : l.Proxies p) {r : Request} (hr : r.IsPlain l.limits)
    (hsize : ∀ call ∈ (l.handle r none).1.calls,
      (Wire.encode call.message).length ≤ Grpc.sizeLimit) :
    (p.handle r none).1.Agrees (l.handle r none).1 ∧
      (l.handle r none).2.Proxies (p.handle r none).2 := by
  obtain ⟨hfront, hlimits, ⟨hl, hp⟩, service, c, hs, hc, ho, htl, htp⟩ := h
  rw [handle_of_running hl, htl] at hsize
  have hagrees := Front.serve_agrees hs hc ho hr hsize
  rw [handle_of_running hl, handle_of_running hp, hfront, hlimits, htl, htp]
  refine ⟨hagrees, rfl, rfl, ⟨hl, hp⟩, ?_⟩
  let calls := (l.front.serve l.limits (.inProcess service) r none).calls
  refine ⟨service.afterCalls calls, { c with channel := .toService (service.afterCalls calls) },
    Service.afterCalls_isPlain hs calls, rfl, ho, rfl, ?_⟩
  exact (afterCalls_remote hc _).trans (by rw [hagrees.calls])

theorem limits_of_ofTable? {t : Table} {limits : Limits} {target : Target} {g : Gateway}
    (h : ofTable? t limits target = some g) : g.limits = limits := by
  obtain ⟨_, _, rfl⟩ := Option.map_eq_some_iff.mp h
  rfl

/-- A table gives gateways that are in step: one with the service in its own process, and one with
an open connection to it. -/
theorem proxies_of_ofTable? {t : Table} {limits : Limits} {service : Service}
    (hs : service.IsPlain) {c : Connection} (hc : c.channel = .toService service)
    (ho : c.isClosed = false) {l p : Gateway}
    (hl : ofTable? t limits (.inProcess service) = some l)
    (hp : ofTable? t limits (.remote c) = some p) : l.Proxies p := by
  obtain ⟨router, hrouter, rfl⟩ := Option.map_eq_some_iff.mp hl
  obtain ⟨router', hrouter', rfl⟩ := Option.map_eq_some_iff.mp hp
  cases hrouter.symm.trans hrouter'
  exact ⟨rfl, rfl, ⟨rfl, rfl⟩, service, c, hs, hc, ho, rfl, rfl⟩

/-- Two gateways that are in step answer requests in the same way, one after the other, and the
service sees the same calls. -/
theorem handleAll_agrees {l p : Gateway} (h : l.Proxies p) {rs : List Request}
    (hr : ∀ r ∈ rs, r.IsPlain l.limits)
    (hsize : ∀ e ∈ (l.handleAll rs).1, ∀ call ∈ e.calls,
      (Wire.encode call.message).length ≤ Grpc.sizeLimit) :
    List.Forall₂ Exchange.Agrees (p.handleAll rs).1 (l.handleAll rs).1 ∧
      (l.handleAll rs).2.Proxies (p.handleAll rs).2 := by
  induction rs generalizing l p with
  | nil => exact ⟨List.Forall₂.nil, h⟩
  | cons r rest ih =>
      obtain ⟨hagrees, hnext⟩ := h.handle (hr r List.mem_cons_self) fun call hcall =>
        hsize _ List.mem_cons_self call hcall
      have hlimits : (l.handle r none).2.limits = l.limits := by
        rw [handle_of_running h.running.1]
      have hrest := ih hnext (fun x hx => hlimits ▸ hr x (List.mem_cons_of_mem r hx))
        fun e he => hsize e (List.mem_cons_of_mem _ he)
      exact ⟨List.Forall₂.cons hagrees hrest.1, hrest.2⟩

/-- The gateway with the six routes of the service. -/
def ofBindings? (target : Target) : Option Gateway :=
  (Table.addAll {} Bindings.all).toOption.bind fun t => ofTable? t {} target

/-- Readings of audits fail, with a message that has to be escaped. -/
def missing : Service where
  answers
    | .auditRead =>
      [⟨⟨0⟩, false, false,
        .error ⟨.notFound, "100% für nichts", [⟨"x-reason", Utf8.encode "gone"⟩]⟩⟩]
    | _ => []

theorem missing_isPlain : missing.IsPlain := by
  intro rpc a ha
  cases rpc with
  | auditRead =>
      cases List.mem_singleton.mp ha
      exact ⟨rfl, rfl, rfl, by decide, by decide⟩
  | _ => cases ha

/-- An open connection to it. -/
def link : Connection where
  endpoint := "http://localhost"
  channel := .toService missing

/-- A reading of an audit that marks a header as metadata. -/
def reading : Request where
  uri := ⟨none, Utf8.encode "/v1/audit/7", none⟩
  headers := [⟨"grpc-metadata-tenant", Utf8.encode "a"⟩]

theorem reading_isPlain : reading.IsPlain {} := by
  constructor
  · intro h hh rest name hrest hname
    cases List.mem_singleton.mp hh
    have htenant : (Header.stripStart? Metadata.headerStart "grpc-metadata-tenant").bind
        Header.name? = some "tenant" := by decide
    rw [hrest, Option.bind_some, hname] at htenant
    cases htenant
    decide
  · intro client hclient
    have hnone : Deadline.ofHeaders reading.headers = .ok none := by decide
    cases hnone.symm.trans hclient
    rfl

/-- Both gateways report the failure, twice in a row. -/
theorem handleAll_reading_agrees :
    ∃ l p, ofBindings? (.inProcess missing) = some l ∧ ofBindings? (.remote link) = some p ∧
      l.Proxies p ∧
      List.Forall₂ Exchange.Agrees (p.handleAll [reading, reading]).1
        (l.handleAll [reading, reading]).1 := by
  obtain ⟨l, hl⟩ := Option.isSome_iff_exists.mp
    (by decide : (ofBindings? (.inProcess missing)).isSome = true)
  obtain ⟨p, hp⟩ := Option.isSome_iff_exists.mp
    (by decide : (ofBindings? (.remote link)).isSome = true)
  obtain ⟨t, ht, hlt⟩ := Option.bind_eq_some_iff.mp hl
  obtain ⟨t', ht', hpt⟩ := Option.bind_eq_some_iff.mp hp
  cases ht.symm.trans ht'
  have hproxies : l.Proxies p := proxies_of_ofTable? missing_isPlain rfl rfl hlt hpt
  have hsize : (ofBindings? (.inProcess missing)).all (fun g =>
      (g.handleAll [reading, reading]).1.all fun e => e.calls.all fun call =>
        (Wire.encode call.message).length ≤ Grpc.sizeLimit) = true := by decide +kernel
  rw [hl] at hsize
  refine ⟨l, p, hl, hp, hproxies, (handleAll_agrees hproxies ?_ ?_).1⟩
  · intro r hr
    rw [limits_of_ofTable? hlt]
    have hreading : r = reading := by simpa using hr
    rw [hreading]
    exact reading_isPlain
  · simpa using hsize

end Gateway

end RestGateway
