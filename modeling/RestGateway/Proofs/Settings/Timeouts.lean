import RestGateway.Bindings
import RestGateway.Proofs.Dispatch.InFlight
import RestGateway.Settings.Limits

/-!
# Time limits in the settings

The settings take any number of milliseconds for the time limit of requests, and a call takes a
limit of less than a hundred million hours. A longer limit is harmless where a client sets a limit
of its own, which is always short enough. Where it does not, every request that would lead to a call
is given up.
-/

namespace RestGateway

namespace Deadline

/-- A limit that cannot be written, because it has a hundred million whole hours or more. -/
def IsOverlong : Option Duration → Prop
  | none => False
  | some d => 10 ^ digitLimit ≤ d.hours

theorem not_isOverlong_of_ofHeaders {headers : Headers} {client : Option Duration}
    (h : ofHeaders headers = .ok client) : ¬ IsOverlong client := by
  cases client with
  | none => exact id
  | some d => exact Nat.not_le.mpr (hours_lt_of_ofHeaders h d rfl)

/-- The limit that counts is overlong exactly if the server's is and the client sets none. -/
theorem isOverlong_effective_iff {server client : Option Duration} (hc : ¬ IsOverlong client) :
    IsOverlong (effective server client) ↔ client = none ∧ IsOverlong server := by
  cases client with
  | none =>
      have heq : effective server none = server := by cases server <;> rfl
      rw [heq]
      simp
  | some c =>
      refine iff_of_false ?_ (by simp)
      cases server with
      | none => exact hc
      | some s =>
          -- The limit that counts is no longer than the client's.
          intro hlong
          have hle : (s.min c).hours ≤ c.hours :=
            Nat.div_le_div_right (Nat.min_le_right s.nanos c.nanos)
          exact hc (Nat.le_trans hlong hle)

end Deadline

namespace Settings

/-- A hundred million hours in milliseconds. -/
def overlong : Nat := 360000000000000

theorem isOverlong_limitOf_iff (milliseconds : Nat) :
    Deadline.IsOverlong (limitOf milliseconds) ↔ overlong ≤ milliseconds := by
  unfold limitOf
  split
  · rename_i hzero
    exact iff_of_false id (by rw [hzero]; decide)
  · rw [Deadline.IsOverlong, Duration.hours,
      Nat.le_div_iff_mul_le Deadline.Unit.hour.nanos_pos]
    simp only [Duration.ofMillis, Deadline.Unit.nanos, Deadline.digitLimit, overlong]
    omega

end Settings

/-- No call of a target breaks. -/
def Target.IsSound (t : Target) : Prop :=
  ∀ rpc message metadata cancel, (t.invoke rpc message metadata cancel).broken = false

theorem Target.inProcess_isSound (service : Service) : (inProcess service).IsSound :=
  fun _ _ _ _ => rfl

namespace CompiledRoute

variable {rpc : Rpc} {route : CompiledRoute rpc} {r : Request} {o : Order rpc} {target : Target}
  {cancel : Option Duration}

/-- A call has no metadata exactly if its limit is overlong. -/
theorem metadata?_eq_none_iff {deadline : Option Duration} :
    metadata? r deadline = none ↔ Deadline.IsOverlong deadline := by
  cases deadline with
  | none => simp [metadata?, Deadline.IsOverlong]
  | some d =>
      rw [Deadline.IsOverlong, ← Nat.not_lt, ← Deadline.write?_isSome_iff, metadata?,
        Option.map_eq_none_iff, Option.not_isSome_iff_eq_none]

/-- A call of a sound target is given up exactly if its limit is overlong. -/
theorem perform_abandoned_iff (hsound : target.IsSound) :
    (route.perform target r o cancel).outcome = .abandoned ↔ Deadline.IsOverlong o.deadline := by
  rw [← metadata?_eq_none_iff (r := r)]
  cases hm : metadata? r o.deadline with
  | none => simp only [perform, hm]
  | some metadata =>
      refine iff_of_false ?_ (by simp)
      simp only [perform, hm, hsound _ _ _ _]
      split <;> exact Outcome.noConfusion

/-- Where a server has a limit, no request waits forever. -/
theorem serve_ne_pending {limits : Limits} {t : Duration} (ht : limits.timeout = some t)
    (captures : Option Captures) :
    (route.serve limits target captures r cancel).outcome ≠ .pending := by
  intro hpending
  obtain ⟨_, _, o, ho, hd, _⟩ := serve_pending_iff.mp hpending
  obtain ⟨_, client, _, _, _, hdeadline⟩ := order_eq_ok_iff.mp ho
  rw [hd, ht] at hdeadline
  cases client with
  | none => cases hdeadline
  | some c => cases hdeadline

/-- With a sound target a request is given up exactly if it would lead to a call, its client sets
no limit, and the limit of the server is overlong. -/
theorem serve_abandoned_iff_isOverlong (hsound : target.IsSound) (limits : Limits)
    (captures : Option Captures) (r : Request) (cancel : Option Duration) :
    (route.serve limits target captures r cancel).outcome = .abandoned ↔
      r.method = route.method ∧
      (∃ params m, route.params captures = .ok params ∧
        route.decodeRequest limits.bodyLimit r params = .ok m) ∧
      Deadline.ofHeaders r.headers = .ok none ∧ Deadline.IsOverlong limits.timeout := by
  obtain ⟨hm, he⟩ | ⟨hm, ⟨f, ho, he⟩ | ⟨o, ho, he⟩⟩ :=
    serve_cases route limits target captures r cancel
  · rw [he]
    exact iff_of_false Outcome.noConfusion fun h => hm h.1
  · rw [he]
    refine iff_of_false Outcome.noConfusion ?_
    rintro ⟨_, ⟨params, m, hp, hd⟩, hc, _⟩
    cases ho.symm.trans (order_of_decoded hp hd hc)
  · obtain ⟨params, client, hp, hd, hc, hdeadline⟩ := order_eq_ok_iff.mp ho
    rw [he, perform_abandoned_iff hsound, hdeadline,
      Deadline.isOverlong_effective_iff (Deadline.not_isOverlong_of_ofHeaders hc)]
    constructor
    · rintro ⟨rfl, hlong⟩
      exact ⟨hm, ⟨params, _, hp, hd⟩, hc, hlong⟩
    · rintro ⟨_, _, hnone, hlong⟩
      cases hc.symm.trans hnone
      exact ⟨rfl, hlong⟩

/-- With a sound target a request is given up exactly if it would lead to a call, its client sets
no limit, and the limit in the settings is overlong. Where the settings have a limit that is not,
every request is answered. -/
theorem serve_abandoned_iff (hsound : target.IsSound) (s : Settings) (captures : Option Captures)
    (r : Request) (cancel : Option Duration) :
    ((route.serve s.limits target captures r cancel).outcome = .abandoned ↔
      r.method = route.method ∧
      (∃ params m, route.params captures = .ok params ∧
        route.decodeRequest s.bodyLimit r params = .ok m) ∧
      Deadline.ofHeaders r.headers = .ok none ∧ Settings.overlong ≤ s.requestTimeout) ∧
    (s.requestTimeout ≠ 0 → s.requestTimeout < Settings.overlong →
      ∃ response, (route.serve s.limits target captures r cancel).outcome =
        .response response) := by
  have hlong : Deadline.IsOverlong s.limits.timeout ↔ Settings.overlong ≤ s.requestTimeout :=
    Settings.isOverlong_limitOf_iff s.requestTimeout
  have hiff := @serve_abandoned_iff_isOverlong _ route _ hsound s.limits captures r cancel
  rw [hlong] at hiff
  refine ⟨hiff, ?_⟩
  intro hlimit hshort
  have htimeout : s.limits.timeout = some (Duration.ofMillis s.requestTimeout) := if_neg hlimit
  cases hout : (route.serve s.limits target captures r cancel).outcome with
  | response response => exact ⟨response, rfl⟩
  | pending => exact absurd hout (serve_ne_pending htimeout captures)
  | abandoned => exact absurd (hiff.mp hout).2.2.2 (Nat.not_le.mpr hshort)

/-- A request for the greeting of the service. -/
def greeting : Request where
  uri := ⟨none, Utf8.encode "/ping", none⟩

/-- The bound is sharp. -/
theorem serve_greeting_abandoned :
    (Target.inProcess .empty).IsSound ∧
    ∃ route, Bindings.ping.compile = .ok route ∧
      (route.serve (Settings.limits { requestTimeout := 360000000000000 }) (.inProcess .empty)
        (some []) greeting none).outcome = .abandoned ∧
      ∃ response, (route.serve (Settings.limits { requestTimeout := 359999999999999 })
        (.inProcess .empty) (some []) greeting none).outcome = .response response := by
  have hsound := Target.inProcess_isSound .empty
  refine ⟨hsound, _, rfl, ?_, ?_⟩
  · exact (serve_abandoned_iff hsound _ _ greeting none).1.mpr
      ⟨rfl, ⟨[], {}, rfl, rfl⟩, rfl, Nat.le_refl _⟩
  · exact (serve_abandoned_iff hsound _ _ greeting none).2 (by decide) (by decide)

set_option maxRecDepth 10000 in
/-- Settings that load do not keep requests from being given up. -/
theorem not_answered_of_loaded :
    ¬ ∀ environment s route r, Settings.load none environment = .ok s →
      Bindings.ping.compile = .ok route →
        ∃ response, (route.serve s.limits (.inProcess .empty) (some []) r none).outcome =
          .response response := by
  intro h
  obtain ⟨response, hresponse⟩ := h
    [("SSO_GATEWAY__REQUEST_TIMEOUT_MS", "360000000000000")]
    { requestTimeout := 360000000000000 } _ greeting rfl rfl
  cases hresponse

end CompiledRoute

end RestGateway
