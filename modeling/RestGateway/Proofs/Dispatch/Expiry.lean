import RestGateway.Proofs.Dispatch.InFlight
import RestGateway.Proofs.Dispatch.Limits
import RestGateway.Proofs.Number.Integer
import RestGateway.Proofs.Settings.Timeouts

/-!
# Limits that a channel enforces

A channel reads the limit of a call from its metadata and gives the call up on its own. The limit
was rounded down when it was written, and of two limits that pass together the channel's is noticed
first, so the failure that a request reports is that of the channel. Only a limit of zero passes
before the call has reached the channel.
-/

namespace RestGateway

open Race

namespace Grpc.Client

variable {rpc : Rpc} {service : Service} {message : rpc.Request} {metadata : Headers}
  {d : Duration}

/-- A call of a service behind a channel, before the channel looks at its limit. -/
def sent (service : Service) (rpc : Rpc) (message : rpc.Request) (metadata : Headers) :
    Attempt (Except Status (Reply rpc)) :=
  let attempt := Server.handle service (Utf8.encode rpc.path) (acrossConnection (sanitized metadata))
    ⟨[frame (Wire.encode message)], none⟩
  let answer := attempt.result.acrossConnection
  { arrival := crossing
    calls := attempt.calls
    ready := attempt.ready.map (later crossing)
    result := readAnswer rpc answer
    broken := !hasReadableDetails answer }

theorem call_eq_limited : call (.toService service) rpc message metadata =
    limited (limit? metadata) (sent service rpc message metadata) := rfl

/-- The limit of a channel is what was written, read back. -/
theorem limit?_set {u : Deadline.Unit} {text : String} (h : Deadline.writeIn? d u = some text) :
    limit? (metadata.set Deadline.name (Utf8.encode text)) = some (d.floor u) := by
  obtain ⟨hamount, _⟩ := Deadline.writeIn?_eq_some_iff.mp h
  have hdigits : String.ofList (Nat.toDigits 10 (d.nanos / u.nanos)) =
      (d.nanos / u.nanos).repr := by
    rw [← Nat.toList_repr, String.ofList_toList]
  have hshort : ¬ Deadline.digitLimit < (Nat.toDigits 10 (d.nanos / u.nanos)).length := by
    rw [Nat.not_lt]
    exact (Nat.length_toDigits_le_iff (by decide) (by decide)).mpr hamount
  have hread : Integer.read Integer.uint64 (d.nanos / u.nanos).repr =
      .ok ((d.nanos / u.nanos : Nat) : Int) := by
    refine Integer.readBytes_digits (Json.isDecimal_encode_repr _) ?_
    have hfits : 10 ^ Deadline.digitLimit ≤ Integer.uint64.greatest.toNat := by decide
    have hgreatest : (0 : Int) ≤ Integer.uint64.greatest := by decide
    omega
  simp only [limit?, Headers.get?_set_self, bind, Option.bind_some, Utf8.decode?_encode,
    Deadline.getLast?_of_writeIn? h, Deadline.Unit.ofLetter?_letter,
    Deadline.dropLast_of_writeIn? h, if_neg hshort, hdigits, hread, Int.toNat_natCast]
  rfl

/-- A call that takes longer than its limit is given up when the limit passes. -/
theorem limited_of_late {a : Attempt (Except Status (Reply rpc))}
    (harrival : a.arrival.nanos ≤ d.nanos) (h : time (some d) < time a.ready) :
    limited (some d) a = { a with ready := some d, result := .error expired, broken := false } := by
  have hlate : (Race.mk a.ready (some d) none).ending ≠ .answered := by
    rw [ne_eq, ending_eq_answered_iff]
    exact fun hfirst => hfirst.2.1.not_gt h
  simp only [limited, if_neg (Nat.not_lt.mpr harrival), if_neg hlate]

/-- A call with a limit of zero is given up as soon as it has reached the channel. -/
theorem limited_zero (a : Attempt (Except Status (Reply rpc))) (h : 0 < a.arrival.nanos) :
    limited (some ⟨0⟩) a =
      { arrival := a.arrival, ready := some a.arrival, result := .error expired } := by
  simp only [limited, if_pos h]

/-- A call that the service can read crosses the channel twice. -/
theorem sent_ready (hm : (acrossConnection (sanitized metadata)).get? encodingName = none)
    (h : (Wire.encode message).length ≤ sizeLimit) :
    (sent service rpc message metadata).ready =
      ((service.next rpc).ready none).map (later crossing) := by
  rw [sent, Server.handle_frame hm h]
  rfl

/-- A call that takes long because of its service takes as long in the same process. -/
theorem lt_time_ready_of_sent (hd : d.nanos ≠ 0)
    (h : time (some d) < time (sent service rpc message metadata).ready) :
    time (some d) < time ((service.next rpc).ready none) := by
  have hone : ¬ time (some d) < time (some crossing) := by
    rw [not_lt]
    exact Nat.cast_le.mpr (Nat.one_le_iff_ne_zero.mpr hd)
  simp only [sent, Server.handle, Utf8.decode?_encode, Option.getD_some, Rpc.ofPath?_path] at h
  split at h
  · exact absurd h hone
  · simp only [Attempt.map, Service.invoke] at h
    cases hready : (service.next rpc).ready none with
    | none => exact ENat.natCast_lt_top _
    | some moment =>
        rw [hready] at h
        have hlater : d.nanos < max 1 moment.nanos := Nat.cast_lt.mp h
        have hmoment : d.nanos < moment.nanos := by omega
        exact Nat.cast_lt.mpr hmoment

end Grpc.Client

namespace CompiledRoute

variable {rpc : Rpc} {route : CompiledRoute rpc} {limits : Limits} {captures : Option Captures}
  {r : Request}

section Remote

variable {service : Service} {c : Connection} {o : Order rpc} {d : Duration} {metadata : Headers}
  (hc : c.channel = .toService service) (hopen : c.isClosed = false) (hd : o.deadline = some d)
  (hm : metadata? r o.deadline = some metadata)
include hc hopen hd hm

/-- A call through an open connection is limited by what was written of the limit of its request. -/
theorem exists_invoke_remote_eq : ∃ u : Deadline.Unit,
    (∀ v : Deadline.Unit, d.nanos / v.nanos < 10 ^ Deadline.digitLimit → u.nanos ∣ v.nanos) ∧
      (Target.remote c).invoke rpc o.message metadata none =
        Grpc.Client.limited (some (d.floor u))
          (Grpc.Client.sent service rpc o.message metadata) := by
  rw [hd] at hm
  obtain ⟨text, u, hu, hfinest, rfl⟩ := exists_written_of_metadata? hm
  refine ⟨u, hfinest, ?_⟩
  rw [Target.invoke, Connection.invoke, if_neg (by simp [hopen]), hc, Grpc.Client.call_eq_limited,
    Grpc.Client.limit?_set hu]

/-- The channel gives up a call no later than the gateway would. -/
theorem perform_remote_of_late (hpos : d.nanos ≠ 0)
    (hlate : time (some d) < time (Grpc.Client.sent service rpc o.message metadata).ready) :
    (route.perform (.remote c) r o none).outcome =
      .response (Failure.ofStatus Grpc.Client.expired).response := by
  obtain ⟨u, hfinest, hinvoke⟩ := exists_invoke_remote_eq hc hopen hd hm
  have hcross : 1 ≤ (d.floor u).nanos := Deadline.floor_pos (Nat.pos_of_ne_zero hpos) hfinest
  have hfloor : time (some (d.floor u)) ≤ time (some d) := Nat.cast_le.mpr (d.floor_le u)
  rw [Grpc.Client.limited_of_late hcross (hfloor.trans_lt hlate)] at hinvoke
  have hresult : ((Target.remote c).invoke rpc o.message metadata none).result =
      .error Grpc.Client.expired := by rw [hinvoke]
  have hbroken : ((Target.remote c).invoke rpc o.message metadata none).broken = false := by
    rw [hinvoke]
  have hfirst : AnswersFirst ⟨((Target.remote c).invoke rpc o.message metadata none).ready,
      o.deadline, none⟩ := by
    rw [hinvoke, hd]
    exact ⟨ENat.natCast_ne_top _, hfloor, le_top⟩
  rw [perform_of_answered hm hfirst hbroken, hresult]
  rfl

/-- A limit of zero has passed before the call reaches the channel. -/
theorem perform_remote_of_zero (hzero : d.nanos = 0) :
    (route.perform (.remote c) r o none).outcome =
      .response Failure.deadlineExceeded.response := by
  obtain ⟨u, _, hinvoke⟩ := exists_invoke_remote_eq hc hopen hd hm
  have hfloor : d.floor u = ⟨0⟩ := by rw [Duration.floor, hzero, Nat.zero_div, Nat.zero_mul]
  rw [hfloor, Grpc.Client.limited_zero _ Nat.one_pos] at hinvoke
  apply perform_of_expired hm hd
  rw [hinvoke]
  exact Nat.cast_lt.mpr (hzero ▸ Nat.one_pos)

end Remote

/-- A request whose limit passes before its call through an open connection has returned, and that
nothing cancels, reports that the channel has given up, with the status of a cancelled call. With the
same service in the same process it reports the deadline. A limit of zero passes before the call
reaches the channel, and then the gateway reports the deadline. -/
theorem serve_remote_of_expired {service : Service} {c : Connection} {o : Order rpc} {d : Duration}
    {metadata : Headers} (hc : c.channel = .toService service) (hopen : c.isClosed = false)
    (hmethod : r.method = route.method) (ho : route.order limits captures r = .ok o)
    (hd : o.deadline = some d) (hm : metadata? r o.deadline = some metadata)
    (hlate : time (some d) < time (Grpc.Client.sent service rpc o.message metadata).ready) :
    let timeout := (Failure.ofStatus Grpc.Client.expired).response
    let deadline := Failure.deadlineExceeded.response
    (d.nanos ≠ 0 →
      (route.serve limits (.remote c) captures r none).outcome = .response timeout ∧
      (route.serve limits (.inProcess service) captures r none).outcome = .response deadline) ∧
    (d.nanos = 0 → (route.serve limits (.remote c) captures r none).outcome =
      .response deadline) ∧
    timeout.status = 408 ∧ timeout.body = Utf8.encode
      "\x7b\"code\":1,\"message\":\"Timeout expired\",\"details\":[]\x7d" ∧
    deadline.status = 504 ∧ deadline.body = Utf8.encode
      "\x7b\"code\":4,\"message\":\"context deadline exceeded\",\"details\":[]\x7d" := by
  intro timeout deadline
  rw [serve_of_order_ok hmethod ho, serve_of_order_ok hmethod ho]
  refine ⟨?_, perform_remote_of_zero hc hopen hd hm, by decide, by decide, by decide, by decide⟩
  intro hpos
  constructor
  · exact perform_remote_of_late hc hopen hd hm hpos hlate
  · exact perform_of_expired hm hd (Grpc.Client.lt_time_ready_of_sent hpos hlate)

/-- A service that never greets. -/
def silent : Service where
  answers
    | .ping => [{ hangs := true, result := .error ⟨.internal, "silent", []⟩ }]
    | _ => []

/-- An open connection to it. -/
def toSilent : Connection where
  endpoint := "http://localhost"
  channel := .toService silent

/-- The greeting with a limit of 100000.5 seconds, which is sent on without its half second. -/
def halved : Headers := (Metadata.annotate greeting).set Deadline.name (Utf8.encode "100000S")

theorem lt_time_sent_silent : time (some ⟨100000500000000⟩) <
    time (Grpc.Client.sent silent .ping {} halved).ready := by
  rw [Grpc.Client.sent_ready (by decide) (by decide)]
  exact ENat.natCast_lt_top _

theorem serve_silent_expired :
    ∃ route, Bindings.ping.compile = .ok route ∧
      (route.serve { timeout := some ⟨100000500000000⟩ } (.remote toSilent) (some []) greeting
        none).outcome = .response (Failure.ofStatus Grpc.Client.expired).response ∧
      (route.serve { timeout := some ⟨100000500000000⟩ } (.inProcess silent) (some []) greeting
        none).outcome = .response Failure.deadlineExceeded.response := by
  refine ⟨_, rfl, ?_⟩
  exact (@serve_remote_of_expired _ _ { timeout := some ⟨100000500000000⟩ } (some []) greeting
    silent toSilent _ _ halved rfl rfl rfl rfl rfl (by rfl) lt_time_sent_silent).1 (by decide)

/-- A limit that passes is not always reported as one. -/
theorem not_deadlineExceeded_of_expired :
    ¬ ∀ route limits captures r c service o d metadata, Bindings.ping.compile = .ok route →
      c.channel = .toService service → c.isClosed = false → r.method = route.method →
      route.order limits captures r = .ok o → o.deadline = some d →
      metadata? r o.deadline = some metadata →
      time (some d) < time (Grpc.Client.sent service .ping o.message metadata).ready →
        (route.serve limits (.remote c) captures r none).outcome =
          .response Failure.deadlineExceeded.response := by
  intro h
  have hdeadline := h _ { timeout := some ⟨100000500000000⟩ } (some []) greeting toSilent silent _
    _ halved rfl rfl rfl rfl rfl rfl (by rfl) lt_time_sent_silent
  rw [serve_of_order_ok rfl rfl,
    perform_remote_of_late rfl rfl rfl (by rfl) (by decide) lt_time_sent_silent] at hdeadline
  cases hdeadline

end CompiledRoute

end RestGateway
