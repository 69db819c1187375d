import RestGateway.Bindings
import RestGateway.Proofs.Deadline.RoundTrip
import RestGateway.Proofs.Dispatch.Calls
import RestGateway.Proofs.Metadata.Annotate

/-!
# Limits that travel with calls

A limit travels with the call of its request in the place of what the client marked, rounded down to
the unit that it is written in. A request without a limit marks its own: what the client wrote under
the name is passed on as it is.
-/

namespace RestGateway

theorem Deadline.effective_none (client : Option Duration) : effective none client = client := by
  cases client <;> rfl

theorem Deadline.ofHeaders_of_get?_eq_none {headers : Headers} (h : headers.get? name = none) :
    ofHeaders headers = .ok none := by
  simp [ofHeaders, h]

namespace Grpc

/-- A connection keeps no name but those of its own and those that it lists. -/
theorem values_acrossConnection {headers : Headers} {name : String}
    (hn : name ∉ connectionNames) (hl : name ∉ listedNames headers) :
    (acrossConnection headers).values name = headers.values name := by
  apply Headers.values_filter
  rintro h - rfl
  simp [hn, hl]

theorem values_sanitized {metadata : Headers} {name : String} (hn : name ∉ ownNames) :
    (sanitized metadata).values name = metadata.values name := by
  apply Headers.values_filter
  rintro h - rfl
  simp [hn]

/-- A channel sets no limit where its metadata has none. -/
theorem Client.limit?_eq_none {metadata : Headers} (h : metadata.values Deadline.name = []) :
    limit? metadata = none := by
  rw [limit?, Headers.get?, h]
  rfl

end Grpc

/-- A service sees no more values of a name than were sent. -/
theorem Target.values_received_sublist (target : Target) (metadata : Headers) (name : String) :
    ((target.received metadata).values name).Sublist (metadata.values name) := by
  cases target with
  | inProcess service => exact List.Sublist.refl _
  | remote c =>
      have hsanitized := Headers.values_filter_sublist metadata
        (fun h => !Grpc.ownNames.contains h.name) name
      exact (Headers.values_filter_sublist _ _ name).trans hsanitized

namespace CompiledRoute

variable {rpc : Rpc} {route : CompiledRoute rpc} {limits : Limits} {r : Request}

/-- A limit in metadata is written in a unit that divides all others that would fit. -/
theorem exists_written_of_metadata? {d : Duration} {metadata : Headers}
    (h : metadata? r (some d) = some metadata) : ∃ text u, Deadline.writeIn? d u = some text ∧
      (∀ v : Deadline.Unit, d.nanos / v.nanos < 10 ^ Deadline.digitLimit → u.nanos ∣ v.nanos) ∧
      metadata = (Metadata.annotate r).set Deadline.name (Utf8.encode text) := by
  obtain ⟨text, htext, rfl⟩ := Option.map_eq_some_iff.mp h
  obtain ⟨u, hu, hfinest⟩ := Deadline.exists_unit_of_write? htext
  exact ⟨text, u, hu, hfinest, rfl⟩

/-- Every call that a request leads to carries the metadata, as far as its target lets it through. -/
def Carries (route : CompiledRoute rpc) (limits : Limits) (r : Request) (metadata : Headers) : Prop :=
  ∀ target captures cancel, ∀ call ∈ (route.serve limits target captures r cancel).calls,
    call.metadata = target.received metadata

theorem carries_of_deadline {client deadline : Option Duration} {metadata : Headers}
    (hc : Deadline.ofHeaders r.headers = .ok client)
    (hd : Deadline.effective limits.timeout client = deadline)
    (hm : metadata? r deadline = some metadata) : route.Carries limits r metadata := by
  intro target captures cancel call hcall
  obtain ⟨_, _, o, metadata', ho, hm', hcall⟩ := of_mem_calls hcall
  obtain ⟨_, client', _, _, hc', hd'⟩ := order_eq_ok_iff.mp ho
  cases hc.symm.trans hc'
  rw [hd', hd, hm] at hm'
  cases hm'
  exact hcall

/-- The calls of a request with a limit carry it once, whatever the client marked, and in a form in
which it can be read. What is read falls short of the limit by less than the unit in which it is
written, and a limit that the client has set does not lose anything. A service behind a connection
sees it too, unless the connection lists its name. -/
theorem serve_limited_metadata {client : Option Duration} {d : Duration}
    (ht : ∀ t, limits.timeout = some t → t.hours < 10 ^ Deadline.digitLimit)
    (hc : Deadline.ofHeaders r.headers = .ok client)
    (hd : Deadline.effective limits.timeout client = some d) :
    ∃ metadata text d' unit, route.Carries limits r metadata ∧
      metadata.values Deadline.name = [Utf8.encode text] ∧
      Deadline.parse? text = some d' ∧
      text.toList.getLast? = some (Deadline.Unit.letter unit) ∧
      d'.nanos ≤ d.nanos ∧ d.nanos - d'.nanos < unit.nanos ∧
      (client = some d → d' = d) ∧
      ∀ c, Deadline.name ∉ Grpc.listedNames (Grpc.sanitized metadata) →
        ((Target.remote c).received metadata).values Deadline.name = [Utf8.encode text] := by
  have hhours := Deadline.hours_lt_of_effective ht (Deadline.hours_lt_of_ofHeaders hc)
  rw [hd] at hhours
  obtain ⟨metadata, hmetadata, _⟩ := metadata?_of_hours_lt (r := r) hhours
  obtain ⟨text, unit, hunit, hfinest, rfl⟩ := exists_written_of_metadata? hmetadata
  have hvalues := Headers.values_set_self (Metadata.annotate r) Deadline.name (Utf8.encode text)
  refine ⟨_, text, d.floor unit, unit, carries_of_deadline hc hd hmetadata, hvalues,
    Deadline.parse?_of_writeIn? hunit, Deadline.getLast?_of_writeIn? hunit, d.floor_le unit,
    d.sub_floor_lt unit, ?_, ?_⟩
  · rintro rfl
    obtain ⟨written, hwritten⟩ := Deadline.exists_text_of_ofHeaders hc
    exact Deadline.floor_eq_self_of_parse? hwritten hfinest
  · intro c hlisted
    rw [Target.received, Grpc.values_acrossConnection (by decide) hlisted,
      Grpc.values_sanitized (by decide), hvalues]

/-- A request with a limit of ninety seconds that marks two others. -/
def hurried : Request where
  uri := ⟨none, Utf8.encode "/ping", none⟩
  headers := [⟨Deadline.name, Utf8.encode "90S"⟩,
    ⟨Metadata.marking Deadline.name, Utf8.encode "1H"⟩,
    ⟨Metadata.marking Deadline.name, Utf8.encode "soon"⟩]

/-- The service sees the limit of the client, and not what else the client marked. -/
theorem serve_hurried_metadata :
    (∀ t, (some ⟨100000500000000⟩ : Option Duration) = some t →
      t.hours < 10 ^ Deadline.digitLimit) ∧
    Deadline.ofHeaders hurried.headers = .ok (some ⟨90000000000⟩) ∧
    Deadline.effective (some ⟨100000500000000⟩) (some ⟨90000000000⟩) = some ⟨90000000000⟩ ∧
    ∃ route calls, Bindings.ping.compile = .ok route ∧
      (route.serve { timeout := some ⟨100000500000000⟩ } (.inProcess .empty) none hurried
        none).calls = calls ∧ calls.length = 1 ∧
      ∀ call ∈ calls, ∃ text, call.metadata.values Deadline.name = [Utf8.encode text] ∧
        Deadline.parse? text = some ⟨90000000000⟩ := by
  have ht : ∀ t, (some ⟨100000500000000⟩ : Option Duration) = some t →
      t.hours < 10 ^ Deadline.digitLimit := by
    rintro t ⟨⟩
    decide
  have hc : Deadline.ofHeaders hurried.headers = .ok (some ⟨90000000000⟩) := by rfl
  have hd : Deadline.effective (some ⟨100000500000000⟩) (some ⟨90000000000⟩) =
      some ⟨90000000000⟩ := by rfl
  refine ⟨ht, hc, hd, _, _, rfl, rfl, rfl, ?_⟩
  intro call hcall
  obtain ⟨metadata, text, d', unit, hcarries, hvalues, hparse, _, _, _, hexact, _⟩ :=
    @serve_limited_metadata _ _ { timeout := some ⟨100000500000000⟩ } hurried _ _ ht hc hd
  refine ⟨text, ?_, ?_⟩
  · rw [hcarries _ _ _ call hcall]
    exact hvalues
  · rw [hparse, hexact rfl]

/-- The calls of a request without a limit carry what the client marked as one, as it is, and
nothing else: a service sees no other values, and a client that marks nothing leaves no limit for a
channel to enforce. -/
theorem serve_unlimited_metadata (hr : r.headers.IsNamed) (ht : limits.timeout = none)
    (hc : r.headers.get? Deadline.name = none) :
    route.Carries limits r (Metadata.annotate r) ∧
      (Metadata.annotate r).values Deadline.name =
        r.headers.values (Metadata.marking Deadline.name) ∧
      (∀ target : Target, ((target.received (Metadata.annotate r)).values Deadline.name).Sublist
        (r.headers.values (Metadata.marking Deadline.name))) ∧
      (r.headers.values (Metadata.marking Deadline.name) = [] →
        Grpc.Client.limit? (Metadata.annotate r) = none) := by
  have hvalues := Metadata.values_annotate_limit hr
  have hdeadline : Deadline.effective limits.timeout none = none := by
    rw [ht, Deadline.effective_none]
  refine ⟨carries_of_deadline (Deadline.ofHeaders_of_get?_eq_none hc) hdeadline rfl, hvalues, ?_,
    ?_⟩
  · intro target
    rw [← hvalues]
    exact target.values_received_sublist _ _
  · intro hmarked
    exact Grpc.Client.limit?_eq_none (hvalues.trans hmarked)

/-- A request without a limit that marks one. -/
def marked : Request where
  uri := ⟨none, Utf8.encode "/ping", none⟩
  headers := [⟨Metadata.marking Deadline.name, Utf8.encode "5S"⟩]

theorem serve_marked_metadata :
    marked.headers.IsNamed ∧ marked.headers.get? Deadline.name = none ∧
      ∃ route calls, Bindings.ping.compile = .ok route ∧
        (route.serve {} (.inProcess .empty) none marked none).calls = calls ∧ calls.length = 1 ∧
        ∀ call ∈ calls, call.metadata.values Deadline.name = [Utf8.encode "5S"] := by
  have hnamed : marked.headers.IsNamed := by decide
  have hnone : marked.headers.get? Deadline.name = none := by rfl
  refine ⟨hnamed, hnone, _, _, rfl, rfl, rfl, ?_⟩
  intro call hcall
  obtain ⟨hcarries, hvalues, _⟩ := @serve_unlimited_metadata _ _ {} marked hnamed rfl hnone
  rw [hcarries _ _ _ call hcall]
  exact hvalues

/-- A service can see a limit where the gateway has none. -/
theorem not_unlimited_of_marked :
    ¬ ∀ route limits r target captures cancel, Bindings.ping.compile = .ok route →
      r.headers.IsNamed → limits.timeout = none → r.headers.get? Deadline.name = none →
        ∀ call ∈ (route.serve limits target captures r cancel).calls,
          call.metadata.values Deadline.name = [] := by
  intro h
  have hnone := h _ {} marked (.inProcess .empty) none none rfl (by decide) rfl rfl _
    (List.mem_singleton.mpr rfl)
  cases hnone

end CompiledRoute

end RestGateway
