import RestGateway.Proofs.Gateway.Routing
import RestGateway.Proofs.Text.Percent

/-!
# Audits by their identifiers

An identifier is written into a path with escapes for all bytes that are not unreserved, so it stays
one segment, whatever it holds. The routes of the service read it back once, and the call that
follows is about this identifier and no other. A segment that is no text is refused.
-/

namespace RestGateway

/-- An unreserved byte may stand in a path. -/
theorem Percent.isPathByte_of_isUnreserved {b : UInt8} (h : isUnreserved b = true) :
    Uri.isPathByte b = true := by
  simp only [isUnreserved, Ascii.isAlphanumeric, Ascii.isDigit, Ascii.isUpper, Ascii.isLower,
    Uri.isPathByte, Bool.or_eq_true, Bool.and_eq_true, decide_eq_true_eq, beq_iff_eq,
    UInt8.le_iff_toNat_le, ← UInt8.toNat_inj] at h ⊢
  simp only [UInt8.reduceToNat] at h ⊢
  omega

namespace Uri

/-- A path without a query is read as it is. -/
theorem readTarget_of_path {s : Bytes} (h : ∀ b ∈ s, isPathByte b = true) :
    readTarget s = some (s, none) := by
  have hmark : ∀ b ∈ s, (b != 0x3F && b != 0x23) = true := by
    intro b hb
    have hpath := h b hb
    rw [Bool.and_eq_true, bne_iff_ne, bne_iff_ne]
    constructor
    · rintro rfl
      cases hpath
    · rintro rfl
      cases hpath
  have hspan := @span_append _ _ _ hmark [] (by simp)
  rw [List.append_nil] at hspan
  have hall : s.all isPathByte = true := List.all_eq_true.mpr h
  simp only [readTarget, hspan, hall, Bool.not_true, Bool.false_eq_true, if_false]

/-- A path that starts with a slash and is not too long is a target. -/
theorem parse?_of_path {s : Bytes} (hslash : s.head? = some 0x2F)
    (h : ∀ b ∈ s, isPathByte b = true) (hlength : s.length ≤ 65534) :
    parse? s = some ⟨none, s, none⟩ := by
  obtain ⟨rest, rfl⟩ := List.head?_eq_some_iff.mp hslash
  have hfits : ((0x2F :: rest).isEmpty || decide (65534 < (0x2F :: rest).length)) = false := by
    simpa using hlength
  have hstar : (0x2F :: rest == [0x2A]) = false := rfl
  rw [parse?, hfits, hstar, readTarget_of_path h]
  rfl

end Uri

/-- For a request one call of a method was made, with this message and the limit that counts. -/
def Exchange.CallsOnce (e : Exchange) (r : Request) (deadline : Option Duration) (rpc : Rpc)
    (message : rpc.Request) : Prop :=
  ∃ metadata, CallMetadata r deadline metadata ∧ e.calls = [⟨rpc, message, metadata⟩]

namespace CompiledRoute

variable {rpc : Rpc} {route : CompiledRoute rpc} {limits : Limits} {r : Request}

section Params

variable {name : String} {piece : Bytes} (hfields : route.pathFields.isEmpty = false)

include hfields

theorem params_of_text {value : String}
    (hvalue : Utf8.decode? (Percent.decode piece) = some value) :
    route.params (some [(name, piece)]) = .ok [(name, value)] := by
  simp only [params, hfields, decodeCaptures, hvalue]
  rfl

/-- A variable that is no text is reported by its name. -/
theorem params_of_not_text (hvalue : Utf8.decode? (Percent.decode piece) = none) :
    route.params (some [(name, piece)]) =
      .error (.invalidArgument s!"Invalid UTF-8 in `{name}`") := by
  simp only [params, hfields, decodeCaptures, hvalue]
  rfl

/-- A request for a variable that is no text is refused. -/
theorem serve_refuses_of_not_text (hm : r.method = route.method)
    (hvalue : Utf8.decode? (Percent.decode piece) = none) (target : Target)
    (cancel : Option Duration) :
    (route.serve limits target (some [(name, piece)]) r cancel).Refuses 400 := by
  have ho : route.order limits (some [(name, piece)]) r =
      .error (.invalidArgument s!"Invalid UTF-8 in `{name}`") := by
    rw [order, params_of_not_text hfields hvalue]
    rfl
  rw [serve_of_order_error hm ho]
  exact ⟨rfl, _, rfl, rfl⟩

end Params

/-- A request whose message and limit are read makes one call of a service of the same process. -/
theorem serve_callsOnce {captures : Option Captures} {params : Params} {m : rpc.Request}
    {client : Option Duration} (hm : r.method = route.method)
    (hp : route.params captures = .ok params)
    (hd : route.decodeRequest limits.bodyLimit r params = .ok m)
    (hc : Deadline.ofHeaders r.headers = .ok client)
    (ht : ∀ t, limits.timeout = some t → t.hours < 10 ^ Deadline.digitLimit) (service : Service)
    (cancel : Option Duration) :
    (route.serve limits (.inProcess service) captures r cancel).CallsOnce r
      (Deadline.effective limits.timeout client) rpc m := by
  have hhours := Deadline.hours_lt_of_effective ht (Deadline.hours_lt_of_ofHeaders hc)
  rw [serve_of_order_ok hm (order_of_decoded hp hd hc)]
  exact perform_inProcess_calls (o := ⟨m, Deadline.effective limits.timeout client⟩) service cancel
    hhours

end CompiledRoute

theorem Exchange.CallsOnce.withLength {e : Exchange} {r : Request} {deadline : Option Duration}
    {rpc : Rpc} {message : rpc.Request} (h : e.CallsOnce r deadline rpc message) :
    e.withLength.CallsOnce r deadline rpc message := by
  obtain ⟨metadata, hmetadata, hcalls⟩ := h
  exact ⟨metadata, hmetadata, (withLength_calls e).trans hcalls⟩

namespace Bindings

/-- The table with the routes of the service. -/
def table : Table := (Table.addAll {} all).toOption.getD {}

/-- The router of the service. -/
def router : Router := ⟨table.paths, by decide⟩

/-- The template of a single audit. -/
def auditTemplate : Template := ⟨[.literal "v1", .literal "audit", .variable "id"]⟩

/-- The route that reads an audit, checked. -/
def reading : CompiledRoute .auditRead :=
  ⟨.get, auditTemplate, .empty, auditRead.pathFields, .message⟩

/-- The route that changes an audit, checked. -/
def changing : CompiledRoute .auditUpdate :=
  ⟨.patch, auditTemplate, .body, auditUpdate.pathFields, .message⟩

/-- The endpoints of a single audit. -/
def auditEndpoints : List Endpoint := [⟨_, reading⟩, ⟨_, changing⟩]

theorem reading_mem : (⟨_, reading⟩ : Endpoint) ∈ auditEndpoints := List.mem_cons_self

theorem changing_mem : (⟨_, changing⟩ : Endpoint) ∈ auditEndpoints :=
  List.mem_cons_of_mem _ List.mem_cons_self

/-- The path of an audit, with this segment for its identifier. -/
def auditPath (piece : Bytes) : Bytes := Utf8.encode "/v1/audit/" ++ piece

set_option maxRecDepth 4000 in
theorem isPathByte_of_mem_auditPath (id : String) :
    ∀ b ∈ auditPath (Percent.encodeText id), Uri.isPathByte b = true := by
  have hroot : ∀ b ∈ Utf8.encode "/v1/audit/", Uri.isPathByte b = true := by decide
  intro b hb
  rcases List.mem_append.mp hb with hb | hb
  · exact hroot b hb
  · rcases Percent.of_mem_encodeText hb with rfl | hb
    · rfl
    · exact Percent.isPathByte_of_isUnreserved hb

section Matching

variable {piece : Bytes} (hne : piece ≠ []) (huncut : 0x2F ∉ piece)

include huncut in
theorem segments?_auditPath :
    Router.segments? (auditPath piece) =
      some [Utf8.encode "v1", Utf8.encode "audit", piece] := by
  have hjoined : auditPath piece =
      0x2F :: joined 0x2F [Utf8.encode "v1", Utf8.encode "audit", piece] := by
    rw [joined_cons, List.flatMap_cons, List.flatMap_cons, List.flatMap_nil, List.append_nil]
    rfl
  have hall : ∀ q ∈ [Utf8.encode "v1", Utf8.encode "audit", piece], 0x2F ∉ q := by
    intro q hq
    simp only [List.mem_cons, List.not_mem_nil, or_false] at hq
    rcases hq with rfl | rfl | rfl
    · decide
    · decide
    · exact huncut
  rw [hjoined]
  exact congrArg some (pieces_joined (List.cons_ne_nil _ _) hall)

include hne huncut

set_option maxRecDepth 4000 in
/-- The router finds the audit, and its identifier is the whole segment. -/
theorem find?_auditPath :
    router.find? (auditPath piece) = some (⟨auditTemplate, auditEndpoints⟩, [("id", piece)]) := by
  rw [Router.find?, segments?_auditPath huncut]
  cases piece with
  | nil => exact absurd rfl hne
  | cons b rest => rfl

/-- A request for an audit is served by the route with its method. -/
theorem serve_auditPath {r : Request} (hpath : r.uri.path = auditPath piece) {e : Endpoint}
    (he : e ∈ auditEndpoints) (hm : r.method = e.method) (limits : Limits) (target : Target)
    (cancel : Option Duration) :
    router.serve limits target r cancel =
      (e.route.serve limits target (some [("id", piece)]) r cancel).withLength := by
  simp only [Router.serve, hpath, find?_auditPath hne huncut, hm]
  simp only [auditEndpoints, List.mem_cons, List.not_mem_nil, or_false] at he
  rcases he with rfl | rfl
  · rfl
  · rfl

/-- A segment that is no text is refused, whatever is asked about it. -/
theorem serve_auditPath_refuses {r : Request} (hpath : r.uri.path = auditPath piece)
    (hvalue : Utf8.decode? (Percent.decode piece) = none)
    (hm : r.method = .get ∨ r.method = .patch) (limits : Limits) (target : Target)
    (cancel : Option Duration) : (router.serve limits target r cancel).Refuses 400 := by
  rcases hm with hm | hm
  · rw [serve_auditPath hne huncut hpath reading_mem hm]
    exact (CompiledRoute.serve_refuses_of_not_text rfl hm hvalue target cancel).withLength
  · rw [serve_auditPath hne huncut hpath changing_mem hm]
    exact (CompiledRoute.serve_refuses_of_not_text rfl hm hvalue target cancel).withLength

end Matching

section Identifier

variable {id : String} {limits : Limits} {r : Request} {client : Option Duration}

theorem encodeText_uncut (id : String) : 0x2F ∉ Percent.encodeText id :=
  Percent.not_mem_encodeText (by decide) rfl id

/-- An identifier that was written into a path is read back. -/
theorem decode?_encodeText (id : String) :
    Utf8.decode? (Percent.decode (Percent.encodeText id)) = some id := by
  rw [Percent.decode_encodeText, Utf8.decode?_encode]

variable (hid : id ≠ "") (hpath : r.uri.path = auditPath (Percent.encodeText id))
  (ht : ∀ t, limits.timeout = some t → t.hours < 10 ^ Deadline.digitLimit)
  (hc : Deadline.ofHeaders r.headers = .ok client) (service : Service) (cancel : Option Duration)

include hid hpath ht hc

theorem serve_reading (hm : r.method = .get) :
    (router.serve limits (.inProcess service) r cancel).CallsOnce r
      (Deadline.effective limits.timeout client) .auditRead { id } := by
  have hne : Percent.encodeText id ≠ [] := mt Percent.encodeText_eq_nil_iff.mp hid
  have hparams : reading.params (some [("id", Percent.encodeText id)]) = .ok [("id", id)] :=
    CompiledRoute.params_of_text rfl (decode?_encodeText id)
  rw [serve_auditPath hne (encodeText_uncut id) hpath reading_mem hm]
  apply Exchange.CallsOnce.withLength
  exact CompiledRoute.serve_callsOnce hm hparams rfl hc ht service cancel

/-- The identifier of a change is that of its path, whatever its body says. -/
theorem serve_changing (hm : r.method = .patch) {body : Bytes} {m : Message.AuditUpdateRequest}
    (hbody : r.body.read limits.bodyLimit = .ok body)
    (hdecode : decodeBody Message.AuditUpdateRequest body = .ok m) :
    (router.serve limits (.inProcess service) r cancel).CallsOnce r
      (Deadline.effective limits.timeout client) .auditUpdate { m with id } := by
  have hne : Percent.encodeText id ≠ [] := mt Percent.encodeText_eq_nil_iff.mp hid
  have hparams : changing.params (some [("id", Percent.encodeText id)]) = .ok [("id", id)] :=
    CompiledRoute.params_of_text rfl (decode?_encodeText id)
  have hsource : changing.decodeSource limits.bodyLimit r = .ok m := by
    simp only [CompiledRoute.decodeSource, changing, hbody]
    exact hdecode
  have hmessage : changing.decodeRequest limits.bodyLimit r [("id", id)] = .ok { m with id } := by
    rw [CompiledRoute.decodeRequest, hsource]
    rfl
  rw [serve_auditPath hne (encodeText_uncut id) hpath changing_mem hm]
  apply Exchange.CallsOnce.withLength
  exact CompiledRoute.serve_callsOnce hm hparams hmessage hc ht service cancel

end Identifier

/-- Whatever an identifier is, the path that it is written into is a target, and a request for it
makes one call of a service of the same process, which reads or changes the audit with this
identifier. A segment that is no text is refused without a call. -/
theorem serve_audit :
    Table.addAll {} all = .ok table ∧ Router.ofTable? table = some router ∧
    (∀ id, (auditPath (Percent.encodeText id)).length ≤ 65534 →
      Uri.parse? (auditPath (Percent.encodeText id)) =
        some ⟨none, auditPath (Percent.encodeText id), none⟩) ∧
    (∀ id limits service r cancel client, id ≠ "" →
      r.uri.path = auditPath (Percent.encodeText id) →
      (∀ t, limits.timeout = some t → t.hours < 10 ^ Deadline.digitLimit) →
      Deadline.ofHeaders r.headers = .ok client →
        (r.method = .get →
          (router.serve limits (.inProcess service) r cancel).CallsOnce r
            (Deadline.effective limits.timeout client) .auditRead { id }) ∧
        ∀ body m, r.method = .patch → r.body.read limits.bodyLimit = .ok body →
          decodeBody Message.AuditUpdateRequest body = .ok m →
            (router.serve limits (.inProcess service) r cancel).CallsOnce r
              (Deadline.effective limits.timeout client) .auditUpdate { m with id }) ∧
    ∀ piece limits target r cancel, 0x2F ∉ piece →
      Utf8.decode? (Percent.decode piece) = none → r.uri.path = auditPath piece →
      r.method = .get ∨ r.method = .patch →
        (router.serve limits target r cancel).Refuses 400 := by
  refine ⟨rfl, rfl, ?_, ?_, ?_⟩
  · intro id hlength
    exact Uri.parse?_of_path rfl (isPathByte_of_mem_auditPath id) hlength
  · intro id limits service r cancel client hid hpath ht hc
    constructor
    · intro hm
      exact serve_reading hid hpath ht hc service cancel hm
    · intro body m hm hbody hdecode
      exact serve_changing hid hpath ht hc service cancel hm hbody hdecode
  · intro piece limits target r cancel huncut hvalue hpath hm
    have hne : piece ≠ [] := by
      rintro rfl
      cases hvalue
    exact serve_auditPath_refuses hne huncut hpath hvalue hm limits target cancel

/-- A slash in an identifier does not end its segment, and a plus sign and a percent sign stand for
themselves. -/
theorem serve_audit_punctuated :
    ∃ r : Request, r.uri.path = Utf8.encode "/v1/audit/a%2Fb%2B%25" ∧
      (router.serve {} (.inProcess .empty) r none).CallsOnce r none .auditRead
        { id := "a/b+%" } := by
  have ht : ∀ t, (none : Option Duration) = some t → t.hours < 10 ^ Deadline.digitLimit := by
    intro t h
    cases h
  refine ⟨{ uri := ⟨none, auditPath (Percent.encodeText "a/b+%"), none⟩ }, by decide, ?_⟩
  exact (serve_audit.2.2.2.1 "a/b+%" {} .empty _ none none (by decide) rfl ht rfl).1 rfl

end Bindings

end RestGateway
