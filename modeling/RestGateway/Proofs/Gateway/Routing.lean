import RestGateway.Proofs.Dispatch.Calls
import RestGateway.Proofs.Gateway.Proxy
import RestGateway.Proofs.Route.Additions
import RestGateway.Proofs.Route.Matching

/-!
# Which route a request is served by

The router of a table serves a request by the template that comes first among those that match its
path, and no other template is considered. A route with this template and the method of the request
takes the request. Where there is none the method is not allowed, and where no template matches
nothing is found; neither calls the service.
-/

namespace RestGateway

namespace Exchange

/-- A request is answered with a status, and the service is not called. -/
def Refuses (e : Exchange) (status : Nat) : Prop :=
  e.calls = [] ∧ ∃ response, e.outcome = .response response ∧ response.status = status

theorem Refuses.withLength {e : Exchange} {status : Nat} (h : e.Refuses status) :
    e.withLength.Refuses status := by
  obtain ⟨hcalls, response, houtcome, hstatus⟩ := h
  refine ⟨(withLength_calls e).trans hcalls, response.withLength, ?_, hstatus⟩
  simp only [Exchange.withLength, houtcome]

end Exchange

/-- What a path answers to a method that it does not serve. -/
theorem methodNotAllowed_withLength (methods : List Method) :
    (methodNotAllowed methods).withLength =
      ⟨405, [⟨"allow", Utf8.encode (",".intercalate (methods.map Method.name))⟩,
        ⟨"content-length", Utf8.encode (toString 0)⟩], []⟩ := by
  simp [Response.withLength, methodNotAllowed, Headers.set, Headers.erase, Headers.append]

namespace Table

/-- The template of a table that comes first among those that match a path. -/
structure Prefers (t : Table) (path : Bytes) (T : Template) : Prop where
  registered : ∃ d ∈ t.routes, d.template = T
  matched : T.Matches path
  first : ∀ d ∈ t.routes, d.template.Matches path →
    d.template = T ∨ Segment.Precede T.segments d.template.segments

theorem Prefers.unique {t : Table} {path : Bytes} {T T' : Template} (h : t.Prefers path T)
    (h' : t.Prefers path T') : T = T' := by
  obtain ⟨d, hd, rfl⟩ := h.registered
  obtain ⟨d', hd', rfl⟩ := h'.registered
  rcases h.first d' hd' h'.matched with heq | hlt
  · exact heq.symm
  · rcases h'.first d hd h.matched with heq | hgt
    · exact heq
    · exact absurd hgt hlt.asymm

/-- What a table says about a request and what becomes of it. -/
structure Governs (t : Table) (r : Request) (e : Exchange) : Prop where
  /-- Only a route with the preferred template and the method of the request leads to a call. -/
  called : ∀ call ∈ e.calls,
    ∃ d ∈ t.routes, t.Prefers r.uri.path d.template ∧ d.method = r.method ∧ d.rpc = call.rpc
  /-- Other templates that match do not matter. -/
  notAllowed : ∀ T, t.Prefers r.uri.path T →
    (∀ d ∈ t.routes, d.template = T → d.method ≠ r.method) → e.Refuses 405
  notFound : (∀ d ∈ t.routes, ¬ d.template.Matches r.uri.path) → e.Refuses 404
  /-- Where templates match, one of them is preferred. -/
  preferred : (∃ d ∈ t.routes, d.template.Matches r.uri.path) → ∃! T, t.Prefers r.uri.path T

section

variable {t : Table} {es : List Endpoint} {p : Path}

/-- The path of a template that was registered. -/
theorem Holds.exists_path (hw : t.Holds es) {d : Descriptor} (hd : d ∈ t.routes) :
    ∃ p ∈ t.paths, p.template = d.template :=
  List.mem_map.mp ((hw.paths.mem_iff _).mpr (List.mem_map_of_mem hd))

/-- A route that has the template of a path. -/
theorem Holds.exists_route (hw : t.Holds es) (hp : p ∈ t.paths) :
    ∃ d ∈ t.routes, d.template = p.template :=
  List.mem_map.mp ((hw.paths.mem_iff _).mp (List.mem_map_of_mem hp))

theorem Holds.literal_empty_notMem (hw : t.Holds es) (hp : p ∈ t.paths) :
    .literal "" ∉ p.template.segments := by
  obtain ⟨d, hd, htemplate⟩ := hw.exists_route hp
  rw [hw.routes] at hd
  obtain ⟨e, he, rfl⟩ := List.mem_map.mp hd
  obtain ⟨r, hc⟩ := hw.compiled e he
  rw [← htemplate]
  exact (Template.parse_eq_ok hc.parse_text).2

/-- The endpoint that takes a request was registered with the template of its path. -/
theorem Holds.of_endpoint? (hw : t.Holds es) (hp : p ∈ t.paths) {m : Method} {e : Endpoint}
    (he : p.endpoint? m = some e) :
    e ∈ es ∧ e.route.descriptor ∈ t.routes ∧ e.route.template = p.template := by
  obtain ⟨hes, htemplate⟩ := hw.of_mem_endpoints hp (Path.mem_endpoints_of_endpoint? he).1
  refine ⟨hes, ?_, htemplate⟩
  rw [hw.routes]
  exact List.mem_map_of_mem hes

/-- A path hands the method of a route with its template to the endpoint of this route. -/
theorem Holds.endpoint?_eq_some (hw : t.Holds es) (hp : p ∈ t.paths) {d : Descriptor}
    (hd : d ∈ t.routes) (htemplate : d.template = p.template) :
    ∃ e, p.endpoint? d.method = some e ∧ e.route.descriptor = d := by
  rw [hw.routes] at hd
  obtain ⟨e, he, rfl⟩ := List.mem_map.mp hd
  obtain ⟨e', he', hm⟩ := (hw.exists_endpoint?_iff hp).mpr ⟨e, he, rfl, htemplate⟩
  obtain ⟨hes', _, htemplate'⟩ := hw.of_endpoint? hp he'
  have hpair : e'.pair = e.pair := Prod.ext hm (htemplate'.trans htemplate.symm)
  obtain rfl := List.inj_on_of_nodup_map hw.once hes' he hpair
  exact ⟨e', he', rfl⟩

end

end Table

namespace Router

/-- The paths of a router with the routes of a table. -/
theorem paths_of_ofTable? {t : Table} {router : Router} (h : ofTable? t = some router) :
    router.paths = t.paths := by
  unfold ofTable? at h
  split at h
  · cases h
    rfl
  · cases h

section

variable {t : Table} {es : List Endpoint} {router : Router} {path : Bytes}

/-- A path that a router finds has the template that the table prefers. -/
theorem prefers_of_find? (hw : t.Holds es) (hr : router.paths = t.paths) {p : Path}
    {values : Captures} (h : router.find? path = some (p, values)) :
    p ∈ t.paths ∧ t.Prefers path p.template ∧
      ∃ ps, p.template.Cuts path ps ∧ values = captures p.template.segments ps := by
  have hne : ∀ p ∈ router.paths, .literal "" ∉ p.template.segments := by
    intro p hp
    exact hw.literal_empty_notMem (hr ▸ hp)
  obtain ⟨hp, ⟨ps, hcuts, hvalues⟩, hfirst⟩ := find?_eq_some hne h
  rw [hr] at hp hfirst
  refine ⟨hp, ⟨hw.exists_route hp, ⟨ps, hcuts⟩, ?_⟩, ps, hcuts, hvalues⟩
  intro d hd hmatch
  obtain ⟨q, hq, hqd⟩ := hw.exists_path hd
  rw [← hqd] at hmatch ⊢
  rcases hfirst q hq hmatch with rfl | hprecede
  · exact Or.inl rfl
  · exact Or.inr hprecede

/-- A router finds nothing exactly if no template of the table matches. -/
theorem find?_eq_none_iff_of_holds (hw : t.Holds es) (hr : router.paths = t.paths) :
    router.find? path = none ↔ ∀ d ∈ t.routes, ¬ d.template.Matches path := by
  have hne : ∀ p ∈ router.paths, .literal "" ∉ p.template.segments := by
    intro p hp
    exact hw.literal_empty_notMem (hr ▸ hp)
  rw [find?_eq_none_iff hne, hr]
  constructor
  · intro h d hd
    obtain ⟨p, hp, htemplate⟩ := hw.exists_path hd
    exact htemplate ▸ h p hp
  · intro h p hp
    obtain ⟨d, hd, htemplate⟩ := hw.exists_route hp
    exact htemplate ▸ h d hd

variable {limits : Limits} {target : Target} {r : Request} {cancel : Option Duration}

/-- Where the router finds nothing, no template is preferred and nothing is found. -/
theorem governs_of_find?_none (hw : t.Holds es) (hr : router.paths = t.paths)
    (hfind : router.find? r.uri.path = none) :
    t.Governs r (router.serve limits target r cancel) := by
  have hnone := (find?_eq_none_iff_of_holds hw hr).mp hfind
  have hserve : router.serve limits target r cancel = { outcome := .response ⟨404, [], []⟩ } := by
    simp only [serve, hfind]
  rw [hserve]
  constructor
  · intro call hcall
    cases hcall
  · intro T hT
    obtain ⟨d, hd, rfl⟩ := hT.registered
    exact absurd hT.matched (hnone d hd)
  · intro _
    exact ⟨rfl, _, rfl, rfl⟩
  · rintro ⟨d, hd, hmatch⟩
    exact absurd hmatch (hnone d hd)

/-- The path that the router finds has the template that is preferred, and an endpoint that takes
the request has a method that is checked once more. -/
theorem governs_of_find?_some (hw : t.Holds es) (hr : router.paths = t.paths) {p : Path}
    {values : Captures} (hfind : router.find? r.uri.path = some (p, values)) :
    t.Governs r (router.serve limits target r cancel) := by
  obtain ⟨hp, hprefers, _⟩ := prefers_of_find? hw hr hfind
  simp only [serve, hfind]
  constructor
  · intro call hcall
    split at hcall
    · cases hcall
    · rename_i endpoint hendpoint
      rw [Exchange.withLength_calls] at hcall
      obtain ⟨hm, hrpc, _⟩ := CompiledRoute.of_mem_calls hcall
      obtain ⟨_, hd, htemplate⟩ := hw.of_endpoint? hp hendpoint
      rw [← htemplate] at hprefers
      exact ⟨_, hd, hprefers, hm.symm, hrpc.symm⟩
  · intro T hT hmethods
    obtain rfl := hT.unique hprefers
    split
    · exact Exchange.Refuses.withLength ⟨rfl, _, rfl, rfl⟩
    · rename_i endpoint hendpoint
      obtain ⟨_, hd, htemplate⟩ := hw.of_endpoint? hp hendpoint
      have hne : r.method ≠ endpoint.route.method := (hmethods _ hd htemplate).symm
      rw [CompiledRoute.serve_of_method_ne hne]
      exact Exchange.Refuses.withLength ⟨rfl, _, rfl, rfl⟩
  · intro hnone
    obtain ⟨d, hd, htemplate⟩ := hprefers.registered
    exact absurd (htemplate ▸ hprefers.matched) (hnone d hd)
  · intro _
    exact ⟨p.template, hprefers, fun T hT => hT.unique hprefers⟩

/-- The route with the preferred template and the method of a request takes the request. -/
theorem serve_eq_of_prefers (hw : t.Holds es) (hr : router.paths = t.paths) {d : Descriptor}
    (hd : d ∈ t.routes) (hT : t.Prefers r.uri.path d.template) (hm : d.method = r.method) :
    ∃ (route : CompiledRoute d.rpc) (ps : List Bytes),
      route.descriptor = d ∧ d.template.Cuts r.uri.path ps ∧
      router.serve limits target r cancel =
        (route.serve limits target (some (captures d.template.segments ps)) r
          cancel).withLength := by
  cases hfind : router.find? r.uri.path with
  | none => exact absurd hT.matched ((find?_eq_none_iff_of_holds hw hr).mp hfind d hd)
  | some found =>
      obtain ⟨p, values⟩ := found
      obtain ⟨hp, hprefers, ps, hcuts, rfl⟩ := prefers_of_find? hw hr hfind
      have htemplate := hT.unique hprefers
      obtain ⟨endpoint, hendpoint, rfl⟩ := hw.endpoint?_eq_some hp hd htemplate
      refine ⟨endpoint.route, ps, rfl, htemplate ▸ hcuts, ?_⟩
      rw [hm] at hendpoint
      simp only [serve, hfind, hendpoint, htemplate]
      rfl

end

/-- Whatever was added to a table, its router serves every request as the table says: the route with
the preferred template and the method of the request takes it, with the pieces of the path that the
variables match. -/
theorem serve_governs (rs : List ((rpc : Rpc) × Route rpc)) {router : Router}
    (h : ofTable? (Table.addEach {} [] rs).2 = some router) (limits : Limits) (target : Target)
    (r : Request) (cancel : Option Duration) :
    let t := (Table.addEach {} [] rs).2
    let e := router.serve limits target r cancel
    t.Governs r e ∧
    ∀ d ∈ t.routes, t.Prefers r.uri.path d.template → d.method = r.method →
      ∃ (route : CompiledRoute d.rpc) (ps : List Bytes),
        route.descriptor = d ∧ d.template.Cuts r.uri.path ps ∧
        e = (route.serve limits target (some (captures d.template.segments ps)) r
          cancel).withLength := by
  intro t e
  obtain ⟨es, hw, _⟩ := Table.holds_empty.addEach List.Forall₂.nil rs
  have hr := paths_of_ofTable? h
  constructor
  · cases hfind : router.find? r.uri.path with
    | none => exact governs_of_find?_none hw hr hfind
    | some found => exact governs_of_find?_some hw hr hfind
  · intro d hd hT hm
    exact serve_eq_of_prefers hw hr hd hT hm

/-- Two templates that match the same path, each with a method of its own. -/
def overlapping : List ((rpc : Rpc) × Route rpc) :=
  [⟨.auditRead, { method := .get, template := "/v1/\x7bid\x7d"
                  pathFields := [.named .auditRead "id"] }⟩,
   ⟨.auditUpdate, { method := .patch, template := "/v1/latest", source := .body }⟩]

/-- A request with the method of the variable and the path of the literal. -/
def latest : Request where
  uri := ⟨none, Utf8.encode "/v1/latest", none⟩

/-- The literal takes the path, and the method of the variable is not allowed. -/
theorem serve_overlapping :
    ∃ router, ofTable? (Table.addEach {} [] overlapping).2 = some router ∧
      (Table.addEach {} [] overlapping).2.Governs latest
        (router.serve {} (.inProcess .empty) latest none) ∧
      (router.serve {} (.inProcess .empty) latest none).Refuses 405 :=
  ⟨_, rfl, (serve_governs overlapping rfl {} (.inProcess .empty) latest none).1, rfl, _, rfl, rfl⟩

end Router

end RestGateway
