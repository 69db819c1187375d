import RestGateway.Bindings
import RestGateway.Proofs.Dispatch.Answers
import RestGateway.Proofs.Gateway.Routing

/-!
# Which methods a refusal lists

A path that does not serve the method of a request lists the methods that it serves, and `HEAD` with
`GET`. A route that is handed `HEAD` refuses it and lists its own method only. So a refusal lists
what the path serves exactly if the path does not serve `GET`, or serves nothing else and was asked
for `HEAD`.
-/

namespace RestGateway

/-- A list of texts with commas has the bytes of the texts with commas. -/
theorem Utf8.encode_intercalate (texts : List String) :
    encode (",".intercalate texts) = joined 0x2C (texts.map encode) := by
  induction texts with
  | nil => rfl
  | cons s rest ih =>
      cases rest with
      | nil => simp [joined]
      | cons next rest =>
          have hrest : joined 0x2C ((next :: rest).map encode) =
              encode next ++ (rest.map encode).flatMap (0x2C :: ·) := joined_cons _ _ _
          rw [String.intercalate_cons_cons, encode_append, encode_append, ih, hrest, List.map_cons,
            List.map_cons, joined_cons, List.flatMap_cons, List.append_assoc]
          rfl

namespace Method

theorem name_ofName (s : String) : (ofName s).name = s := by
  unfold ofName
  split <;> rfl

/-- The methods of a path are told apart by their names, which have no commas. -/
theorem of_mem_allowed {served m : Method} (hs : served.isSupported = true)
    (hm : m ∈ served.allowed) : ofName m.name = m ∧ 0x2C ∉ Utf8.encode m.name := by
  have hnamed : ∀ m ∈ [get, head, post, put, patch, delete],
      ofName m.name = m ∧ 0x2C ∉ Utf8.encode m.name := by decide
  apply hnamed
  cases served with
  | get => exact List.mem_of_mem_take (i := 2) hm
  | post | put | patch | delete => cases List.mem_singleton.mp hm; decide
  | head | other _ => cases hs

end Method

/-- The names of methods that a response lists. -/
def Response.allowed (p : Response) : List Bytes :=
  (p.headers.values "allow").flatMap (pieces 0x2C)

/-- A refusal lists the methods that it was given. -/
theorem allowed_methodNotAllowed {methods : List Method} (hne : methods ≠ [])
    (hnames : ∀ m ∈ methods, 0x2C ∉ Utf8.encode m.name) :
    (methodNotAllowed methods).withLength.allowed =
      methods.map fun m => Utf8.encode m.name := by
  have hvalues : (methodNotAllowed methods).withLength.headers.values "allow" =
      [joined 0x2C ((methods.map Method.name).map Utf8.encode)] := by
    rw [methodNotAllowed_withLength, ← Utf8.encode_intercalate]
    rfl
  rw [Response.allowed, hvalues, List.flatMap_singleton, List.map_map]
  apply pieces_joined
  · simpa using hne
  · intro piece hp
    obtain ⟨m, hm, rfl⟩ := List.mem_map.mp hp
    exact hnames m hm

/-- A request is told that its method is not allowed. -/
def Exchange.IsNotAllowed (e : Exchange) : Prop :=
  ∃ p, e.outcome = .response p ∧ p.status = 405

theorem Exchange.isNotAllowed_withLength_iff {e : Exchange} :
    e.withLength.IsNotAllowed ↔ e.IsNotAllowed := by
  unfold withLength IsNotAllowed
  cases h : e.outcome with
  | response p => simp [Response.withLength]
  | pending | abandoned => simp [h]

theorem Failure.response_status_ne (f : Failure) : f.response.status ≠ 405 := by
  change f.code.httpStatus ≠ 405
  cases f.code <;> decide

namespace CompiledRoute

theorem respondTo_status_ne {rpc : Rpc} (route : CompiledRoute rpc)
    (result : Except Status (Reply rpc)) : (route.respondTo result).status ≠ 405 := by
  cases result with
  | error status => exact (Failure.ofStatus status).response_status_ne
  | ok reply =>
      cases hw : route.answer.write reply.message with
      | error fault =>
          simp only [respondTo, respond, hw]
          exact Failure.response_status_ne _
      | ok body =>
          simp only [respondTo, respond, hw]
          decide

theorem not_isNotAllowed_perform {rpc : Rpc} {route : CompiledRoute rpc} {target : Target}
    {r : Request} {o : Order rpc} {cancel : Option Duration} :
    ¬ (route.perform target r o cancel).IsNotAllowed := by
  rintro ⟨p, hp, hstatus⟩
  cases hm : metadata? r o.deadline with
  | none =>
      rw [perform, hm] at hp
      cases hp
  | some metadata =>
      rw [(perform_of_metadata? hm).1] at hp
      split at hp
      · cases hp
      · generalize Race.ending _ = ending at hp
        cases ending with
        | answered =>
            cases hp
            exact route.respondTo_status_ne _ hstatus
        | expired =>
            cases hp
            exact Failure.deadlineExceeded.response_status_ne hstatus
        | canceled =>
            cases hp
            exact Failure.canceled.response_status_ne hstatus
        | pending => cases hp

/-- A route tells this to the requests with another method, and to no others. -/
theorem serve_isNotAllowed_iff {rpc : Rpc} {route : CompiledRoute rpc} {limits : Limits}
    {target : Target} {captures : Option Captures} {r : Request} {cancel : Option Duration} :
    (route.serve limits target captures r cancel).IsNotAllowed ↔ r.method ≠ route.method := by
  obtain ⟨hm, he⟩ | ⟨hm, ⟨f, _, he⟩ | ⟨o, _, he⟩⟩ :=
    serve_cases route limits target captures r cancel
  · rw [he]
    exact iff_of_true ⟨_, rfl, rfl⟩ hm
  · rw [he]
    refine iff_of_false ?_ (not_not_intro hm)
    rintro ⟨p, hp, hstatus⟩
    cases hp
    exact f.response_status_ne hstatus
  · rw [he]
    refine iff_of_false ?_ (not_not_intro hm)
    exact not_isNotAllowed_perform

end CompiledRoute

namespace Table

/-- A template serves a method: it has a route with this method. -/
def Serves (t : Table) (T : Template) (m : Method) : Prop :=
  ∃ d ∈ t.routes, d.template = T ∧ d.method = m

instance (t : Table) (T : Template) (m : Method) : Decidable (t.Serves T m) :=
  inferInstanceAs (Decidable (∃ d ∈ t.routes, d.template = T ∧ d.method = m))

/-- The methods of the routes with a template, in their order, with `HEAD` behind `GET`. -/
def methodsOf (t : Table) (T : Template) : List Method :=
  (t.routes.filter fun d => d.template = T).flatMap fun d => d.method.allowed

/-- The methods that a refusal of a method lists. `HEAD` is refused by the route of `GET`, which
knows no other method of its template. -/
def listed (t : Table) (T : Template) (m : Method) : List Method :=
  if m = .head ∧ t.Serves T .get then [.get] else t.methodsOf T

section

variable {t : Table} {es : List Endpoint} {T : Template} {m : Method}

theorem mem_methodsOf_iff :
    m ∈ t.methodsOf T ↔ ∃ served, t.Serves T served ∧ m ∈ served.allowed := by
  simp [methodsOf, Serves, and_assoc]

/-- What a template serves is among its methods, and so is `HEAD` if it serves `GET`. -/
theorem mem_methodsOf_iff_serves :
    m ∈ t.methodsOf T ↔ t.Serves T m ∨ t.Serves T .get ∧ m = .head := by
  rw [mem_methodsOf_iff]
  constructor
  · rintro ⟨served, h, hm⟩
    rcases Method.mem_allowed_iff.mp hm with rfl | ⟨rfl, hhead⟩
    · exact Or.inl h
    · exact Or.inr ⟨h, hhead⟩
  · rintro (h | ⟨h, rfl⟩)
    · exact ⟨m, h, Method.mem_allowed_iff.mpr (Or.inl rfl)⟩
    · exact ⟨.get, h, Method.mem_allowed_iff.mpr (Or.inr ⟨rfl, rfl⟩)⟩

/-- Only methods that routes may have are served. -/
theorem Holds.isSupported_of_serves (hw : t.Holds es) (h : t.Serves T m) :
    m.isSupported = true := by
  obtain ⟨d, hd, _, rfl⟩ := h
  rw [hw.routes] at hd
  obtain ⟨e, he, rfl⟩ := List.mem_map.mp hd
  exact hw.isSupported he

theorem Holds.not_serves_head (hw : t.Holds es) : ¬ t.Serves T .head := by
  intro h
  cases hw.isSupported_of_serves h

/-- The methods that are listed are told apart by their names, which have no commas. -/
theorem Holds.names_of_mem_listed (hw : t.Holds es) {m' : Method} (h : m' ∈ t.listed T m) :
    Method.ofName m'.name = m' ∧ 0x2C ∉ Utf8.encode m'.name := by
  rw [listed] at h
  split at h
  · have hget : m' ∈ Method.get.allowed := List.mem_of_mem_take (i := 1) h
    exact Method.of_mem_allowed rfl hget
  · obtain ⟨served, hserves, hm⟩ := mem_methodsOf_iff.mp h
    exact Method.of_mem_allowed (hw.isSupported_of_serves hserves) hm

/-- The names that are listed are those of the methods that are listed. -/
theorem Holds.encode_mem_names_iff (hw : t.Holds es) {name : String} :
    Utf8.encode name ∈ (t.listed T m).map (fun m => Utf8.encode m.name) ↔
      Method.ofName name ∈ t.listed T m := by
  rw [List.mem_map]
  constructor
  · rintro ⟨m', hm', hname⟩
    rw [← Utf8.encode_injective hname, (hw.names_of_mem_listed hm').1]
    exact hm'
  · intro hm'
    exact ⟨_, hm', congrArg Utf8.encode (Method.name_ofName name)⟩

theorem listed_ne_nil (h : ∃ d ∈ t.routes, d.template = T) : t.listed T m ≠ [] := by
  obtain ⟨d, hd, htemplate⟩ := h
  have hmem : d.method ∈ t.methodsOf T :=
    mem_methodsOf_iff_serves.mpr (Or.inl ⟨d, hd, htemplate, rfl⟩)
  rw [listed]
  split
  · exact List.cons_ne_nil _ _
  · exact List.ne_nil_of_mem hmem

/-- What is listed is what is served if the template does not serve `GET`, or if it serves nothing
else and `HEAD` is refused. -/
theorem Holds.listed_eq_served_iff (hw : t.Holds es) :
    (∀ name, Method.ofName name ∈ t.listed T m ↔ t.Serves T (.ofName name)) ↔
      (t.Serves T .get → m = .head ∧ ∀ m', t.Serves T m' → m' = .get) := by
  constructor
  · intro h hget
    by_cases hm : m = .head
    · refine ⟨hm, fun m' hm' => ?_⟩
      have hname : Method.ofName m'.name = m' :=
        (Method.of_mem_allowed (hw.isSupported_of_serves hm')
          (Method.mem_allowed_iff.mpr (Or.inl rfl))).1
      have hlisted := h m'.name
      rw [listed, if_pos ⟨hm, hget⟩, hname] at hlisted
      exact List.mem_singleton.mp (hlisted.mpr hm')
    · have hlisted := h "HEAD"
      rw [listed, if_neg (fun hboth => hm hboth.1)] at hlisted
      have hhead : Method.head ∈ t.methodsOf T :=
        mem_methodsOf_iff_serves.mpr (Or.inr ⟨hget, rfl⟩)
      exact absurd (hlisted.mp hhead) hw.not_serves_head
  · intro h name
    by_cases hget : t.Serves T .get
    · obtain ⟨hm, honly⟩ := h hget
      rw [listed, if_pos ⟨hm, hget⟩, List.mem_singleton]
      constructor
      · intro heq
        rw [heq]
        exact hget
      · exact honly _
    · rw [listed, if_neg (fun hboth => hget hboth.2), mem_methodsOf_iff_serves]
      exact or_iff_left fun hboth => hget hboth.1

/-- A path lists the methods of its template. -/
theorem Holds.methods_eq (hw : t.Holds es) {p : Path} (hp : p ∈ t.paths) :
    p.methods = t.methodsOf p.template := by
  rw [Path.methods, methodsOf, hw.endpoints p hp, hw.routes, List.filter_map, List.flatMap_map]
  rfl

/-- A path has an endpoint for `HEAD` if it serves `GET`. -/
theorem Holds.endpoint?_head_ne_none (hw : t.Holds es) {p : Path} (hp : p ∈ t.paths)
    (h : t.Serves p.template .get) : p.endpoint? .head ≠ none := by
  obtain ⟨d, hd, htemplate, hget⟩ := h
  obtain ⟨e, he, rfl⟩ := hw.endpoint?_eq_some hp hd htemplate
  intro hnone
  apply List.find?_eq_none.mp hnone e (Path.mem_endpoints_of_endpoint? he).1
  have hallowed : Method.head ∈ e.method.allowed := Method.mem_allowed_iff.mpr (Or.inr ⟨hget, rfl⟩)
  simpa using hallowed

end

end Table

namespace Router

section

variable {t : Table} {es : List Endpoint} {router : Router} {limits : Limits} {target : Target}
  {r : Request} {cancel : Option Duration} {T : Template}

/-- A request with a method that its template does not serve. -/
theorem serve_of_not_serves (hw : t.Holds es) (hr : router.paths = t.paths)
    (hT : t.Prefers r.uri.path T) (hm : ¬ t.Serves T r.method) :
    (router.serve limits target r cancel).outcome =
      .response (methodNotAllowed (t.listed T r.method)).withLength := by
  cases hfind : router.find? r.uri.path with
  | none =>
      obtain ⟨d, hd, rfl⟩ := hT.registered
      exact absurd hT.matched ((find?_eq_none_iff_of_holds hw hr).mp hfind d hd)
  | some found =>
      obtain ⟨p, values⟩ := found
      obtain ⟨hp, hprefers, _⟩ := prefers_of_find? hw hr hfind
      obtain rfl := hT.unique hprefers
      simp only [serve, hfind, Table.listed]
      cases hendpoint : p.endpoint? r.method with
      | none =>
          rw [if_neg, ← hw.methods_eq hp]
          · rfl
          · rintro ⟨hhead, hget⟩
            rw [hhead] at hendpoint
            exact hw.endpoint?_head_ne_none hp hget hendpoint
      | some e =>
          obtain ⟨_, hd, htemplate⟩ := hw.of_endpoint? hp hendpoint
          have hne : r.method ≠ e.method := fun heq => hm ⟨_, hd, htemplate, heq.symm⟩
          obtain ⟨hget, hhead⟩ := (Method.mem_allowed_iff.mp
            (Path.mem_endpoints_of_endpoint? hendpoint).2).resolve_left hne
          have hlist : [e.route.method] = [Method.get] := congrArg (fun m => [m]) hget
          rw [if_pos ⟨hhead, _, hd, htemplate, hget⟩, ← hlist]
          simp only [CompiledRoute.serve_of_method_ne hne, Exchange.withLength]

/-- A request is refused for its method exactly if the template of its path does not serve it. -/
theorem isNotAllowed_iff (hw : t.Holds es) (hr : router.paths = t.paths)
    (hT : t.Prefers r.uri.path T) :
    (router.serve limits target r cancel).IsNotAllowed ↔ ¬ t.Serves T r.method := by
  constructor
  · rintro h ⟨d, hd, rfl, hm⟩
    obtain ⟨route, _, hroute, _, hserve⟩ :=
      @serve_eq_of_prefers t es router limits target r cancel hw hr d hd hT hm
    rw [hserve, Exchange.isNotAllowed_withLength_iff, CompiledRoute.serve_isNotAllowed_iff] at h
    exact h (hm.symm.trans (congrArg Descriptor.method hroute.symm))
  · intro hm
    exact ⟨_, serve_of_not_serves hw hr hT hm, rfl⟩

end

/-- Whatever was added to a table, a request is refused for its method where the template of its
path does not serve this method. The refusal lists the methods of the template, with `HEAD` behind
`GET`; if the method is `HEAD` and the template serves `GET`, it lists `GET` only. So it lists
exactly what is not refused at the same path if the template does not serve `GET`, or if it serves
nothing else and the method is `HEAD`, and in no other case. -/
theorem serve_refusal_lists (rs : List ((rpc : Rpc) × Route rpc)) {router : Router}
    (h : ofTable? (Table.addEach {} [] rs).2 = some router) (limits : Limits) (target : Target)
    (r : Request) (cancel : Option Duration) {p : Response}
    (hp : (router.serve limits target r cancel).outcome = .response p) (hs : p.status = 405) :
    let t := (Table.addEach {} [] rs).2
    ∃ T, t.Prefers r.uri.path T ∧ ¬ t.Serves T r.method ∧
      p.allowed = (t.listed T r.method).map (fun m => Utf8.encode m.name) ∧
      (∀ limits' target' (r' : Request) cancel', r'.uri.path = r.uri.path →
        ((router.serve limits' target' r' cancel').IsNotAllowed ↔ ¬ t.Serves T r'.method)) ∧
      ((∀ name, Utf8.encode name ∈ p.allowed ↔
          ¬ (router.serve limits target { r with method := .ofName name } cancel).IsNotAllowed) ↔
        (t.Serves T .get → r.method = .head ∧ ∀ m, t.Serves T m → m = .get)) := by
  intro t
  obtain ⟨es, hw, _⟩ := Table.holds_empty.addEach List.Forall₂.nil rs
  have hr := paths_of_ofTable? h
  obtain ⟨T, hT⟩ : ∃ T, t.Prefers r.uri.path T := by
    cases hfind : router.find? r.uri.path with
    | none =>
        simp only [serve, hfind] at hp
        cases hp
        cases hs
    | some found => exact ⟨_, (prefers_of_find? hw hr hfind).2.1⟩
  have hrefused (limits' : Limits) (target' : Target) (r' : Request) (cancel' : Option Duration)
      (hpath : r'.uri.path = r.uri.path) :
      (router.serve limits' target' r' cancel').IsNotAllowed ↔ ¬ t.Serves T r'.method :=
    isNotAllowed_iff hw hr (hpath ▸ hT)
  have hm : ¬ t.Serves T r.method := (hrefused limits target r cancel rfl).mp ⟨p, hp, hs⟩
  obtain rfl : p = (methodNotAllowed (t.listed T r.method)).withLength :=
    Outcome.response.inj (hp.symm.trans (serve_of_not_serves hw hr hT hm))
  have hallowed := allowed_methodNotAllowed (Table.listed_ne_nil hT.registered)
    fun m (hm : m ∈ t.listed T r.method) => (hw.names_of_mem_listed hm).2
  refine ⟨T, hT, hm, hallowed, hrefused, ?_⟩
  rw [← hw.listed_eq_served_iff]
  refine forall_congr' fun name => ?_
  have hnamed := hrefused limits target { r with method := .ofName name } cancel rfl
  rw [hallowed, hw.encode_mem_names_iff, hnamed, not_not]

/-- A request for the head of the list of audits, whose path also serves `POST`. -/
def headed : Request where
  method := .head
  uri := ⟨none, Utf8.encode "/v1/audit", none⟩

/-- The route of `GET` lists its own method only. -/
theorem serve_headed :
    ∃ router p, ofTable? (Table.addEach {} [] Bindings.all).2 = some router ∧
      (router.serve {} (.inProcess .empty) headed none).outcome = .response p ∧ p.status = 405 ∧
      p.allowed = [Utf8.encode "GET"] ∧
      ∃ T, (Table.addEach {} [] Bindings.all).2.Prefers headed.uri.path T ∧
        ¬ (Table.addEach {} [] Bindings.all).2.Serves T .head := by
  obtain ⟨T, hT, hm, _⟩ :=
    serve_refusal_lists Bindings.all rfl {} (.inProcess .empty) headed none rfl rfl
  exact ⟨_, _, rfl, rfl, rfl, rfl, T, hT, hm⟩

/-- Not everything that a path serves is listed. -/
theorem not_listed_of_headed :
    ¬ ∀ (rs : List ((rpc : Rpc) × Route rpc)) (router : Router),
      ofTable? (Table.addEach {} [] rs).2 = some router →
      ∀ limits target r cancel p, (router.serve limits target r cancel).outcome = .response p →
        p.status = 405 → ∀ name, Utf8.encode name ∈ p.allowed ↔
          ¬ (router.serve limits target { r with method := .ofName name }
            cancel).IsNotAllowed := by
  intro h
  have hpost := h Bindings.all _ rfl {} (.inProcess .empty) headed none _ rfl rfl "POST"
  refine absurd (hpost.mpr ?_) (by decide)
  -- a post without a content type is refused for its body
  rintro ⟨p, hp, hs⟩
  cases hp
  cases hs

end Router

end RestGateway
