import RestGateway.Proofs.Route.Registration
import RestGateway.Proofs.Template.Text
import RestGateway.Route.Addition

/-!
# What a table holds after additions

Additions in place keep the lists of a table in step, whatever becomes of each of them. The routes
that were added are described in order, their pairs of a method and a template are taken, and every
path serves the methods that were added for its template. No addition breaks off: a path that serves
the method of a route has it among the pairs that are taken, and such a route is refused before its
path is touched.
-/

namespace RestGateway

namespace Method

theorem mem_allowed_iff {m served : Method} :
    m ∈ served.allowed ↔ m = served ∨ served = .get ∧ m = .head := by
  cases served <;> simp [allowed]

theorem isServable_of_isSupported {m : Method} (h : m.isSupported = true) :
    m.isServable = true := by
  cases m <;> first | rfl | cases h

theorem ne_head_of_isSupported {m : Method} (h : m.isSupported = true) : m ≠ .head := by
  rintro rfl
  cases h

end Method

namespace Route

variable {rpc : Rpc}

/-- A descriptor tells what a route says, with its template read. -/
structure DescribedBy (r : Route rpc) (d : Descriptor) : Prop where
  method : d.method = r.method
  template : Template.parse r.template = .ok d.template
  rpc : d.rpc = rpc
  source : d.source = r.source
  field : d.field = r.answer.field?

/-- A checked route is described as the route that was checked. -/
theorem describedBy_of_compile {r : Route rpc} {route : CompiledRoute rpc}
    (h : r.compile = .ok route) : r.DescribedBy route.descriptor := by
  obtain ⟨_, template, hp, rfl⟩ := exists_template_of_compile h
  exact ⟨rfl, hp, rfl, rfl, rfl⟩

end Route

namespace Endpoint

/-- The pair that an endpoint is registered under. -/
def pair (e : Endpoint) : Method × Template := (e.method, e.route.template)

/-- The pair as it is written. -/
def written (e : Endpoint) : Method × String := (e.method, e.route.template.text)

end Endpoint

/-- A route passes its checks and becomes an endpoint. -/
def Compiles (r : (rpc : Rpc) × Route rpc) (e : Endpoint) : Prop :=
  ∃ route, r.2.compile = .ok route ∧ e = ⟨r.1, route⟩

namespace Compiles

variable {r : (rpc : Rpc) × Route rpc} {e : Endpoint}

theorem isSupported (h : Compiles r e) : e.method.isSupported = true := by
  obtain ⟨route, hc, rfl⟩ := h
  obtain ⟨hs, hm, _⟩ := Route.compile_eq_ok hc
  rwa [Endpoint.method, hm]

theorem written_eq (h : Compiles r e) : e.written = (r.2.method, r.2.template) := by
  obtain ⟨route, hc, rfl⟩ := h
  obtain ⟨_, hm, ht⟩ := Route.compile_eq_ok hc
  exact Prod.ext hm (Template.parse_eq_ok ht).1

/-- The template of an endpoint is read from its text. -/
theorem parse_text (h : Compiles r e) :
    Template.parse e.route.template.text = .ok e.route.template := by
  have htext : e.route.template.text = r.2.template := congrArg Prod.snd h.written_eq
  obtain ⟨route, hc, rfl⟩ := h
  rw [htext]
  exact (Route.compile_eq_ok hc).2.2

/-- Endpoints that are written alike are registered under the same pair. -/
theorem pair_eq (h : Compiles r e) {r' : (rpc : Rpc) × Route rpc} {e' : Endpoint}
    (h' : Compiles r' e') (heq : e.written = e'.written) : e.pair = e'.pair := by
  obtain ⟨hm, ht⟩ := Prod.ext_iff.mp heq
  have hparse := h.parse_text.symm.trans ((congrArg Template.parse ht).trans h'.parse_text)
  exact Prod.ext hm (Except.ok.inj hparse)

end Compiles

namespace Path

variable {p : Path} {e : Endpoint} {m : Method}

theorem mem_endpoints_of_endpoint? (h : p.endpoint? m = some e) :
    e ∈ p.endpoints ∧ m ∈ e.method.allowed :=
  ⟨List.mem_of_find?_eq_some h, by simpa using List.find?_some h⟩

/-- Where no endpoint serves `HEAD`, a path hands the methods of its endpoints, and no other, to an
endpoint of the method. -/
theorem exists_endpoint?_iff (hp : ∀ e ∈ p.endpoints, e.method ≠ .head) :
    (∃ e, p.endpoint? m = some e ∧ e.method = m) ↔ ∃ e ∈ p.endpoints, e.method = m := by
  constructor
  · rintro ⟨e, he, hm⟩
    exact ⟨e, (mem_endpoints_of_endpoint? he).1, hm⟩
  · rintro ⟨e, he, rfl⟩
    have hsome : (p.endpoint? e.method).isSome = true := by
      refine List.find?_isSome.mpr ⟨e, he, ?_⟩
      simp [Method.mem_allowed_iff]
    obtain ⟨found, hfound⟩ := Option.isSome_iff_exists.mp hsome
    refine ⟨found, hfound, ?_⟩
    rcases Method.mem_allowed_iff.mp (mem_endpoints_of_endpoint? hfound).2 with heq | ⟨_, hhead⟩
    · exact heq.symm
    · exact absurd hhead (hp e he)

end Path

namespace Table

/-- A table has exactly these endpoints, added in this order. -/
structure Holds (t : Table) (es : List Endpoint) : Prop where
  compiled : ∀ e ∈ es, ∃ r, Compiles r e
  routes : t.routes = es.map fun e => e.route.descriptor
  seen (pair : Method × Template) : pair ∈ t.seen ↔ pair ∈ es.map Endpoint.pair
  once : (es.map Endpoint.pair).Nodup
  paths : t.PathsOfRoutes
  endpoints : ∀ p ∈ t.paths, p.endpoints = es.filter fun e => e.route.template = p.template

theorem Holds.isSupported {t : Table} {es : List Endpoint} (hw : t.Holds es) {e : Endpoint}
    (he : e ∈ es) : e.method.isSupported = true := by
  obtain ⟨r, hc⟩ := hw.compiled e he
  exact hc.isSupported

theorem holds_empty : Holds {} [] where
  compiled _ h := absurd h List.not_mem_nil
  routes := rfl
  seen _ := Iff.rfl
  once := List.nodup_nil
  paths := pathsOfRoutes_empty
  endpoints _ h := absurd h List.not_mem_nil

/-- Placing an endpoint leaves the other paths as they are, and puts it behind the endpoints of its
own path. -/
theorem mem_place {e : Endpoint} {ps : List Path} (hn : (ps.map Path.template).Nodup) {p : Path}
    (h : p ∈ place e ps) :
    p ∈ ps ∧ p.template ≠ e.route.template ∨
      p.template = e.route.template ∧
        ((∃ q ∈ ps, q.template = p.template ∧ p.endpoints = q.endpoints ++ [e]) ∨
          p.template ∉ ps.map Path.template ∧ p.endpoints = [e]) := by
  induction ps with
  | nil =>
      cases List.mem_singleton.mp h
      exact Or.inr ⟨rfl, Or.inr ⟨List.not_mem_nil, rfl⟩⟩
  | cons q rest ih =>
      obtain ⟨hq, hrest⟩ := List.nodup_cons.mp hn
      by_cases heq : q.template = e.route.template
      · rw [place, if_pos heq] at h
        rcases List.mem_cons.mp h with rfl | h
        · exact Or.inr ⟨heq, Or.inl ⟨q, List.mem_cons_self, rfl, rfl⟩⟩
        · refine Or.inl ⟨List.mem_cons_of_mem _ h, fun hp => hq ?_⟩
          rw [heq, ← hp]
          exact List.mem_map_of_mem h
      · rw [place, if_neg heq] at h
        rcases List.mem_cons.mp h with rfl | h
        · exact Or.inl ⟨List.mem_cons_self, heq⟩
        · rcases ih hrest h with ⟨hp, hne⟩ | ⟨hp, hold | ⟨hnew, he⟩⟩
          · exact Or.inl ⟨List.mem_cons_of_mem _ hp, hne⟩
          · obtain ⟨q', hq', hends⟩ := hold
            exact Or.inr ⟨hp, Or.inl ⟨q', List.mem_cons_of_mem _ hq', hends⟩⟩
          · refine Or.inr ⟨hp, Or.inr ⟨?_, he⟩⟩
            rw [List.map_cons, List.mem_cons, not_or]
            exact ⟨fun h => heq (h.symm.trans hp), hnew⟩

/-- An addition puts the endpoint of its route behind the others. -/
theorem Holds.add {rpc : Rpc} {t t' : Table} {es : List Endpoint} {r : Route rpc}
    (hw : t.Holds es) (h : t.add r = .ok t') :
    ∃ e, Compiles ⟨rpc, r⟩ e ∧ t'.Holds (es ++ [e]) := by
  have hpaths := hw.paths.add h
  obtain ⟨route, hc, hnew, rfl⟩ := add_eq_ok h
  have hcompiles : Compiles ⟨rpc, r⟩ ⟨rpc, route⟩ := ⟨route, hc, rfl⟩
  refine ⟨⟨rpc, route⟩, hcompiles, ?_⟩
  constructor
  · intro e he
    rcases List.mem_append.mp he with he | he
    · exact hw.compiled e he
    · cases List.mem_singleton.mp he
      exact ⟨_, hcompiles⟩
  · rw [hw.routes, List.map_append]
    rfl
  · intro pair
    rw [List.mem_cons, hw.seen, List.map_append, List.mem_append, or_comm]
    exact or_congr Iff.rfl List.mem_singleton.symm
  · rw [List.map_append, List.map_singleton, ← List.concat_eq_append]
    exact hw.once.concat fun hmem => hnew ((hw.seen _).mpr hmem)
  · exact hpaths
  · intro p hp
    rw [List.filter_append]
    rcases mem_place hw.paths.nodup hp with ⟨hp, hne⟩ | ⟨heq, ⟨q, hq, hqp, hends⟩ | ⟨hfresh, hends⟩⟩
    · have hnone : List.filter (fun e : Endpoint => e.route.template = p.template)
          [⟨rpc, route⟩] = [] := by
        simpa using fun h => hne h.symm
      rw [hnone, List.append_nil, hw.endpoints p hp]
    · rw [hends, hw.endpoints q hq, hqp]
      simp [heq]
    · have hnone : es.filter (fun e => e.route.template = p.template) = [] := by
        refine List.filter_eq_nil_iff.mpr fun e he heq => hfresh ?_
        rw [hw.paths.mem_iff, hw.routes, List.map_map]
        exact List.mem_map.mpr ⟨e, he, of_decide_eq_true heq⟩
      rw [hnone, hends]
      simp [heq]

/-- The path of an endpoint among others, or a new one. -/
def pathOf (e : Endpoint) (ps : List Path) : Path :=
  ps[ps.findIdx fun p => p.template = e.route.template]?.getD ⟨e.route.template, []⟩

/-- Placing an endpoint is taking its path out, and putting it back with the endpoint. -/
theorem insertIdx_eraseIdx_eq_place (e : Endpoint) (ps : List Path) :
    let position := ps.findIdx fun p => p.template = e.route.template
    (ps.eraseIdx position).insertIdx position
      ⟨(pathOf e ps).template, (pathOf e ps).endpoints ++ [e]⟩ = place e ps := by
  induction ps with
  | nil => rfl
  | cons p rest ih =>
      by_cases hp : p.template = e.route.template
      · simp [pathOf, place, List.findIdx_cons, hp]
      · simpa [pathOf, place, List.findIdx_cons, hp] using ih

/-- The path of an endpoint is among the paths, unless it is new and serves nothing. -/
theorem pathOf_eq (e : Endpoint) (ps : List Path) :
    pathOf e ps ∈ ps ∧ (pathOf e ps).template = e.route.template ∨
      pathOf e ps = ⟨e.route.template, []⟩ := by
  unfold pathOf
  cases hp : ps[ps.findIdx fun p => p.template = e.route.template]? with
  | none => exact Or.inr rfl
  | some p =>
      obtain ⟨hlt, rfl⟩ := List.getElem?_eq_some_iff.mp hp
      have hfound := List.findIdx_getElem (w := hlt)
      exact Or.inl ⟨List.getElem_mem hlt, by simpa using hfound⟩

/-- The path of a route whose pair is not taken has room for the endpoint. -/
theorem Holds.take?_pathOf {t : Table} {es : List Endpoint} (hw : t.Holds es) {e : Endpoint}
    (hnew : e.pair ∉ t.seen) :
    (pathOf e t.paths).take? e =
      some ⟨(pathOf e t.paths).template, (pathOf e t.paths).endpoints ++ [e]⟩ := by
  have hfree :
      ¬ ((pathOf e t.paths).endpoints.any fun served => served.method = e.method) = true := by
    intro hany
    obtain ⟨served, hserved, hm⟩ := List.any_eq_true.mp hany
    rcases pathOf_eq e t.paths with ⟨hp, htemplate⟩ | hp
    · rw [hw.endpoints _ hp] at hserved
      obtain ⟨hes, hsame⟩ := List.mem_filter.mp hserved
      refine hnew ((hw.seen _).mpr (List.mem_map.mpr ⟨served, hes, ?_⟩))
      exact Prod.ext (of_decide_eq_true hm) ((of_decide_eq_true hsame).trans htemplate)
    · rw [hp] at hserved
      exact List.not_mem_nil hserved
  rw [Path.take?, if_neg hfree]

/-- Step by step, an addition does what it does at once: it adds the route, or it refuses it and
leaves the table as it was. -/
theorem Holds.addInPlace_eq {rpc : Rpc} {t : Table} {es : List Endpoint} (hw : t.Holds es)
    (r : Route rpc) :
    (∃ t', t.add r = .ok t' ∧ t.addInPlace r = (.added, t')) ∨
      ∃ f, t.add r = .error f ∧ t.addInPlace r = (.refused f, t) := by
  unfold Table.add Table.addInPlace
  cases hc : r.compile with
  | error f => exact Or.inr ⟨f, rfl, rfl⟩
  | ok route =>
      dsimp only
      split
      · exact Or.inr ⟨_, rfl, rfl⟩
      · rename_i hseen
        have hsupported : route.method.isSupported = true :=
          Compiles.isSupported (r := ⟨rpc, r⟩) (e := ⟨rpc, route⟩) ⟨route, hc, rfl⟩
        have hservable : ¬ (!route.method.isServable) = true := by
          simpa using Method.isServable_of_isSupported hsupported
        have hroom := hw.take?_pathOf (e := ⟨rpc, route⟩) fun hmem =>
          hseen (List.contains_iff_mem.mpr hmem)
        have hplace := insertIdx_eraseIdx_eq_place ⟨rpc, route⟩ t.paths
        refine Or.inl ⟨_, rfl, ?_⟩
        rw [if_neg hservable]
        simp only [pathOf] at hroom hplace
        simp only [hroom, hplace]

/-- Additions one after the other leave a table that holds what was added. -/
theorem Holds.addEach {t : Table} {es : List Endpoint} (hw : t.Holds es)
    {added : List ((rpc : Rpc) × Route rpc)} (ha : List.Forall₂ Compiles added es)
    (rs : List ((rpc : Rpc) × Route rpc)) :
    ∃ es', (t.addEach added rs).2.Holds es' ∧
      List.Forall₂ Compiles (t.addEach added rs).1 es' := by
  induction rs generalizing t es added with
  | nil => exact ⟨es, hw, ha⟩
  | cons r rest ih =>
      rcases hw.addInPlace_eq r.2 with ⟨t', hadd, hplace⟩ | ⟨f, _, hplace⟩
      · obtain ⟨e, hc, hw'⟩ := hw.add hadd
        have hboth : List.Forall₂ Compiles (added ++ [r]) (es ++ [e]) :=
          List.rel_append ha (List.Forall₂.cons hc List.Forall₂.nil)
        rw [Table.addEach, hplace]
        exact ih hw' hboth
      · rw [Table.addEach, hplace]
        exact ih hw ha

/-- A pair is taken exactly if it is written like that of an endpoint of the table. -/
theorem Holds.pair_mem_iff {t : Table} {es : List Endpoint} (hw : t.Holds es)
    {r : (rpc : Rpc) × Route rpc} {e : Endpoint} (hc : Compiles r e) :
    e.pair ∈ t.seen ↔ e.written ∈ es.map Endpoint.written := by
  rw [hw.seen, List.mem_map, List.mem_map]
  constructor
  · rintro ⟨e', he', heq⟩
    obtain ⟨hm, ht⟩ := Prod.ext_iff.mp heq
    exact ⟨e', he', Prod.ext hm (congrArg Template.text ht)⟩
  · rintro ⟨e', he', heq⟩
    obtain ⟨r', hc'⟩ := hw.compiled e' he'
    exact ⟨e', he', hc'.pair_eq hc heq⟩

theorem written_of_compiles {added : List ((rpc : Rpc) × Route rpc)} {es : List Endpoint}
    (ha : List.Forall₂ Compiles added es) :
    (added.map fun q => (q.2.method, q.2.template)) = es.map Endpoint.written := by
  induction ha with
  | nil => rfl
  | cons hc _ ih => rw [List.map_cons, List.map_cons, hc.written_eq, ih]

/-- A route is added exactly if it passes its checks and its pair was not added before. -/
theorem Holds.add_isOk_iff {rpc : Rpc} {t : Table} {es : List Endpoint} (hw : t.Holds es)
    {added : List ((rpc : Rpc) × Route rpc)} (ha : List.Forall₂ Compiles added es)
    (r : Route rpc) :
    (∃ t', t.add r = .ok t') ↔ (∃ route, r.compile = .ok route) ∧
      ∀ q ∈ added, q.2.method = r.method → q.2.template ≠ r.template := by
  have hwritten := written_of_compiles ha
  constructor
  · rintro ⟨t', h⟩
    obtain ⟨route, hc, hnew, _⟩ := add_eq_ok h
    have hcompiles : Compiles ⟨rpc, r⟩ ⟨rpc, route⟩ := ⟨route, hc, rfl⟩
    refine ⟨⟨route, hc⟩, fun q hq hm ht => hnew ((hw.pair_mem_iff hcompiles).mpr ?_)⟩
    rw [← hwritten, hcompiles.written_eq]
    exact List.mem_map.mpr ⟨q, hq, Prod.ext hm ht⟩
  · rintro ⟨⟨route, hc⟩, hfresh⟩
    have hcompiles : Compiles ⟨rpc, r⟩ ⟨rpc, route⟩ := ⟨route, hc, rfl⟩
    have hnew : (route.method, route.template) ∉ t.seen := by
      intro hmem
      have hold := (hw.pair_mem_iff hcompiles).mp hmem
      rw [← hwritten, hcompiles.written_eq] at hold
      obtain ⟨q, hq, heq⟩ := List.mem_map.mp hold
      exact hfresh q hq (congrArg Prod.fst heq) (congrArg Prod.snd heq)
    cases h : t.add r with
    | ok t' => exact ⟨t', rfl⟩
    | error f => simp [Table.add, hc, hnew] at h

/-- The endpoints of a path have its template. -/
theorem Holds.of_mem_endpoints {t : Table} {es : List Endpoint} (hw : t.Holds es) {p : Path}
    (hp : p ∈ t.paths) {e : Endpoint} (he : e ∈ p.endpoints) :
    e ∈ es ∧ e.route.template = p.template := by
  rw [hw.endpoints p hp] at he
  obtain ⟨he, htemplate⟩ := List.mem_filter.mp he
  exact ⟨he, of_decide_eq_true htemplate⟩

/-- A path hands the methods that were added for its template, and no others, to an endpoint of the
method. -/
theorem Holds.exists_endpoint?_iff {t : Table} {es : List Endpoint} (hw : t.Holds es) {p : Path}
    (hp : p ∈ t.paths) {m : Method} :
    (∃ e, p.endpoint? m = some e ∧ e.method = m) ↔
      ∃ e ∈ es, e.method = m ∧ e.route.template = p.template := by
  have hhead : ∀ e ∈ p.endpoints, e.method ≠ .head := by
    intro e he
    exact Method.ne_head_of_isSupported (hw.isSupported (hw.of_mem_endpoints hp he).1)
  rw [Path.exists_endpoint?_iff hhead, hw.endpoints p hp]
  constructor
  · rintro ⟨e, he, hm⟩
    obtain ⟨he, htemplate⟩ := List.mem_filter.mp he
    exact ⟨e, he, hm, of_decide_eq_true htemplate⟩
  · rintro ⟨e, he, hm, htemplate⟩
    exact ⟨e, List.mem_filter.mpr ⟨he, decide_eq_true htemplate⟩, hm⟩

/-- A table agrees with the routes that were added to it. -/
structure Records (t : Table) (added : List ((rpc : Rpc) × Route rpc)) : Prop where
  /-- The routes are described in the order in which they were added. -/
  routes : List.Forall₂ (fun r d => r.2.DescribedBy d) added t.routes
  /-- No method is registered twice under a template, as it is written. -/
  once : (t.routes.map fun d => (d.method, d.template.text)).Nodup
  /-- The pairs that are taken are those of the routes. -/
  seen (m : Method) (template : Template) :
    (m, template) ∈ t.seen ↔ ∃ d ∈ t.routes, d.method = m ∧ d.template = template
  /-- There is one path for each template of the routes. -/
  paths : t.PathsOfRoutes
  /-- A path has the endpoints of the routes with its template, in their order. -/
  endpoints : ∀ p ∈ t.paths, (p.endpoints.map fun e => e.route.descriptor) =
    t.routes.filter fun d => d.template = p.template
  /-- A path hands the methods of these routes, and no others, to an endpoint of the method. -/
  answers : ∀ p ∈ t.paths, ∀ m, (∃ e, p.endpoint? m = some e ∧ e.method = m) ↔
    ∃ d ∈ t.routes, d.method = m ∧ d.template = p.template

/-- A table that holds what routes compile to agrees with these routes. -/
theorem Holds.records {t : Table} {es : List Endpoint} (hw : t.Holds es)
    {added : List ((rpc : Rpc) × Route rpc)} (ha : List.Forall₂ Compiles added es) :
    t.Records added := by
  constructor
  · rw [hw.routes, List.forall₂_map_right_iff]
    refine ha.imp ?_
    rintro r e ⟨route, hc, rfl⟩
    exact Route.describedBy_of_compile hc
  · have hes := hw.once.of_map
    have hinj := (List.nodup_map_iff_inj_on hes).mp hw.once
    have hnodup : (es.map Endpoint.written).Nodup := by
      refine hes.map_on fun e he e' he' h => hinj e he e' he' ?_
      obtain ⟨r, hc⟩ := hw.compiled e he
      obtain ⟨r', hc'⟩ := hw.compiled e' he'
      exact hc.pair_eq hc' h
    rw [hw.routes, List.map_map]
    exact hnodup
  · intro m template
    rw [hw.seen, hw.routes, List.mem_map]
    simp [Endpoint.pair, CompiledRoute.descriptor, Prod.ext_iff, Endpoint.method]
  · exact hw.paths
  · intro p hp
    rw [hw.endpoints p hp, hw.routes, List.filter_map]
    rfl
  · intro p hp m
    rw [hw.exists_endpoint?_iff hp, hw.routes]
    constructor
    · rintro ⟨e, he, hm, htemplate⟩
      exact ⟨_, List.mem_map_of_mem he, hm, htemplate⟩
    · rintro ⟨d, hd, hm, htemplate⟩
      obtain ⟨e, he, rfl⟩ := List.mem_map.mp hd
      exact ⟨e, he, hm, htemplate⟩

/-- Additions one after the other, whatever becomes of each, leave a table that agrees with the
routes that were added. A further route is added exactly if it passes its checks and no route that
was added has its method and its template. An addition that fails leaves the table as it was, none
breaks off, and step by step an addition does what it does at once. -/
theorem addEach_records (rs : List ((rpc : Rpc) × Route rpc)) {rpc : Rpc} (r : Route rpc) :
    let added := (addEach {} [] rs).1
    let t := (addEach {} [] rs).2
    let ending := (t.addInPlace r).1
    let t' := (t.addInPlace r).2
    t.Records added ∧
    (ending = .added ↔ (∃ route, r.compile = .ok route) ∧
      ∀ q ∈ added, q.2.method = r.method → q.2.template ≠ r.template) ∧
    (ending ≠ .added → t' = t) ∧
    ending ≠ .broken ∧
    (∀ u, t.add r = .ok u ↔ ending = .added ∧ t' = u) ∧
    (∀ f, t.add r = .error f ↔ ending = .refused f) := by
  intro added t ending t'
  obtain ⟨es, hw, ha⟩ := holds_empty.addEach List.Forall₂.nil rs
  refine ⟨hw.records ha, ?_⟩
  rw [← hw.add_isOk_iff ha]
  rcases hw.addInPlace_eq r with ⟨u, hadd, hplace⟩ | ⟨f, hadd, hplace⟩
  · simp [ending, t', t, hadd, hplace]
  · simp [ending, t', t, hadd, hplace]

end Table

end RestGateway
