import Mathlib.Data.List.Perm.Basic
import RestGateway.Bindings
import RestGateway.Proofs.Gateway.Routing

/-!
# Routes in another order

Routes that pass their checks and have different pairs of a method and a template are all added, in
any order. A path then has the same endpoints in another order, and at most one of them takes a
method, so the routers of the two tables differ in nothing but the order in which they list the
methods of a path.
-/

namespace RestGateway

/-- Two fields say the same: they are equal, or they list the same methods. -/
inductive Header.Similar : Header → Header → Prop
  | same (h : Header) : Similar h h
  | allow {methods methods' : List Method} (h : methods.Perm methods') :
      Similar ⟨"allow", Utf8.encode (",".intercalate (methods.map Method.name))⟩
        ⟨"allow", Utf8.encode (",".intercalate (methods'.map Method.name))⟩

/-- Two responses are the same, up to the order of the methods in an allow header. -/
structure Response.Similar (p p' : Response) : Prop where
  status : p.status = p'.status
  headers : List.Forall₂ Header.Similar p.headers p'.headers
  body : p.body = p'.body

/-- Two exchanges are the same, up to the order of the methods in an allow header. -/
structure Exchange.Similar (e e' : Exchange) : Prop where
  outcome : e.outcome = e'.outcome ∨ ∃ p p' : Response, p.Similar p' ∧
    e.outcome = .response p ∧ e'.outcome = .response p'
  calls : e.calls = e'.calls
  ended : e.ended = e'.ended

theorem Exchange.Similar.refl (e : Exchange) : e.Similar e := ⟨Or.inl rfl, rfl, rfl⟩

/-- A path that lists its methods in another order answers the same to a method that it does not
serve. -/
theorem methodNotAllowed_similar {methods methods' : List Method} (h : methods.Perm methods') :
    (methodNotAllowed methods).withLength.Similar (methodNotAllowed methods').withLength := by
  rw [methodNotAllowed_withLength, methodNotAllowed_withLength]
  exact ⟨rfl, .cons (.allow h) (.cons (.same _) .nil), rfl⟩

theorem Compiles.rightUnique : Relator.RightUnique Compiles := by
  rintro r e e' ⟨route, hc, rfl⟩ ⟨route', hc', rfl⟩
  cases hc.symm.trans hc'
  rfl

namespace Table

/-- Routes that pass their checks are all added if no two of them are written alike. -/
theorem Holds.addEach_added {t : Table} {es : List Endpoint} (hw : t.Holds es)
    {added rs : List ((rpc : Rpc) × Route rpc)} (ha : List.Forall₂ Compiles added es)
    (hc : ∀ r ∈ rs, ∃ route, r.2.compile = .ok route)
    (hn : ((added ++ rs).map fun r => (r.2.method, r.2.template)).Nodup) :
    (t.addEach added rs).1 = added ++ rs := by
  induction rs generalizing t es added with
  | nil => exact (List.append_nil added).symm
  | cons r rest ih =>
      have hfresh : ∀ q ∈ added, q.2.method = r.2.method → q.2.template ≠ r.2.template := by
        rw [List.map_append, List.nodup_append] at hn
        intro q hq hm ht
        apply hn.2.2 _ (List.mem_map_of_mem hq) (r.2.method, r.2.template) (by simp)
        exact Prod.ext hm ht
      obtain ⟨t', hadd⟩ := (hw.add_isOk_iff ha r.2).mpr ⟨hc r List.mem_cons_self, hfresh⟩
      obtain ⟨t'', hadd', hplace⟩ | ⟨f, hadd', _⟩ := hw.addInPlace_eq r.2
      · obtain ⟨e, hcompiles, hw''⟩ := hw.add hadd'
        have hboth : List.Forall₂ Compiles (added ++ [r]) (es ++ [e]) :=
          List.rel_append ha (.cons hcompiles .nil)
        have hrest : added ++ [r] ++ rest = added ++ r :: rest := by simp
        rw [Table.addEach, hplace, ← hrest]
        apply ih hw'' hboth
        · exact fun q hq => hc q (List.mem_cons_of_mem r hq)
        · rwa [hrest]
      · cases hadd.symm.trans hadd'

/-- The endpoints of a table as they are left by routes that are all added. -/
theorem exists_holds_of_added {rs : List ((rpc : Rpc) × Route rpc)}
    (hc : ∀ r ∈ rs, ∃ route, r.2.compile = .ok route)
    (hn : (rs.map fun r => (r.2.method, r.2.template)).Nodup) :
    (addEach {} [] rs).1 = rs ∧
      ∃ es, (addEach {} [] rs).2.Holds es ∧ List.Forall₂ Compiles rs es := by
  have hall : (addEach {} [] rs).1 = rs := holds_empty.addEach_added .nil hc hn
  obtain ⟨es, hw, ha⟩ := holds_empty.addEach .nil rs
  rw [hall] at ha
  exact ⟨hall, es, hw, ha⟩

section

variable {t t' : Table} {es es' : List Endpoint} (hw : t.Holds es) (hw' : t'.Holds es')
  (hperm : es.Perm es')
include hw

/-- Endpoints with the same template that take the same method are the same. -/
theorem Holds.eq_of_takes {e e' : Endpoint} (he : e ∈ es) (he' : e' ∈ es)
    (htemplate : e.route.template = e'.route.template) {m : Method} (hm : m ∈ e.method.allowed)
    (hm' : m ∈ e'.method.allowed) : e = e' := by
  have hhead : ∀ e ∈ es, e.method ≠ .head := fun e he =>
    Method.ne_head_of_isSupported (hw.isSupported he)
  have hmethod : e.method = e'.method := by
    rcases Method.mem_allowed_iff.mp hm with rfl | ⟨hget, rfl⟩
    · rcases Method.mem_allowed_iff.mp hm' with heq | ⟨_, heq⟩
      · exact heq
      · exact absurd heq (hhead e he)
    · rcases Method.mem_allowed_iff.mp hm' with heq | ⟨hget', _⟩
      · exact absurd heq.symm (hhead e' he')
      · exact hget.trans hget'.symm
  exact List.inj_on_of_nodup_map hw.once he he' (Prod.ext hmethod htemplate)

include hw' hperm

theorem Holds.mem_routes_iff (d : Descriptor) : d ∈ t.routes ↔ d ∈ t'.routes := by
  rw [hw.routes, hw'.routes]
  exact (hperm.map _).mem_iff

/-- Which template is preferred does not depend on the order of the routes. -/
theorem Holds.prefers_iff {path : Bytes} {T : Template} :
    t.Prefers path T ↔ t'.Prefers path T := by
  have hmem := hw.mem_routes_iff hw' hperm
  constructor
  · rintro ⟨hregistered, hmatched, hfirst⟩
    simp only [hmem] at hregistered hfirst
    exact ⟨hregistered, hmatched, hfirst⟩
  · rintro ⟨hregistered, hmatched, hfirst⟩
    simp only [← hmem] at hregistered hfirst
    exact ⟨hregistered, hmatched, hfirst⟩

section

variable {p p' : Path} (hp : p ∈ t.paths) (hp' : p' ∈ t'.paths)
  (htemplate : p.template = p'.template)
include hp hp' htemplate

theorem Holds.endpoints_perm : p.endpoints.Perm p'.endpoints := by
  rw [hw.endpoints p hp, hw'.endpoints p' hp', htemplate]
  exact hperm.filter _

/-- A path lists the same methods, in another order. -/
theorem Holds.methods_perm : p.methods.Perm p'.methods :=
  (hw.endpoints_perm hw' hperm hp hp' htemplate).flatMap_right _

/-- A path hands a method to the same endpoint. -/
theorem Holds.endpoint?_eq (m : Method) : p.endpoint? m = p'.endpoint? m := by
  have hends := hw.endpoints_perm hw' hperm hp hp' htemplate
  cases he : p.endpoint? m with
  | none =>
      symm
      refine List.find?_eq_none.mpr fun e hmem => ?_
      exact List.find?_eq_none.mp he e (hends.mem_iff.mpr hmem)
  | some e =>
      obtain ⟨hmem, hm⟩ := Path.mem_endpoints_of_endpoint? he
      have hsome : (p'.endpoint? m).isSome = true :=
        List.find?_isSome.mpr ⟨e, hends.mem_iff.mp hmem, by simpa using hm⟩
      obtain ⟨e', he'⟩ := Option.isSome_iff_exists.mp hsome
      obtain ⟨hmem', hm'⟩ := Path.mem_endpoints_of_endpoint? he'
      obtain ⟨hes, ht⟩ := hw.of_mem_endpoints hp hmem
      obtain ⟨hes', ht'⟩ := hw.of_mem_endpoints hp (hends.mem_iff.mpr hmem')
      rw [he', hw.eq_of_takes hes hes' (ht.trans ht'.symm) hm hm']

end

end

end Table

namespace Router

section

variable {t t' : Table} {es es' : List Endpoint} (hw : t.Holds es) (hw' : t'.Holds es')
  (hperm : es.Perm es') {router router' : Router} (hr : router.paths = t.paths)
  (hr' : router'.paths = t'.paths)
include hw hw' hperm

/-- A table has a router if a table with the same endpoints in another order has one. -/
theorem isSome_of_perm (h : (ofTable? t).isSome = true) : (ofTable? t').isSome = true := by
  have hmem : ∀ T, T ∈ t'.paths.map Path.template → T ∈ t.paths.map Path.template := by
    intro T hT
    obtain ⟨d, hd, rfl⟩ := List.mem_map.mp ((hw'.paths.mem_iff T).mp hT)
    rw [hw.paths.mem_iff]
    exact List.mem_map_of_mem ((hw.mem_routes_iff hw' hperm d).mpr hd)
  have hdistinct := (ofTable?_isSome_iff hw.paths).mp h
  exact (ofTable?_isSome_iff hw'.paths).mpr fun T hT T' hT' =>
    hdistinct T (hmem T hT) T' (hmem T' hT')

include hr hr'

/-- Both routers find the same template and the same values, or nothing. -/
theorem find?_of_perm (path : Bytes) :
    (router.find? path = none ∧ router'.find? path = none) ∨
      ∃ p p' values, router.find? path = some (p, values) ∧
        router'.find? path = some (p', values) ∧ p ∈ t.paths ∧ p' ∈ t'.paths ∧
        p.template = p'.template := by
  have hnone : router.find? path = none ↔ router'.find? path = none := by
    rw [find?_eq_none_iff_of_holds hw hr, find?_eq_none_iff_of_holds hw' hr']
    simp only [hw.mem_routes_iff hw' hperm]
  cases hfind : router.find? path with
  | none => exact Or.inl ⟨rfl, hnone.mp hfind⟩
  | some found =>
      cases hfind' : router'.find? path with
      | none => cases hfind.symm.trans (hnone.mpr hfind')
      | some found' =>
          obtain ⟨p, values⟩ := found
          obtain ⟨p', values'⟩ := found'
          obtain ⟨hp, hprefers, ps, hcuts, hvalues⟩ := prefers_of_find? hw hr hfind
          obtain ⟨hp', hprefers', ps', hcuts', hvalues'⟩ := prefers_of_find? hw' hr' hfind'
          have htemplate : p.template = p'.template :=
            hprefers.unique ((hw.prefers_iff hw' hperm).mpr hprefers')
          rw [← htemplate] at hcuts' hvalues'
          obtain rfl := hcuts.unique (hw.literal_empty_notMem hp) hcuts'
          obtain rfl : values = values' := hvalues.trans hvalues'.symm
          exact Or.inr ⟨p, p', values, rfl, rfl, hp, hp', htemplate⟩

/-- Both routers serve a request alike. -/
theorem serve_similar (limits : Limits) (target : Target) (r : Request) (cancel : Option Duration) :
    (router.serve limits target r cancel).Similar (router'.serve limits target r cancel) := by
  rcases find?_of_perm hw hw' hperm hr hr' r.uri.path with
    ⟨hfind, hfind'⟩ | ⟨p, p', values, hfind, hfind', hp, hp', htemplate⟩
  · simp only [serve, hfind, hfind']
    exact .refl _
  · have hendpoint := hw.endpoint?_eq hw' hperm hp hp' htemplate r.method
    simp only [serve, hfind, hfind', ← hendpoint]
    split
    · have hsimilar := methodNotAllowed_similar (hw.methods_perm hw' hperm hp hp' htemplate)
      exact ⟨Or.inr ⟨_, _, hsimilar, rfl, rfl⟩, rfl, rfl⟩
    · exact .refl _

end

/-- Routes that pass their checks, have different pairs of a method and a template, and can be held
by one router are all added and held by one router in any other order, too. The two routers answer
every request alike, with the same calls, up to the order of the methods in an allow header. -/
theorem serve_similar_of_perm {rs rs' : List ((rpc : Rpc) × Route rpc)}
    (hc : ∀ r ∈ rs, ∃ route, r.2.compile = .ok route)
    (hn : (rs.map fun r => (r.2.method, r.2.template)).Nodup) {router : Router}
    (h : ofTable? (Table.addEach {} [] rs).2 = some router) (hperm : rs.Perm rs') :
    (Table.addEach {} [] rs).1 = rs ∧ (Table.addEach {} [] rs').1 = rs' ∧
      ∃ router', ofTable? (Table.addEach {} [] rs').2 = some router' ∧
        ∀ limits target r cancel,
          (router.serve limits target r cancel).Similar
            (router'.serve limits target r cancel) := by
  obtain ⟨hall, es, hw, ha⟩ := Table.exists_holds_of_added hc hn
  obtain ⟨hall', es', hw', ha'⟩ := Table.exists_holds_of_added
    (fun r hr => hc r (hperm.mem_iff.mpr hr)) ((hperm.map _).nodup_iff.mp hn)
  have hes : es.Perm es' := List.rel_perm_imp Compiles.rightUnique ha ha' hperm
  obtain ⟨router', h'⟩ := Option.isSome_iff_exists.mp
    (isSome_of_perm hw hw' hes (Option.isSome_iff_exists.mpr ⟨router, h⟩))
  refine ⟨hall, hall', router', h', fun limits target r cancel => ?_⟩
  exact serve_similar hw hw' hes (paths_of_ofTable? h) (paths_of_ofTable? h') limits target r cancel

/-- The routes of the service may be added from the last to the first. -/
theorem serve_reversed_similar :
    ∃ router router', ofTable? (Table.addEach {} [] Bindings.all).2 = some router ∧
      ofTable? (Table.addEach {} [] Bindings.all.reverse).2 = some router' ∧
      ∀ limits target r cancel,
        (router.serve limits target r cancel).Similar (router'.serve limits target r cancel) := by
  have hc : ∀ r ∈ Bindings.all, ∃ route, r.2.compile = .ok route := by
    intro r hr
    simp only [Bindings.all, List.mem_cons, List.not_mem_nil, or_false] at hr
    rcases hr with rfl | rfl | rfl | rfl | rfl | rfl <;> exact ⟨_, rfl⟩
  obtain ⟨router, h⟩ := Option.isSome_iff_exists.mp
    (by decide : (ofTable? (Table.addEach {} [] Bindings.all).2).isSome = true)
  obtain ⟨_, _, router', h', hsimilar⟩ :=
    serve_similar_of_perm hc (by decide) h (List.reverse_perm _).symm
  exact ⟨router, router', h, h', hsimilar⟩

end Router

end RestGateway
