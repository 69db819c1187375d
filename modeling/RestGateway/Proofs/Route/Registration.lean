import Mathlib.Data.List.Nodup
import RestGateway.Route.Fields
import RestGateway.Route.Router

/-!
# Registered routes and the router that holds them

A table keeps one path for each template of its routes. Registration compares templates as texts,
and a router tells them apart by their shapes, without the names of variables. A table that was
filled without a fault has a router exactly if no two of its templates share a shape.
-/

namespace RestGateway

namespace Route

variable {rpc : Rpc}

/-- A checked route is the route with its template read, and its method is supported. -/
theorem exists_template_of_compile {r : Route rpc} {route : CompiledRoute rpc}
    (h : r.compile = .ok route) :
    r.method.isSupported = true ∧ ∃ template, Template.parse r.template = .ok template ∧
      route = ⟨r.method, template, r.source, r.pathFields, r.answer⟩ := by
  unfold compile at h
  split at h
  · cases h
  · rename_i hm
    cases hp : Template.parse r.template with
    | error fault => simp only [hp] at h; cases h
    | ok template =>
        simp only [hp] at h
        split at h
        · cases h
        · split at h
          · cases h
          · cases h
            exact ⟨by simpa using hm, template, rfl, rfl⟩

/-- A checked route keeps the method of the route, and its template is the one that the text of the
route spells. -/
theorem compile_eq_ok {r : Route rpc} {route : CompiledRoute rpc} (h : r.compile = .ok route) :
    r.method.isSupported = true ∧ route.method = r.method ∧
      Template.parse r.template = .ok route.template := by
  obtain ⟨hm, template, hp, rfl⟩ := exists_template_of_compile h
  exact ⟨hm, rfl, hp⟩

end Route

namespace Table

/-- The paths of a table have the templates of its routes, each once. -/
structure PathsOfRoutes (t : Table) : Prop where
  nodup : (t.paths.map Path.template).Nodup
  mem_iff (template : Template) :
    template ∈ t.paths.map Path.template ↔ template ∈ t.routes.map Descriptor.template

/-- Placing an endpoint adds its template behind the others, unless it is there. -/
theorem place_templates (e : Endpoint) (ps : List Path) :
    (place e ps).map Path.template =
      if e.route.template ∈ ps.map Path.template then ps.map Path.template
      else ps.map Path.template ++ [e.route.template] := by
  induction ps with
  | nil => rfl
  | cons p rest ih =>
      by_cases hp : p.template = e.route.template
      · simp [place, hp]
      · have hne : e.route.template ≠ p.template := fun h => hp h.symm
        simp only [place, if_neg hp, List.map_cons, ih, List.mem_cons]
        by_cases hr : e.route.template ∈ rest.map Path.template <;> simp [hr, hne]

/-- What an addition does: the route passes its checks, its pair of a method and a template is not
taken, and all three lists get the route. -/
theorem add_eq_ok {rpc : Rpc} {t t' : Table} {r : Route rpc} (h : t.add r = .ok t') :
    ∃ route : CompiledRoute rpc, r.compile = .ok route ∧
      (route.method, route.template) ∉ t.seen ∧
      t' = { routes := t.routes ++ [route.descriptor]
             seen := (route.method, route.template) :: t.seen
             paths := place ⟨rpc, route⟩ t.paths } := by
  unfold add at h
  cases hc : r.compile with
  | error f => simp only [hc] at h; cases h
  | ok route =>
      simp only [hc] at h
      split at h
      · cases h
      · rename_i hseen
        cases h
        exact ⟨route, rfl, by simpa using hseen, rfl⟩

theorem pathsOfRoutes_empty : PathsOfRoutes {} :=
  ⟨List.nodup_nil, fun _ => Iff.rfl⟩

/-- An addition keeps the paths in step with the routes. -/
theorem PathsOfRoutes.add {rpc : Rpc} {t t' : Table} {r : Route rpc} (hw : PathsOfRoutes t)
    (h : t.add r = .ok t') : PathsOfRoutes t' := by
  obtain ⟨route, _, _, rfl⟩ := add_eq_ok h
  have hd : route.descriptor.template = route.template := rfl
  constructor
  · rw [place_templates]
    split
    · exact hw.nodup
    · rename_i hnew
      simpa only [List.concat_eq_append] using hw.nodup.concat hnew
  · intro template
    rw [place_templates, List.map_append, List.mem_append, List.map_singleton, hd]
    split
    · rename_i hold
      constructor
      · intro hm
        exact Or.inl ((hw.mem_iff template).mp hm)
      · rintro (hm | hm)
        · exact (hw.mem_iff template).mpr hm
        · rw [List.mem_singleton] at hm
          exact hm ▸ hold
    · rw [List.mem_append, hw.mem_iff template]

/-- A run of additions keeps the paths in step with the routes. -/
theorem PathsOfRoutes.addAll {rs : List ((rpc : Rpc) × Route rpc)} {t t' : Table}
    (hw : PathsOfRoutes t) (h : t.addAll rs = .ok t') : PathsOfRoutes t' := by
  induction rs generalizing t with
  | nil => cases h; exact hw
  | cons r rest ih =>
      unfold Table.addAll at h
      cases ha : t.add r.2 with
      | error f => simp only [ha] at h; cases h
      | ok next =>
          simp only [ha] at h
          exact ih (hw.add ha) h

/-- A run of additions registers the templates that the texts of its routes spell. -/
theorem addAll_templates {rs : List ((rpc : Rpc) × Route rpc)} {t t' : Table}
    (h : t.addAll rs = .ok t') (template : Template) :
    template ∈ t'.routes.map Descriptor.template ↔
      template ∈ t.routes.map Descriptor.template ∨
        ∃ r ∈ rs, Template.parse r.2.template = .ok template := by
  induction rs generalizing t with
  | nil => cases h; simp
  | cons r rest ih =>
      unfold Table.addAll at h
      cases ha : t.add r.2 with
      | error f => simp only [ha] at h; cases h
      | ok next =>
          simp only [ha] at h
          obtain ⟨route, hc, _, rfl⟩ := add_eq_ok ha
          have hp := (Route.compile_eq_ok hc).2.2
          have hd : route.descriptor.template = route.template := rfl
          rw [ih h]
          simp [hp, hd, or_assoc, eq_comm]

end Table

namespace Router

/-- A table has a router exactly if different templates among its paths have different shapes. -/
theorem ofTable?_isSome_iff {t : Table} (hw : t.PathsOfRoutes) :
    (ofTable? t).isSome = true ↔
      ∀ T ∈ t.paths.map Path.template, ∀ T' ∈ t.paths.map Path.template,
        T.shape = T'.shape → T = T' := by
  have hmap : (t.paths.map fun p => p.template.shape) =
      (t.paths.map Path.template).map Template.shape := by
    rw [List.map_map]
    rfl
  have hsome : (ofTable? t).isSome = true ↔ (t.paths.map fun p => p.template.shape).Nodup := by
    unfold ofTable?
    split
    · rename_i hd
      exact iff_of_true rfl hd
    · rename_i hd
      exact iff_of_false Bool.false_ne_true hd
  rw [hsome, hmap]
  exact List.nodup_map_iff_inj_on hw.nodup

/-- Routes that were all registered have a router exactly if no two of their templates are equal up
to the names of variables, whatever their methods and their order. -/
theorem isSome_iff_shapes_distinct {rs : List ((rpc : Rpc) × Route rpc)} {t : Table}
    (h : Table.addAll {} rs = .ok t) :
    (ofTable? t).isSome = true ↔
      ∀ r ∈ rs, ∀ r' ∈ rs, ∀ T T', Template.parse r.2.template = .ok T →
        Template.parse r'.2.template = .ok T' → T.shape = T'.shape → T = T' := by
  have hw := Table.pathsOfRoutes_empty.addAll h
  have hmem : ∀ T, T ∈ t.paths.map Path.template ↔
      ∃ r ∈ rs, Template.parse r.2.template = .ok T := by
    intro T
    rw [hw.mem_iff, Table.addAll_templates h]
    simp
  rw [ofTable?_isSome_iff hw]
  constructor
  · intro hd r hr r' hr' T T' hT hT'
    exact hd T ((hmem T).mpr ⟨r, hr, hT⟩) T' ((hmem T').mpr ⟨r', hr', hT'⟩)
  · intro hd T hT T' hT'
    obtain ⟨r, hr, hp⟩ := (hmem T).mp hT
    obtain ⟨r', hr', hp'⟩ := (hmem T').mp hT'
    exact hd r hr r' hr' T T' hp hp'

/-- Reads and changes of an audit, under templates whose variables have different names. -/
def renamed : List ((rpc : Rpc) × Route rpc) :=
  [⟨.auditRead, { method := .get, template := "/v1/\x7bid\x7d",
                  pathFields := [.named .auditRead "id"] }⟩,
   ⟨.auditUpdate, { method := .patch, template := "/v1/\x7bname\x7d",
                    pathFields := [.named .auditUpdate "name"] }⟩]

/-- The routes are registered, and the condition decides that no router holds them. -/
theorem renamed_isSome_iff :
    ∃ t, Table.addAll {} renamed = .ok t ∧
      ((ofTable? t).isSome = true ↔
        ∀ r ∈ renamed, ∀ r' ∈ renamed, ∀ T T', Template.parse r.2.template = .ok T →
          Template.parse r'.2.template = .ok T' → T.shape = T'.shape → T = T') :=
  ⟨_, rfl, isSome_iff_shapes_distinct rfl⟩

/-- Registration without a fault does not make sure that there is a router. -/
theorem not_isSome_of_registered :
    ¬ ∀ (rs : List ((rpc : Rpc) × Route rpc)) (t : Table), Table.addAll {} rs = .ok t →
        (ofTable? t).isSome = true := by
  intro h
  have hs := h renamed _ rfl
  exact absurd hs (by decide)

end Router

end RestGateway
