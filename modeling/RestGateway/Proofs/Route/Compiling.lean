import RestGateway.Proofs.Route.Variables

/-!
# Routes that pass their checks, and the values of their path fields

A route is checked when it is registered: its method, its template, and that its path fields have
the names of the variables of the template, all of them and no others. So when a request comes, a
path field always finds its variable among the values that the path gives, and gets the value of
that variable and of no other.
-/

namespace RestGateway

namespace Method

/-- The methods that routes may have. -/
def supported : List Method := [get, post, put, patch, delete]

theorem isSupported_iff {m : Method} : m.isSupported = true ↔ m ∈ supported := by
  cases m <;> simp [isSupported, supported]

end Method

namespace Route

variable {rpc : Rpc} {r : Route rpc} {t : Template} {fault : RegisterFault}

/-- The names of the path fields, in the order of their declaration. -/
def fieldNames (r : Route rpc) : List String := r.pathFields.map PathField.name

/-- The first check that a route does not pass. -/
inductive Fails (r : Route rpc) : RegisterFault → Prop
  | method (hmethod : r.method ∉ Method.supported) : Fails r (.method r.method)
  | template {fault : Template.Fault} (hmethod : r.method ∈ Method.supported)
      (hparse : Template.parse r.template = .error fault) : Fails r (.template r.template fault)
  /-- The variables in front of this one are bound. -/
  | unbound {t : Template} {before after : List String} {name : String}
      (hmethod : r.method ∈ Method.supported) (hparse : Template.parse r.template = .ok t)
      (hvariables : t.variables = before ++ name :: after)
      (hbefore : ∀ v ∈ before, v ∈ r.fieldNames) (hname : name ∉ r.fieldNames) :
      Fails r (.unboundVariable r.template name)
  /-- All variables are bound, and the path fields declared before this one have their names. -/
  | unknown {t : Template} {before after : List (PathField rpc.Request)}
      {field : PathField rpc.Request} (hmethod : r.method ∈ Method.supported)
      (hparse : Template.parse r.template = .ok t) (hbound : ∀ v ∈ t.variables, v ∈ r.fieldNames)
      (hfields : r.pathFields = before ++ field :: after)
      (hbefore : ∀ f ∈ before, f.name ∈ t.variables) (hfield : field.name ∉ t.variables) :
      Fails r (.unknownPathField r.template field.name)

/-- The search for a variable that is not bound. -/
def unbound? (r : Route rpc) (t : Template) : Option String :=
  t.variables.find? fun v => !r.pathFields.any fun f => f.name = v

/-- The search for a path field that is no variable. -/
def unknown? (r : Route rpc) (t : Template) : Option (PathField rpc.Request) :=
  r.pathFields.find? fun f => !t.variables.contains f.name

theorem any_name_iff {v : String} :
    (r.pathFields.any fun f => f.name = v) = true ↔ v ∈ r.fieldNames := by
  simp [fieldNames]

theorem unbound?_eq_some_iff {name : String} :
    r.unbound? t = some name ↔ name ∉ r.fieldNames ∧
      ∃ before after, t.variables = before ++ name :: after ∧ ∀ v ∈ before, v ∈ r.fieldNames := by
  simp only [unbound?, List.find?_eq_some_iff_append, Bool.not_not, Bool.not_eq_true',
    ← Bool.not_eq_true, any_name_iff]

theorem unbound?_eq_none_iff :
    r.unbound? t = none ↔ ∀ v ∈ t.variables, v ∈ r.fieldNames := by
  simp only [unbound?, List.find?_eq_none, Bool.not_eq_true', Bool.not_eq_false, any_name_iff]

theorem unknown?_eq_some_iff {field : PathField rpc.Request} :
    r.unknown? t = some field ↔ field.name ∉ t.variables ∧
      ∃ before after, r.pathFields = before ++ field :: after ∧
        ∀ f ∈ before, f.name ∈ t.variables := by
  simp only [unknown?, List.find?_eq_some_iff_append, Bool.not_not, Bool.not_eq_true',
    ← Bool.not_eq_true, List.contains_iff_mem]

theorem unknown?_eq_none_iff :
    r.unknown? t = none ↔ ∀ name ∈ r.fieldNames, name ∈ t.variables := by
  simp [unknown?, fieldNames]

theorem compile_of_parse (hmethod : r.method ∈ Method.supported)
    (hparse : Template.parse r.template = .ok t) :
    r.compile = match r.unbound? t, r.unknown? t with
      | some name, _ => .error (.unboundVariable r.template name)
      | none, some field => .error (.unknownPathField r.template field.name)
      | none, none => .ok ⟨r.method, t, r.source, r.pathFields, r.answer⟩ := by
  simp only [compile, Method.isSupported_iff.mpr hmethod, hparse, unbound?, unknown?,
    Bool.not_true, Bool.false_eq_true, if_false]
  split <;> rename_i hunbound
  · rw [hunbound]
  · rw [hunbound]
    split <;> rename_i hunknown <;> rw [hunknown]

/-- What a route fails first is reported. -/
theorem compile_of_fails (h : r.Fails fault) : r.compile = .error fault := by
  cases h with
  | method hmethod => simp [compile, mt Method.isSupported_iff.mp hmethod]
  | template hmethod hparse => simp [compile, Method.isSupported_iff.mpr hmethod, hparse]
  | unbound hmethod hparse hvariables hbefore hname =>
      have hunbound := unbound?_eq_some_iff.mpr ⟨hname, _, _, hvariables, hbefore⟩
      simp only [compile_of_parse hmethod hparse, hunbound]
  | unknown hmethod hparse hbound hfields hbefore hfield =>
      have hunbound := unbound?_eq_none_iff.mpr hbound
      have hunknown := unknown?_eq_some_iff.mpr ⟨hfield, _, _, hfields, hbefore⟩
      simp only [compile_of_parse hmethod hparse, hunbound, hunknown]

/-- A route that fails nothing keeps what it declares. -/
theorem compile_of_passes (hmethod : r.method ∈ Method.supported)
    (hparse : Template.parse r.template = .ok t)
    (hnames : ∀ name, name ∈ r.fieldNames ↔ name ∈ t.variables) :
    r.compile = .ok ⟨r.method, t, r.source, r.pathFields, r.answer⟩ := by
  have hunbound := unbound?_eq_none_iff.mpr fun v => (hnames v).mpr
  have hunknown := unknown?_eq_none_iff.mpr fun name => (hnames name).mp
  simp only [compile_of_parse hmethod hparse, hunbound, hunknown]

/-- A route fails a check, or its path fields have the names of its variables. -/
theorem fails_or_passes (r : Route rpc) :
    (∃ fault, r.Fails fault) ∨
      r.method ∈ Method.supported ∧ ∃ t, Template.parse r.template = .ok t ∧
        ∀ name, name ∈ r.fieldNames ↔ name ∈ t.variables := by
  by_cases hmethod : r.method ∈ Method.supported
  · cases hparse : Template.parse r.template with
    | error fault => exact Or.inl ⟨_, .template hmethod hparse⟩
    | ok t =>
        cases hunbound : r.unbound? t with
        | some name =>
            obtain ⟨hname, _, _, hvariables, hbefore⟩ := unbound?_eq_some_iff.mp hunbound
            exact Or.inl ⟨_, .unbound hmethod hparse hvariables hbefore hname⟩
        | none =>
            have hbound := unbound?_eq_none_iff.mp hunbound
            cases hunknown : r.unknown? t with
            | some field =>
                obtain ⟨hfield, _, _, hfields, hbefore⟩ := unknown?_eq_some_iff.mp hunknown
                exact Or.inl ⟨_, .unknown hmethod hparse hbound hfields hbefore hfield⟩
            | none =>
                have hknown := unknown?_eq_none_iff.mp hunknown
                exact Or.inr ⟨hmethod, t, rfl, fun name => ⟨hknown name, hbound name⟩⟩
  · exact Or.inl ⟨_, .method hmethod⟩

theorem compile_eq_error_iff : r.compile = .error fault ↔ r.Fails fault := by
  refine ⟨fun h => ?_, compile_of_fails⟩
  rcases r.fails_or_passes with ⟨fault', hfails⟩ | ⟨hmethod, t, hparse, hnames⟩
  · rw [compile_of_fails hfails] at h
    cases h
    exact hfails
  · rw [compile_of_passes hmethod hparse hnames] at h
    cases h

theorem compile_eq_ok_iff {route : CompiledRoute rpc} :
    r.compile = .ok route ↔ r.method ∈ Method.supported ∧
      ∃ t, Template.parse r.template = .ok t ∧
        (∀ name, name ∈ r.fieldNames ↔ name ∈ t.variables) ∧
        route = ⟨r.method, t, r.source, r.pathFields, r.answer⟩ := by
  constructor
  · intro h
    rcases r.fails_or_passes with ⟨fault, hfails⟩ | ⟨hmethod, t, hparse, hnames⟩
    · rw [compile_of_fails hfails] at h
      cases h
    · rw [compile_of_passes hmethod hparse hnames] at h
      cases h
      exact ⟨hmethod, t, hparse, hnames, rfl⟩
  · rintro ⟨hmethod, t, hparse, hnames, rfl⟩
    exact compile_of_passes hmethod hparse hnames

end Route

namespace Router

variable {segments : List Segment} {ps : List Bytes}

/-- A path that is matched gives a value to every variable. -/
theorem captures_names (h : List.Forall₂ Segment.Matches segments ps) :
    (captures segments ps).map Prod.fst = Template.variables ⟨segments⟩ := by
  induction h with
  | nil => rfl
  | @cons segment piece left rest _ _ ih =>
      rcases segment with s | name
      · exact ih
      · exact congrArg (name :: ·) ih

end Router

theorem decodeCaptures_names {cs : Captures} {params : Params}
    (h : decodeCaptures cs = .ok params) : params.map Prod.fst = cs.map Prod.fst := by
  induction cs generalizing params with
  | nil =>
      cases h
      rfl
  | cons c rest ih =>
      obtain ⟨name, value⟩ := c
      unfold decodeCaptures at h
      cases hv : Utf8.decode? (Percent.decode value) with
      | none => simp only [hv] at h; cases h
      | some text =>
          cases hr : decodeCaptures rest with
          | error f => simp only [hv, hr] at h; cases h
          | ok others =>
              simp only [hv, hr] at h
              cases h
              exact congrArg (name :: ·) (ih hr)

section Binding

variable {params : Params} {name s : String}

/-- Where no name comes twice, a value is found under its name. -/
theorem Params.get?_of_mem (hnodup : (params.map Prod.fst).Nodup) (h : (name, s) ∈ params) :
    params.get? name = some s := by
  induction params with
  | nil => cases h
  | cons p rest ih =>
      obtain ⟨hp, hrest⟩ := List.nodup_cons.mp hnodup
      rcases List.mem_cons.mp h with rfl | h
      · simp [Params.get?]
      · have hne : p.1 ≠ name := by
          rintro rfl
          exact hp (List.mem_map.mpr ⟨_, h, rfl⟩)
        have hget := ih hrest h
        simpa [Params.get?, hne] using hget

/-- The value of a variable, if it has one. -/
def Params.valueOf (params : Params) (name : String) : String := (params.get? name).getD ""

theorem Params.get?_eq_some_valueOf (hname : name ∈ params.map Prod.fst) :
    params.get? name = some (params.valueOf name) := by
  have hsome : (params.get? name).isSome = true := by
    simpa [Params.get?] using hname
  obtain ⟨s, hs⟩ := Option.isSome_iff_exists.mp hsome
  rw [Params.valueOf, hs, Option.getD_some]

/-- A name that comes once has one value. -/
theorem Params.mem_iff_eq_valueOf (hnodup : (params.map Prod.fst).Nodup)
    (hname : name ∈ params.map Prod.fst) : (name, s) ∈ params ↔ s = params.valueOf name := by
  have hget := Params.get?_eq_some_valueOf hname
  constructor
  · intro hs
    exact Option.some.inj ((Params.get?_of_mem hnodup hs).symm.trans hget)
  · rintro rfl
    exact Params.mem_of_get?_eq_some hget

/-- Path fields that find their variables are bound to these values one after the other. -/
theorem bindPath_eq_foldlM {α : Type} {fields : List (PathField α)} {value : String → String}
    (h : ∀ f ∈ fields, params.get? f.name = some (value f.name)) (m : α) :
    bindPath params m fields = fields.foldlM (fun m f => f.bind m (value f.name)) m := by
  induction fields generalizing m with
  | nil => rfl
  | cons field fields ih =>
      obtain ⟨hfield, hfields⟩ := List.forall_mem_cons.mp h
      rw [List.foldlM_cons, bindPath, hfield]
      cases hbind : field.bind m (value field.name) with
      | error f => simp only [hbind]; rfl
      | ok m' => simp only [hbind]; exact ih hfields m'

end Binding

namespace CompiledRoute

variable {rpc : Rpc} {route : CompiledRoute rpc}

/-- A path that a route takes gives one value to each variable, in order. -/
theorem Takes.names_eq {r : Route rpc} (hc : r.compile = .ok route) {q : Request}
    {params : Params} (h : route.Takes q params) :
    params.map Prod.fst = route.template.variables := by
  obtain ⟨ps, hcuts, hparams⟩ := h
  obtain ⟨_, t, _, hnames, rfl⟩ := Route.compile_eq_ok_iff.mp hc
  unfold CompiledRoute.params at hparams
  split at hparams
  · rename_i hnone
    cases hparams
    -- Without path fields there are no variables, so nothing is missing.
    have hfields : r.pathFields = [] := List.isEmpty_iff.mp hnone
    apply Eq.symm
    apply List.eq_nil_iff_forall_not_mem.mpr
    intro name hname
    have hfield := (hnames name).mpr hname
    rw [Route.fieldNames, hfields] at hfield
    cases hfield
  · rw [decodeCaptures_names hparams, Router.captures_names hcuts.pieces]

end CompiledRoute

/-- A route passes its checks exactly if its method is supported, its template is read, and its path
fields have the names of the variables; otherwise the first check that it fails is reported. Once it
has passed, and given one value for each variable, its path fields are bound in the order of their
declaration, each to the value of its own variable, up to the first that fails: none misses its
variable. The path of every request that the route takes gives such values. -/
theorem Route.compile_binds {rpc : Rpc} (r : Route rpc) :
    ((∃ route, r.compile = .ok route) ↔ r.method ∈ Method.supported ∧
      ∃ t, Template.parse r.template = .ok t ∧
        ∀ name, name ∈ r.fieldNames ↔ name ∈ t.variables) ∧
    (∀ fault, r.compile = .error fault ↔ r.Fails fault) ∧
    ∀ route, r.compile = .ok route →
      (∀ params : Params, (params.map Prod.fst).Perm route.template.variables →
        ∃ value : String → String,
          (∀ f ∈ r.pathFields, ∀ s, (f.name, s) ∈ params ↔ s = value f.name) ∧
          ∀ m, bindPath params m route.pathFields =
            r.pathFields.foldlM (fun m f => f.bind m (value f.name)) m) ∧
      ∀ q params, route.Takes q params → params.map Prod.fst = route.template.variables := by
  refine ⟨?_, fun fault => compile_eq_error_iff, ?_⟩
  · constructor
    · rintro ⟨route, h⟩
      obtain ⟨hmethod, t, hparse, hnames, _⟩ := compile_eq_ok_iff.mp h
      exact ⟨hmethod, t, hparse, hnames⟩
    · rintro ⟨hmethod, t, hparse, hnames⟩
      exact ⟨_, compile_of_passes hmethod hparse hnames⟩
  · intro route h
    refine ⟨?_, fun q params htakes => htakes.names_eq h⟩
    obtain ⟨_, t, hparse, hnames, rfl⟩ := compile_eq_ok_iff.mp h
    intro params hparams
    have hnodup : (params.map Prod.fst).Nodup :=
      hparams.nodup_iff.mpr (Template.variables_nodup hparse)
    have hfield : ∀ f ∈ r.pathFields, f.name ∈ params.map Prod.fst := by
      intro f hf
      exact hparams.mem_iff.mpr ((hnames f.name).mp (List.mem_map_of_mem hf))
    exact ⟨params.valueOf, fun f hf s => Params.mem_iff_eq_valueOf hnodup (hfield f hf),
      bindPath_eq_foldlM fun f hf => Params.get?_eq_some_valueOf (hfield f hf)⟩

/-- A list of audits of a type. How many are listed is bound twice. -/
def bounded : Route .auditList where
  method := .get
  template := "/v1/\x7btype\x7d/\x7blimit\x7d"
  pathFields := [.named .auditList "limit", .named .auditList "type", .named .auditList "limit"]

/-- The order of the values does not matter, and without its path field the type is not bound. -/
theorem Route.compile_bounded :
    ∃ route, bounded.compile = .ok route ∧
      (∃ value : String → String, value "limit" = "5" ∧ value "type" = "login" ∧
        ∀ m, bindPath [("limit", "5"), ("type", "login")] m route.pathFields =
          bounded.pathFields.foldlM (fun m f => f.bind m (value f.name)) m) ∧
      Fails { bounded with pathFields := [.named .auditList "limit"] }
        (.unboundVariable bounded.template "type") := by
  have hc : bounded.compile = .ok ⟨.get, ⟨[.literal "v1", .variable "type", .variable "limit"]⟩,
      .empty, bounded.pathFields, .message⟩ := rfl
  refine ⟨_, hc, ?_, ((compile_binds _).2.1 _).mp rfl⟩
  obtain ⟨_, _, hroute⟩ := compile_binds bounded
  obtain ⟨value, hvalue, hbind⟩ :=
    (hroute _ hc).1 [("limit", "5"), ("type", "login")] (List.Perm.swap _ _ _)
  have hlimit := hvalue (.named .auditList "limit") List.mem_cons_self "5"
  have htype :=
    hvalue (.named .auditList "type") (List.mem_cons_of_mem _ List.mem_cons_self) "login"
  exact ⟨value, (hlimit.mp List.mem_cons_self).symm,
    (htype.mp (List.mem_cons_of_mem _ List.mem_cons_self)).symm, hbind⟩

end RestGateway
