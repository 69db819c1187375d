import RestGateway.Dispatch
import RestGateway.Proofs.Route.Matching
import RestGateway.Proofs.Route.Registration
import RestGateway.Proofs.Template.Text

/-!
# What a path gives to the variables of a template

A variable gets the piece of the path that it matches, with the escapes undone. A path is cut in one
way and no variable occurs twice, so a variable gets one value.
-/

namespace RestGateway

namespace Template

/-- The text that a path gives to a variable of a template. -/
def Gives (T : Template) (path : Bytes) (name value : String) : Prop :=
  ∃ ps piece, T.Cuts path ps ∧ (Segment.variable name, piece) ∈ T.segments.zip ps ∧
    Utf8.decode? (Percent.decode piece) = some value

end Template

namespace Router

variable {segments : List Segment} {ps : List Bytes}

/-- What is captured are the pieces that stand at the variables. -/
theorem mem_captures_iff {name : String} {piece : Bytes} :
    (name, piece) ∈ captures segments ps ↔ (Segment.variable name, piece) ∈ segments.zip ps := by
  induction segments generalizing ps with
  | nil => simp [captures]
  | cons segment left ih =>
      rcases ps with _ | ⟨first, rest⟩
      · cases segment <;> simp [captures]
      · rcases segment with s | other <;> simp [captures, ih]

theorem captures_names_sublist :
    List.Sublist ((captures segments ps).map Prod.fst) (Template.variables ⟨segments⟩) := by
  induction segments generalizing ps with
  | nil => exact List.nil_sublist _
  | cons segment left ih =>
      rcases ps with _ | ⟨first, rest⟩
      · cases segment <;> exact List.nil_sublist _
      · rcases segment with s | name
        · exact ih
        · exact ih.cons_cons name

end Router

namespace Template

variable {T : Template} {path : Bytes} {name : String}

theorem Gives.unique {s : String} (hT : parse s = .ok T) {value value' : String}
    (h : T.Gives path name value) (h' : T.Gives path name value') : value = value' := by
  obtain ⟨ps, piece, hps, hpiece, hvalue⟩ := h
  obtain ⟨qs, piece', hqs, hpiece', hvalue'⟩ := h'
  obtain rfl := hps.unique (parse_eq_ok hT).2 hqs
  have hnodup : ((Router.captures T.segments ps).map Prod.fst).Nodup :=
    (variables_nodup hT).sublist Router.captures_names_sublist
  have heq := List.inj_on_of_nodup_map hnodup (Router.mem_captures_iff.mpr hpiece)
    (Router.mem_captures_iff.mpr hpiece') rfl
  cases heq
  exact Option.some.inj (hvalue.symm.trans hvalue')

end Template

/-- Decoded variables are captured pieces with their escapes undone. -/
theorem exists_capture_of_mem {cs : Captures} {params : Params} {name value : String}
    (h : decodeCaptures cs = .ok params) (hmem : (name, value) ∈ params) :
    ∃ piece, (name, piece) ∈ cs ∧ Utf8.decode? (Percent.decode piece) = some value := by
  induction cs generalizing params with
  | nil =>
      cases h
      cases hmem
  | cons c rest ih =>
      obtain ⟨other, piece⟩ := c
      unfold decodeCaptures at h
      cases hv : Utf8.decode? (Percent.decode piece) with
      | none => simp only [hv] at h; cases h
      | some text =>
          cases hr : decodeCaptures rest with
          | error f => simp only [hv, hr] at h; cases h
          | ok others =>
              simp only [hv, hr] at h
              cases h
              rcases List.mem_cons.mp hmem with heq | hmem
              · cases heq
                exact ⟨piece, List.mem_cons_self, hv⟩
              · obtain ⟨piece', hpiece', hvalue⟩ := ih hr hmem
                exact ⟨piece', List.mem_cons_of_mem _ hpiece', hvalue⟩

theorem Params.mem_of_get?_eq_some {params : Params} {name value : String}
    (h : params.get? name = some value) : (name, value) ∈ params := by
  obtain ⟨⟨other, _⟩, hfind, rfl⟩ := Option.map_eq_some_iff.mp h
  obtain rfl : other = name := by simpa using List.find?_some hfind
  exact List.mem_of_find?_eq_some hfind

namespace CompiledRoute

variable {rpc : Rpc} {route : CompiledRoute rpc}

/-- The template of a route matches the path of a request, and the variables have these values. -/
def Takes (route : CompiledRoute rpc) (r : Request) (params : Params) : Prop :=
  ∃ ps, route.template.Cuts r.uri.path ps ∧
    route.params (some (Router.captures route.template.segments ps)) = .ok params

/-- A route takes the requests whose path the router finds by its template. -/
theorem takes_of_find? {router : Router}
    (hne : ∀ p ∈ router.paths, .literal "" ∉ p.template.segments) {r : Request} {p : Path}
    {values : Captures} {params : Params} (hfind : router.find? r.uri.path = some (p, values))
    (htemplate : p.template = route.template) (hparams : route.params (some values) = .ok params) :
    route.Takes r params := by
  obtain ⟨_, ⟨ps, hcuts, rfl⟩, _⟩ := Router.find?_eq_some hne hfind
  rw [htemplate] at hcuts hparams
  exact ⟨ps, hcuts, hparams⟩

/-- The values of the variables are those that the path gives. -/
theorem Takes.gives {r : Request} {params : Params} {name value : String}
    (h : route.Takes r params) (hget : params.get? name = some value) :
    route.template.Gives r.uri.path name value := by
  obtain ⟨ps, hcuts, hparams⟩ := h
  unfold CompiledRoute.params at hparams
  split at hparams
  · cases hparams
    cases hget
  · obtain ⟨piece, hpiece, hvalue⟩ :=
      exists_capture_of_mem hparams (Params.mem_of_get?_eq_some hget)
    exact ⟨ps, piece, hcuts, Router.mem_captures_iff.mp hpiece, hvalue⟩

/-- Requests with the same path have the same values of variables. -/
theorem Takes.params_eq {r₀ : Route rpc} (hc : r₀.compile = .ok route) {r r' : Request}
    {params params' : Params} (h : route.Takes r params) (h' : route.Takes r' params')
    (hpath : r.uri.path = r'.uri.path) : params = params' := by
  obtain ⟨ps, hps, hparams⟩ := h
  obtain ⟨qs, hqs, hparams'⟩ := h'
  have hT := (Template.parse_eq_ok (Route.compile_eq_ok hc).2.2).2
  obtain rfl := hps.unique hT (hpath ▸ hqs)
  exact Except.ok.inj (hparams.symm.trans hparams')

end CompiledRoute

end RestGateway
