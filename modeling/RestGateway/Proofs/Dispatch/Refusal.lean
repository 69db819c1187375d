import RestGateway.Bindings
import RestGateway.Dispatch
import RestGateway.Proofs.Deadline.Writing
import RestGateway.Proofs.Query.Kept
import RestGateway.Route.Fields

/-!
# Which request makes a call

Behind the check of its method a request passes four stages before its call is made. The first
stage that fails decides the response, and a refused request is not seen by any service. A request
that passes all of them makes one call of a service of the same process. What is refused is an
argument of the client or a body that is too long, except that the fields of a route refuse their
values as they like.
-/

namespace RestGateway

namespace PathField

/-- Values that do not fit the field are all refused as arguments of the client. -/
def BlamesClient {α : Type} (field : PathField α) : Prop :=
  ∀ m value f, field.bind m value = .error f → f.code = .invalidArgument

theorem pathValue_error_code {α : Type} {read : String → Except String α} {name value : String}
    {f : Failure} (h : pathValue read name value = .error f) : f.code = .invalidArgument := by
  unfold pathValue at h
  cases hr : read value with
  | error fault => rw [hr] at h; cases h; rfl
  | ok a => rw [hr] at h; cases h

theorem ignored_blamesClient {α : Type} (name : String) :
    (ignored name : PathField α).BlamesClient := by
  intro m value f h
  cases h

theorem ofText_blamesClient {α : Type} (name : String) (set : α → String → α) :
    (ofText name set).BlamesClient := by
  intro m value f h
  cases h

theorem ofInteger_blamesClient {α : Type} (name : String) (set : α → Int64 → α) :
    (ofInteger name set).BlamesClient := by
  intro m value f h
  simp only [ofInteger] at h
  cases hp : pathValue (PathValue.integer Integer.int64) name value with
  | error fault =>
      rw [hp] at h
      cases h
      exact pathValue_error_code hp
  | ok n => rw [hp] at h; cases h

/-- The fields that routes have by name blame the client. -/
theorem named_blamesClient (rpc : Rpc) (name : String) : (named rpc name).BlamesClient := by
  unfold named
  split
  · exact ofText_blamesClient _ _
  · exact ofText_blamesClient _ _
  · exact ofText_blamesClient _ _
  · exact ofText_blamesClient _ _
  · exact ofText_blamesClient _ _
  · exact ofInteger_blamesClient _ _
  · exact ofText_blamesClient _ _
  · exact ofText_blamesClient _ _
  · exact ignored_blamesClient _

/-- The first field that does not take the value of its variable fails. -/
inductive Rejects {α : Type} (params : Params) : α → List (PathField α) → Failure → Prop
  | first {m : α} {field : PathField α} {fields : List (PathField α)} {value : String} {f : Failure}
      (hvalue : params.get? field.name = some value) (hbind : field.bind m value = .error f) :
      Rejects params m (field :: fields) f
  | later {m m' : α} {field : PathField α} {fields : List (PathField α)} {value : String}
      {f : Failure} (hvalue : params.get? field.name = some value)
      (hbind : field.bind m value = .ok m') (hfields : Rejects params m' fields f) :
      Rejects params m (field :: fields) f

/-- Fields fail where a variable is missing, and else as the first field that rejects its value. -/
theorem rejects_of_bindPath {α : Type} {params : Params} {fields : List (PathField α)} {m : α}
    {f : Failure} (h : bindPath params m fields = .error f) :
    f.code = .invalidArgument ∨ Rejects params m fields f := by
  induction fields generalizing m with
  | nil => cases h
  | cons field rest ih =>
      unfold bindPath at h
      cases hvalue : params.get? field.name with
      | none =>
          simp only [hvalue] at h
          cases h
          exact Or.inl rfl
      | some value =>
          cases hbind : field.bind m value with
          | error e =>
              simp only [hvalue, hbind] at h
              cases h
              exact Or.inr (.first hvalue hbind)
          | ok m' =>
              simp only [hvalue, hbind] at h
              exact (ih h).imp_right (.later hvalue hbind)

/-- Fields that blame the client do so one after the other. -/
theorem Rejects.code_eq {α : Type} {params : Params} {fields : List (PathField α)} {m : α}
    {f : Failure} (h : Rejects params m fields f) (hf : ∀ field ∈ fields, field.BlamesClient) :
    f.code = .invalidArgument := by
  induction h with
  | first _ hbind => exact hf _ List.mem_cons_self _ _ _ hbind
  | later _ _ _ ih => exact ih fun field hfield => hf field (List.mem_cons_of_mem _ hfield)

end PathField

/-- Values of path variables are refused as arguments of the client. -/
theorem decodeCaptures_error_code {captures : Captures} {f : Failure}
    (h : decodeCaptures captures = .error f) : f.code = .invalidArgument := by
  induction captures with
  | nil => cases h
  | cons c rest ih =>
      unfold decodeCaptures at h
      cases hv : Utf8.decode? (Percent.decode c.2) with
      | none => simp only [hv] at h; cases h; rfl
      | some value =>
          simp only [hv] at h
          cases hr : decodeCaptures rest with
          | error e => rw [hr] at h; cases h; exact ih hr
          | ok params => rw [hr] at h; cases h

/-- A limit that cannot be read is an argument of the client. -/
theorem Deadline.ofHeaders_error_code {headers : Headers} {f : Failure}
    (h : ofHeaders headers = .error f) : f.code = .invalidArgument := by
  unfold ofHeaders at h
  cases hv : headers.get? name with
  | none => simp only [hv] at h; cases h
  | some value =>
      simp only [hv] at h
      split at h
      · cases h
      · cases h; rfl

theorem decodeBody_error_code {α : Type} [Message α] {body : Bytes} {f : Failure}
    (h : decodeBody α body = .error f) : f.code = .invalidArgument := by
  unfold decodeBody at h
  simp only at h
  split at h
  · cases h
  · cases hj : Json.decode α body with
    | error e => rw [hj] at h; cases h; rfl
    | ok m => rw [hj] at h; cases h

/-- A body that cannot be collected is too long, or its stream broke off. -/
theorem Body.read_error_code {b : Body} {limit : Nat} {f : Failure}
    (h : b.read limit = .error f) :
    f.code = .invalidArgument ∨ f.code = .resourceExhausted ∧ limit < b.size := by
  unfold read at h
  split at h
  · rename_i hlong
    cases h
    exact Or.inr ⟨rfl, hlong⟩
  · split at h
    · cases h
      exact Or.inl rfl
    · cases h

/-- What a request has to pass behind the check of its method. -/
inductive Stage
  | params
  | source
  | binding
  | limit
deriving Repr, DecidableEq

/-- The stages in the order in which a request passes them. -/
def Stage.all : List Stage := [params, source, binding, limit]

/-- The metadata of the call of a request: its annotation, with the limit that counts in the place
of any other. -/
def CallMetadata (r : Request) (deadline : Option Duration) (metadata : Headers) : Prop :=
  match deadline with
  | none => metadata = Metadata.annotate r
  | some d => ∃ text, Deadline.write? d = some text ∧
      metadata = (Metadata.annotate r).set Deadline.name (Utf8.encode text)

namespace CompiledRoute

variable {rpc : Rpc} (route : CompiledRoute rpc) (limits : Limits) (captures : Option Captures)
  (r : Request)

/-- What a stage fails with. Binding waits for the values and the message. -/
def failure? : Stage → Option Failure
  | .params =>
    match route.params captures with
    | .error f => some f
    | .ok _ => none
  | .source =>
    match route.decodeSource limits.bodyLimit r with
    | .error f => some f
    | .ok _ => none
  | .binding =>
    match route.params captures, route.decodeSource limits.bodyLimit r with
    | .ok params, .ok m =>
      match bindPath params m route.pathFields with
      | .error f => some f
      | .ok _ => none
    | _, _ => none
  | .limit =>
    match Deadline.ofHeaders r.headers with
    | .error f => some f
    | .ok _ => none

/-- The first stage that fails, and what it fails with. -/
def firstFailure? : Option (Stage × Failure) :=
  Stage.all.findSome? fun stage => (route.failure? limits captures r stage).map (stage, ·)

/-- A field of the route rejects its value, once the values and the message are read. -/
def Rejects (f : Failure) : Prop :=
  ∃ params m, route.params captures = .ok params ∧ route.decodeSource limits.bodyLimit r = .ok m ∧
    PathField.Rejects params m route.pathFields f

variable {route limits captures r}

theorem params_error_code {f : Failure} (h : route.params captures = .error f) :
    f.code = .invalidArgument := by
  unfold params at h
  split at h
  · cases h
  · cases captures with
    | none => cases h; rfl
    | some cs => exact decodeCaptures_error_code h

theorem decodeSource_error_code {limit : Nat} {f : Failure}
    (h : route.decodeSource limit r = .error f) :
    f.code = .invalidArgument ∨
      f.code = .resourceExhausted ∧ route.source = .body ∧ limit < r.body.size := by
  unfold decodeSource at h
  cases hs : route.source with
  | empty => simp only [hs] at h; cases h
  | query =>
      simp only [hs] at h
      exact Or.inl (decodeQuery_error_code h)
  | body =>
      simp only [hs] at h
      cases hb : r.body.read limit with
      | error e =>
          simp only [hb] at h
          cases h
          rcases Body.read_error_code hb with hc | ⟨hc, hlong⟩
          · exact Or.inl hc
          · exact Or.inr ⟨hc, rfl, hlong⟩
      | ok body =>
          simp only [hb] at h
          exact Or.inl (decodeBody_error_code h)

/-- A stage fails with an argument of the client, with a body that is too long, or with what a field
rejects its value with. -/
theorem failure?_code {stage : Stage} {f : Failure}
    (h : route.failure? limits captures r stage = some f) :
    f.code = .invalidArgument ∨
      (f.code = .resourceExhausted ∧ stage = .source ∧ route.source = .body ∧
        limits.bodyLimit < r.body.size) ∨
      stage = .binding ∧ route.Rejects limits captures r f := by
  cases stage with
  | params =>
      simp only [failure?] at h
      split at h
      · rename_i e he
        cases h
        exact Or.inl (params_error_code he)
      · cases h
  | source =>
      simp only [failure?] at h
      split at h
      · rename_i e he
        cases h
        rcases decodeSource_error_code he with hc | ⟨hc, hs, hlong⟩
        · exact Or.inl hc
        · exact Or.inr (Or.inl ⟨hc, rfl, hs, hlong⟩)
      · cases h
  | binding =>
      simp only [failure?] at h
      split at h
      · rename_i params m hp hs
        split at h
        · rename_i e he
          cases h
          exact (PathField.rejects_of_bindPath he).imp_right fun hrejects =>
            Or.inr ⟨rfl, params, m, hp, hs, hrejects⟩
        · cases h
      · cases h
  | limit =>
      simp only [failure?] at h
      split at h
      · rename_i e he
        cases h
        exact Or.inl (Deadline.ofHeaders_error_code he)
      · cases h

theorem failure?_of_firstFailure? {stage : Stage} {f : Failure}
    (h : route.firstFailure? limits captures r = some (stage, f)) :
    route.failure? limits captures r stage = some f := by
  obtain ⟨s, _, hs⟩ := List.exists_of_findSome?_eq_some h
  obtain ⟨f', hf', heq⟩ := Option.map_eq_some_iff.mp hs
  cases heq
  exact hf'

/-- An order is read exactly if values, message and limit of the client are. -/
theorem order_eq_ok_iff {o : Order rpc} :
    route.order limits captures r = .ok o ↔
      ∃ params client, route.params captures = .ok params ∧
        route.decodeRequest limits.bodyLimit r params = .ok o.message ∧
        Deadline.ofHeaders r.headers = .ok client ∧
        o.deadline = Deadline.effective limits.timeout client := by
  unfold order
  cases hp : route.params captures with
  | error f => simp [bind, Except.bind]
  | ok params =>
      cases hm : route.decodeRequest limits.bodyLimit r params with
      | error f => simp [bind, Except.bind, hm]
      | ok m =>
          cases hc : Deadline.ofHeaders r.headers with
          | error f => simp [bind, Except.bind, hm]
          | ok client =>
              obtain ⟨message, deadline⟩ := o
              simp [bind, Except.bind, pure, Except.pure, hm, eq_comm]

theorem order_of_decoded {params : Params} {m : rpc.Request} {client : Option Duration}
    (hp : route.params captures = .ok params)
    (hd : route.decodeRequest limits.bodyLimit r params = .ok m)
    (hc : Deadline.ofHeaders r.headers = .ok client) :
    route.order limits captures r = .ok ⟨m, Deadline.effective limits.timeout client⟩ :=
  order_eq_ok_iff.mpr ⟨params, client, hp, hd, hc, rfl⟩

/-- An order fails with what the first stage that fails says. -/
theorem order_eq_error_iff {f : Failure} :
    route.order limits captures r = .error f ↔
      ∃ stage, route.firstFailure? limits captures r = some (stage, f) := by
  unfold order decodeRequest firstFailure? Stage.all
  simp only [List.findSome?_cons, List.findSome?_nil, failure?]
  cases hp : route.params captures with
  | error p => simp [bind, Except.bind]
  | ok params =>
      cases hs : route.decodeSource limits.bodyLimit r with
      | error s => simp [bind, Except.bind]
      | ok m =>
          cases hb : bindPath params m route.pathFields with
          | error b => simp [bind, Except.bind, hb]
          | ok m' =>
              cases hc : Deadline.ofHeaders r.headers with
              | error c => simp [bind, Except.bind, hb]
              | ok client => simp [bind, Except.bind, pure, Except.pure, hb]

/-- A call that is made at once is in time, whatever ends it. -/
theorem inTime_zero (race : Race) : race.inTime ⟨0⟩ = true := by
  obtain ⟨answer, deadline, cancel⟩ := race
  cases deadline <;> cases cancel <;> simp [Race.inTime, Race.notAfter]

/-- The metadata of a call whose limit can be written. -/
theorem metadata?_of_hours_lt {deadline : Option Duration}
    (h : ∀ d, deadline = some d → d.hours < 10 ^ Deadline.digitLimit) :
    ∃ metadata, metadata? r deadline = some metadata ∧ CallMetadata r deadline metadata := by
  cases deadline with
  | none => exact ⟨_, rfl, rfl⟩
  | some d =>
      have hw := (Deadline.write?_isSome_iff d).mpr (h d rfl)
      obtain ⟨text, ht⟩ := Option.isSome_iff_exists.mp hw
      exact ⟨_, by rw [metadata?, ht]; rfl, text, ht, rfl⟩

/-- An order whose limit can be written makes one call of a service of the same process. -/
theorem perform_inProcess_calls {o : Order rpc} (service : Service) (cancel : Option Duration)
    (h : ∀ d, o.deadline = some d → d.hours < 10 ^ Deadline.digitLimit) :
    ∃ metadata, CallMetadata r o.deadline metadata ∧
      (route.perform (.inProcess service) r o cancel).calls = [⟨rpc, o.message, metadata⟩] := by
  obtain ⟨metadata, hm, hd⟩ := metadata?_of_hours_lt (r := r) h
  refine ⟨metadata, hd, ?_⟩
  simp [perform, hm, Target.invoke, Service.invoke, inTime_zero]

theorem serve_of_method_ne (h : r.method ≠ route.method) (target : Target)
    (cancel : Option Duration) :
    route.serve limits target captures r cancel =
      { outcome := .response (methodNotAllowed [route.method]) } := by
  simp [serve, h]

theorem serve_of_order_error (hm : r.method = route.method) {f : Failure}
    (ho : route.order limits captures r = .error f) (target : Target) (cancel : Option Duration) :
    route.serve limits target captures r cancel = { outcome := .response f.response } := by
  simp [serve, hm, ho]

theorem serve_of_order_ok (hm : r.method = route.method) {o : Order rpc}
    (ho : route.order limits captures r = .ok o) (target : Target) (cancel : Option Duration) :
    route.serve limits target captures r cancel = route.perform target r o cancel := by
  simp [serve, hm, ho]

/-- A request is refused for its method, or refused because no order can be read, or its order is
performed. -/
theorem serve_cases (route : CompiledRoute rpc) (limits : Limits) (target : Target)
    (captures : Option Captures) (r : Request) (cancel : Option Duration) :
    r.method ≠ route.method ∧ route.serve limits target captures r cancel =
      { outcome := .response (methodNotAllowed [route.method]) } ∨
    r.method = route.method ∧
      ((∃ f, route.order limits captures r = .error f ∧
        route.serve limits target captures r cancel = { outcome := .response f.response }) ∨
      ∃ o, route.order limits captures r = .ok o ∧
        route.serve limits target captures r cancel = route.perform target r o cancel) := by
  by_cases hm : r.method = route.method
  · cases ho : route.order limits captures r with
    | error f => exact Or.inr ⟨hm, Or.inl ⟨f, rfl, serve_of_order_error hm ho target cancel⟩⟩
    | ok o => exact Or.inr ⟨hm, Or.inr ⟨o, rfl, serve_of_order_ok hm ho target cancel⟩⟩
  · exact Or.inl ⟨hm, serve_of_method_ne hm target cancel⟩

/-- The status of a stage that fails is that of a bad request, that of a body that is too long, or
that of what a field rejects its value with. -/
theorem failure?_status {stage : Stage} {f : Failure}
    (h : route.failure? limits captures r stage = some f) :
    (f.code = .invalidArgument ∧ f.response.status = 400) ∨
      (f.code = .resourceExhausted ∧ f.response.status = 429 ∧ stage = .source ∧
        route.source = .body ∧ limits.bodyLimit < r.body.size) ∨
      stage = .binding ∧ f.response.status = f.code.httpStatus ∧
        route.Rejects limits captures r f := by
  have hst : f.response.status = f.code.httpStatus := rfl
  rcases failure?_code h with hc | ⟨hc, hrest⟩ | ⟨hstage, hrejects⟩
  · exact Or.inl ⟨hc, by rw [hst, hc]; rfl⟩
  · exact Or.inr (Or.inl ⟨hc, by rw [hst, hc]; rfl, hrest⟩)
  · exact Or.inr (Or.inr ⟨hstage, hst, hrejects⟩)

/-- Where the fields of a route blame the client, so does every stage, unless a body is too long. -/
theorem firstFailure?_status_of_blamesClient (hf : ∀ field ∈ route.pathFields, field.BlamesClient)
    {stage : Stage} {f : Failure} (h : route.firstFailure? limits captures r = some (stage, f)) :
    (f.code = .invalidArgument ∧ f.response.status = 400) ∨
      f.code = .resourceExhausted ∧ f.response.status = 429 ∧ stage = .source ∧
        route.source = .body ∧ limits.bodyLimit < r.body.size := by
  rcases failure?_status (failure?_of_firstFailure? h) with
    hclient | hlong | ⟨_, hstatus, _, _, _, _, hrejects⟩
  · exact Or.inl hclient
  · exact Or.inr hlong
  · have hcode := hrejects.code_eq hf
    rw [hcode] at hstatus
    exact Or.inl ⟨hcode, hstatus⟩

/-- A request is seen by a service of the same process in one call, with the message and the limit
that were read, exactly if its method is that of the route and every stage is passed. Otherwise the
check of the method answers, or else the first stage that fails, which blames the client unless a
body is too long or a field of the route rejects its value in another way. -/
theorem serve_inProcess_calls (service : Service) (cancel : Option Duration)
    (ht : ∀ t, limits.timeout = some t → t.hours < 10 ^ Deadline.digitLimit) :
    let e := route.serve limits (.inProcess service) captures r cancel
    e.calls.length ≤ 1 ∧
    (e.calls.length = 1 ↔ r.method = route.method ∧
      ∃ params m client, route.params captures = .ok params ∧
        route.decodeRequest limits.bodyLimit r params = .ok m ∧
        Deadline.ofHeaders r.headers = .ok client) ∧
    (∀ params m client, r.method = route.method → route.params captures = .ok params →
      route.decodeRequest limits.bodyLimit r params = .ok m →
      Deadline.ofHeaders r.headers = .ok client →
        ∃ metadata, CallMetadata r (Deadline.effective limits.timeout client) metadata ∧
          e.calls = [⟨rpc, m, metadata⟩]) ∧
    (r.method ≠ route.method → e.calls = [] ∧
      e.outcome = .response (methodNotAllowed [route.method]) ∧
      (methodNotAllowed [route.method]).status = 405) ∧
    (r.method = route.method → e.calls = [] →
      ∃ stage f, route.firstFailure? limits captures r = some (stage, f) ∧
        e.outcome = .response f.response ∧
        ((f.code = .invalidArgument ∧ f.response.status = 400) ∨
          (f.code = .resourceExhausted ∧ f.response.status = 429 ∧ stage = .source ∧
            route.source = .body ∧ limits.bodyLimit < r.body.size) ∨
          stage = .binding ∧ f.response.status = f.code.httpStatus ∧
            route.Rejects limits captures r f)) := by
  intro e
  by_cases hm : r.method = route.method
  · cases ho : route.order limits captures r with
    | error f =>
        have he : e = { outcome := .response f.response } := serve_of_order_error hm ho _ _
        have hno : ∀ params m client, route.params captures = .ok params →
            route.decodeRequest limits.bodyLimit r params = .ok m →
            ¬ Deadline.ofHeaders r.headers = .ok client := by
          intro params m client hp hd hc
          cases ho.symm.trans (order_of_decoded hp hd hc)
        obtain ⟨stage, hs⟩ := order_eq_error_iff.mp ho
        rw [he]
        refine ⟨by simp, iff_of_false (by simp) ?_, ?_, fun h => absurd hm h, ?_⟩
        · rintro ⟨_, params, m, client, hp, hd, hc⟩
          exact hno params m client hp hd hc
        · intro params m client _ hp hd hc
          exact absurd hc (hno params m client hp hd)
        · intro _ _
          exact ⟨stage, f, hs, rfl, failure?_status (failure?_of_firstFailure? hs)⟩
    | ok o =>
        obtain ⟨params, client, hp, hd, hc, hdl⟩ := order_eq_ok_iff.mp ho
        have hhours : ∀ d, o.deadline = some d → d.hours < 10 ^ Deadline.digitLimit := by
          rw [hdl]
          exact Deadline.hours_lt_of_effective ht (Deadline.hours_lt_of_ofHeaders hc)
        obtain ⟨metadata, hmd, hcalls⟩ :=
          @perform_inProcess_calls _ route r _ service cancel hhours
        have he : e.calls = [⟨rpc, o.message, metadata⟩] := by
          rw [← hcalls]
          exact congrArg Exchange.calls (serve_of_order_ok hm ho _ _)
        rw [he]
        refine ⟨by simp, iff_of_true (by simp) ⟨hm, params, o.message, client, hp, hd, hc⟩, ?_,
          fun h => absurd hm h, by simp⟩
        intro params' m' client' _ hp' hd' hc'
        cases hp.symm.trans hp'
        cases hd.symm.trans hd'
        cases hc.symm.trans hc'
        exact ⟨metadata, hdl ▸ hmd, rfl⟩
  · have he : e = { outcome := .response (methodNotAllowed [route.method]) } :=
      serve_of_method_ne hm _ _
    rw [he]
    refine ⟨by simp, iff_of_false (by simp) fun h => hm h.1, ?_, fun _ => ⟨rfl, rfl, rfl⟩,
      fun h => absurd h hm⟩
    intro _ _ _ h
    exact absurd h hm

/-- A change of an audit that is refused three times over: its body is too long and no message, and
its limit cannot be read. -/
def overfull : Request where
  method := .patch
  uri := ⟨none, Utf8.encode "/v1/audit/7", none⟩
  headers := [⟨Deadline.name, Utf8.encode "soon"⟩]
  body := ⟨[[0x7B, 0x7B, 0x7B]], none⟩

/-- The route of changes of audits. -/
def changes : CompiledRoute .auditUpdate :=
  ⟨.patch, ⟨[.literal "v1", .literal "audit", .variable "id"]⟩, .body, [.named .auditUpdate "id"],
    .message⟩

/-- The body that is too long is noticed first. -/
theorem serve_overfull :
    (∀ t, (some ⟨5000000000⟩ : Option Duration) = some t → t.hours < 10 ^ Deadline.digitLimit) ∧
    ∃ f : Failure, (changes.serve ⟨some ⟨5000000000⟩, 2⟩ (.inProcess .empty)
      (some [("id", [0x37])]) overfull none).outcome = .response f.response ∧
      f.code = .resourceExhausted := by
  have ht : ∀ t, (some ⟨5000000000⟩ : Option Duration) = some t →
      t.hours < 10 ^ Deadline.digitLimit := by
    intro t h
    cases h
    decide
  obtain ⟨stage, f, hs, ho, _⟩ := (@serve_inProcess_calls _ changes ⟨some ⟨5000000000⟩, 2⟩
    (some [("id", [0x37])]) overfull .empty none ht).2.2.2.2 rfl rfl
  have hfirst : (changes.firstFailure? ⟨some ⟨5000000000⟩, 2⟩ (some [("id", [0x37])]) overfull).map
      (fun p => p.2.code) = some .resourceExhausted := by decide
  rw [hs] at hfirst
  exact ⟨ht, f, ho, Option.some.inj hfirst⟩

/-- Readings of audits that take any identifier for a success. -/
def lenient : Route .auditRead :=
  { Bindings.auditRead with pathFields := [⟨"id", fun _ _ => .error ⟨.ok, "fine", none⟩⟩] }

set_option maxRecDepth 10000 in
/-- Not every refusal blames the client or a body that is too long, and what is written of the limit
that counts can be a shorter limit. -/
theorem not_blamed_nor_whole :
    (¬ ∀ (declared : Route .auditRead) route limits captures r service stage f,
      declared.compile = .ok route → limits.timeout = none → r.method = route.method →
      route.firstFailure? limits captures r = some (stage, f) →
      (route.serve limits (.inProcess service) captures r none).outcome = .response f.response →
        f.code = .invalidArgument ∨ f.code = .resourceExhausted) ∧
    ¬ ∀ (declared : Route .ping) route limits r service call d,
      declared.compile = .ok route → limits.timeout = some d →
      d.hours < 10 ^ Deadline.digitLimit → Deadline.ofHeaders r.headers = .ok none →
      (route.serve limits (.inProcess service) none r none).calls = [call] →
        Deadline.ofHeaders call.metadata = .ok (some d) := by
  constructor
  · intro h
    have hcode := h lenient _ {} (some [("id", [0x37])])
      { method := .get, uri := ⟨none, Utf8.encode "/v1/audit/7", none⟩ } .empty .binding
      ⟨.ok, "fine", none⟩ rfl rfl rfl rfl rfl
    revert hcode
    decide
  · intro h
    have hlimit := h Bindings.ping _ ⟨some ⟨100000500000000⟩, 0⟩
      { method := .get, uri := ⟨none, Utf8.encode "/ping", none⟩ } .empty _ ⟨100000500000000⟩
      rfl rfl (by decide) rfl rfl
    revert hlimit
    decide

end CompiledRoute

end RestGateway
