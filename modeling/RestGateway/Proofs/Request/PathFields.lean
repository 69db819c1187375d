import RestGateway.Proofs.Message.Fields
import RestGateway.Proofs.Route.Variables

/-!
# Fields that the path of a request decides

A path field that assigns one field of the message puts what it reads from its variable there,
whatever stood in it before. Where several path fields assign different fields, the path alone
decides these fields, and the query or the body alone decides the others.
-/

namespace RestGateway

open Message (Position FieldValue AgreeOutside field setField)

/-- A path field that assigns one field of a message: the name of its variable, the position of the
field, and how the value is read. -/
structure Assignment (α : Type) [Message α] where
  name : String
  position : Position α
  read : String → Except Failure (FieldValue α position)

namespace Assignment

variable {α : Type} [Message α]

/-- The path field of an assignment. -/
def pathField (a : Assignment α) : PathField α :=
  ⟨a.name, fun m value => (a.read value).map (setField a.position m)⟩

variable {params : Params}

/-- An assignment looks up its variable, reads its value and sets its field. -/
theorem bindPath_cons (a : Assignment α) (m : α) (fields : List (PathField α)) :
    bindPath params m (a.pathField :: fields) =
      match params.get? a.name with
      | none => .error (.invalidArgument s!"missing parameter {a.name}")
      | some value =>
        match a.read value with
        | .error f => .error f
        | .ok v => bindPath params (setField a.position m v) fields := by
  rw [bindPath]
  simp only [pathField]
  cases params.get? a.name with
  | none => rfl
  | some value =>
      dsimp only
      cases a.read value <;> rfl

/-- Assigned fields hold what is read from their variables, and the others are left as they were. -/
theorem field_of_bindPath {as : List (Assignment α)} (has : (as.map position).Nodup) {m m' : α}
    (h : bindPath params m (as.map pathField) = .ok m') :
    (∀ a ∈ as, ∃ value, params.get? a.name = some value ∧
      a.read value = .ok (field m' a.position)) ∧
    AgreeOutside (as.map position) m' m := by
  induction as generalizing m with
  | nil =>
      cases h
      exact ⟨fun a ha => absurd ha List.not_mem_nil, fun _ _ => rfl⟩
  | cons a as ih =>
      rw [List.map_cons, List.nodup_cons] at has
      rw [List.map_cons, bindPath_cons] at h
      cases hvalue : params.get? a.name with
      | none => simp only [hvalue] at h; cases h
      | some value =>
          cases hv : a.read value with
          | error f => simp only [hvalue, hv] at h; cases h
          | ok v =>
              simp only [hvalue, hv] at h
              obtain ⟨hread, hagree⟩ := ih has.2 h
              constructor
              · intro b hb
                rcases List.mem_cons.mp hb with rfl | hb
                · -- No later assignment changes the field again.
                  have hfield : field m' b.position = v := by
                    rw [hagree _ has.1, Message.field_setField_self]
                  exact ⟨value, hvalue, by rw [hfield, hv]⟩
                · exact hread b hb
              · intro i hi
                rw [List.map_cons, List.mem_cons, not_or] at hi
                rw [hagree i hi.2, Message.field_setField_of_ne hi.1]

/-- What the assigned fields held before does not matter. -/
theorem bindPath_congr {as : List (Assignment α)} {m m' : α}
    (h : AgreeOutside (as.map position) m m') :
    bindPath params m (as.map pathField) = bindPath params m' (as.map pathField) := by
  induction as generalizing m m' with
  | nil => rw [Message.eq_of_agreeOutside_nil h]
  | cons a as ih =>
      rw [List.map_cons, bindPath_cons, bindPath_cons]
      cases params.get? a.name with
      | none => rfl
      | some value =>
          dsimp only
          cases a.read value with
          | error f => rfl
          | ok v => exact ih (h.setField v)

/-- The assignment of a value of another type, which is written into the field. -/
def ofParsed {β : Type} (name : String) (parse : String → Except Failure β) (i : Position α)
    (write : β → FieldValue α i) : Assignment α :=
  ⟨name, i, fun value => (parse value).map write⟩

theorem pathField_ofParsed {β : Type} {name : String} {parse : String → Except Failure β}
    {i : Position α} {write : β → FieldValue α i} {set : α → β → α}
    (hset : ∀ m b, set m b = setField i m (write b)) :
    (⟨name, fun m value => (parse value).map (set m)⟩ : PathField α) =
      (ofParsed name parse i write).pathField := by
  unfold pathField ofParsed
  congr 1
  funext m value
  change (parse value).map (set m) = ((parse value).map write).map (setField i m)
  cases parse value with
  | error f => rfl
  | ok b => exact congrArg Except.ok (hset m b)

end Assignment

namespace PathField

/-- A path field assigns one field of the message. -/
def Assigns {α : Type} [Message α] (f : PathField α) : Prop :=
  ∃ a : Assignment α, f = a.pathField

variable {α : Type} [Message α] {name : String}

theorem ofText_assigns {set : α → String → α} (i : Position α) (write : String → FieldValue α i)
    (hset : ∀ m s, set m s = setField i m (write s)) : (ofText name set).Assigns :=
  ⟨_, Assignment.pathField_ofParsed hset⟩

theorem ofInteger_assigns {set : α → Int64 → α} (i : Position α) (write : Int64 → FieldValue α i)
    (hset : ∀ m n, set m n = setField i m (write n)) : (ofInteger name set).Assigns :=
  ⟨_, Assignment.pathField_ofParsed fun m n => hset m (Int64.ofInt n)⟩

/-- The path fields that request messages have by name assign one field each, and a name without a
field assigns none. -/
theorem named_assigns (rpc : Rpc) (name : String) :
    (named rpc name).Assigns ∨ named rpc name = ignored name := by
  unfold named
  split
  · exact Or.inl (ofText_assigns ⟨0, by decide⟩ id fun _ _ => rfl)
  · exact Or.inl (ofText_assigns ⟨0, by decide⟩ id fun _ _ => rfl)
  · exact Or.inl (ofText_assigns ⟨2, by decide⟩ some fun _ _ => rfl)
  · exact Or.inl (ofText_assigns ⟨0, by decide⟩ id fun _ _ => rfl)
  · exact Or.inl (ofText_assigns ⟨1, by decide⟩ some fun _ _ => rfl)
  · exact Or.inl (ofInteger_assigns ⟨2, by decide⟩ some fun _ _ => rfl)
  · exact Or.inl (ofText_assigns ⟨4, by decide⟩ some fun _ _ => rfl)
  · exact Or.inl (ofText_assigns ⟨6, by decide⟩ some fun _ _ => rfl)
  · exact Or.inr rfl

end PathField

namespace CompiledRoute

variable {rpc : Rpc} {route : CompiledRoute rpc} {limit : Nat} {r : Request} {params : Params}

/-- A message is decoded in two steps. -/
theorem decodeRequest_of_source {m₀ : rpc.Request} (h : route.decodeSource limit r = .ok m₀) :
    route.decodeRequest limit r params = bindPath params m₀ route.pathFields := by
  rw [decodeRequest, h]

theorem exists_source_of_decodeRequest {m : rpc.Request}
    (h : route.decodeRequest limit r params = .ok m) :
    ∃ m₀, route.decodeSource limit r = .ok m₀ ∧ bindPath params m₀ route.pathFields = .ok m := by
  cases hs : route.decodeSource limit r with
  | error f => rw [decodeRequest, hs] at h; cases h
  | ok m₀ => exact ⟨m₀, rfl, decodeRequest_of_source hs ▸ h⟩

/-- Where the path fields of a route assign different fields, the message of a request holds in them
what is read from the values that the path gives, and what its query or its body gives elsewhere. -/
theorem Takes.fields_eq {as : List (Assignment rpc.Request)}
    (has : route.pathFields = as.map Assignment.pathField)
    (hfields : (as.map Assignment.position).Nodup) (htakes : route.Takes r params) {m : rpc.Request}
    (hm : route.decodeRequest limit r params = .ok m) :
    (∀ a ∈ as, ∃ value, route.template.Gives r.uri.path a.name value ∧
      a.read value = .ok (field m a.position)) ∧
    ∃ m₀, route.decodeSource limit r = .ok m₀ ∧
      AgreeOutside (as.map Assignment.position) m m₀ := by
  obtain ⟨m₀, hsource, hbind⟩ := exists_source_of_decodeRequest hm
  rw [has] at hbind
  obtain ⟨hread, hagree⟩ := Assignment.field_of_bindPath hfields hbind
  refine ⟨?_, m₀, hsource, hagree⟩
  intro a ha
  obtain ⟨value, hget, hv⟩ := hread a ha
  exact ⟨value, htakes.gives hget, hv⟩

/-- Where the path fields of a route assign different fields of the message, the path alone decides
what these fields hold, and all others hold what the query or the body alone gives. So two requests
with the same path lead to the same message if what they say elsewhere differs in assigned fields
only, and whatever they say elsewhere, they never lead to messages that differ in an assigned
field. -/
theorem decodeRequest_separates {r₀ : Route rpc} (hc : r₀.compile = .ok route)
    {as : List (Assignment rpc.Request)} (has : route.pathFields = as.map Assignment.pathField)
    (hfields : (as.map Assignment.position).Nodup) (limit : Nat) :
    (∀ r params m, route.Takes r params → route.decodeRequest limit r params = .ok m →
      (∀ a ∈ as, ∃ value, route.template.Gives r.uri.path a.name value ∧
        a.read value = .ok (field m a.position)) ∧
      ∃ m₀, route.decodeSource limit r = .ok m₀ ∧
        AgreeOutside (as.map Assignment.position) m m₀) ∧
    (∀ r r' params params', route.Takes r params → route.Takes r' params' →
      r.uri.path = r'.uri.path →
      (∀ m₀ m₀', route.decodeSource limit r = .ok m₀ → route.decodeSource limit r' = .ok m₀' →
        AgreeOutside (as.map Assignment.position) m₀ m₀' →
          route.decodeRequest limit r params = route.decodeRequest limit r' params') ∧
      ∀ m m', route.decodeRequest limit r params = .ok m →
        route.decodeRequest limit r' params' = .ok m' →
          ∀ a ∈ as, field m a.position = field m' a.position) := by
  constructor
  · intro r params m htakes hm
    exact htakes.fields_eq has hfields hm
  · intro r r' params params' htakes htakes' hpath
    constructor
    · intro m₀ m₀' hsource hsource' hagree
      obtain rfl := htakes.params_eq hc htakes' hpath
      rw [decodeRequest_of_source hsource, decodeRequest_of_source hsource', has]
      exact Assignment.bindPath_congr hagree
    · intro m m' hm hm' a ha
      obtain ⟨value, hvalue, hv⟩ := (htakes.fields_eq has hfields hm).1 a ha
      obtain ⟨value', hvalue', hv'⟩ := (htakes'.fields_eq has hfields hm').1 a ha
      -- The path gives one value to a variable, so both messages hold what is read from it.
      rw [← hpath] at hvalue'
      obtain rfl := hvalue.unique (Route.compile_eq_ok hc).2.2 hvalue'
      exact Except.ok.inj (hv.symm.trans hv')

/-- A change of an audit whose path decides the status, too. -/
def closing : Route .auditUpdate where
  method := .patch
  template := "/v1/\x7bstatus\x7d/\x7bid\x7d"
  source := .body
  pathFields := [.named .auditUpdate "id", .named .auditUpdate "status"]

/-- The change as it is served. -/
def closed : CompiledRoute .auditUpdate :=
  ⟨.patch, ⟨[.literal "v1", .variable "status", .variable "id"]⟩, .body, closing.pathFields,
    .message⟩

/-- What the path of the change assigns. -/
def closedFields : List (Assignment Message.AuditUpdateRequest) :=
  [.ofParsed "id" (pathValue PathValue.text "id") ⟨0, by decide⟩ id,
    .ofParsed "status" (pathValue PathValue.text "status") ⟨2, by decide⟩ some]

/-- A request for the change with a body. -/
def closingRequest (body : String) : Request where
  method := .patch
  uri := ⟨none, Utf8.encode "/v1/closed/a%2Fb", none⟩
  body := ⟨[Utf8.encode body], none⟩

set_option maxRecDepth 8000 in
/-- An identifier in the body does not get past the one in the path. -/
theorem decodeRequest_closing :
    closing.compile = .ok closed ∧ closed.pathFields = closedFields.map Assignment.pathField ∧
    (closedFields.map Assignment.position).Nodup ∧
    ∃ params, closed.Takes (closingRequest "\x7b\"id\":\"9\"\x7d") params ∧
      closed.Takes (closingRequest "") params ∧
      closed.decodeRequest 64 (closingRequest "\x7b\"id\":\"9\"\x7d") params =
        closed.decodeRequest 64 (closingRequest "") params ∧
      closed.decodeRequest 64 (closingRequest "") params =
        .ok { id := "a/b", status := some "closed" } := by
  have hc : closing.compile = .ok closed := rfl
  have has : closed.pathFields = closedFields.map Assignment.pathField := by
    apply congrArg₂ List.cons
    · exact Assignment.pathField_ofParsed fun _ _ => rfl
    · apply congrArg₂ List.cons
      · exact Assignment.pathField_ofParsed fun _ _ => rfl
      · rfl
  have hfields : (closedFields.map Assignment.position).Nodup := by decide
  have htakes : ∀ body,
      closed.Takes (closingRequest body) [("status", "closed"), ("id", "a/b")] := by
    intro body
    have hpieces : List.Forall₂ Segment.Matches closed.template.segments
        [Utf8.encode "v1", Utf8.encode "closed", Utf8.encode "a%2Fb"] :=
      .cons rfl (.cons (List.cons_ne_nil _ _) (.cons (List.cons_ne_nil _ _) .nil))
    exact ⟨_, ⟨rfl, by decide, hpieces⟩, rfl⟩
  refine ⟨hc, has, hfields, _, htakes _, htakes _, ?_, rfl⟩
  have hsame := ((decodeRequest_separates hc has hfields 64).2 _ _ _ _
    (htakes "\x7b\"id\":\"9\"\x7d") (htakes "") rfl).1
  apply hsame { id := "9" } {} rfl rfl
  rintro ⟨_ | i, hi⟩ hne
  · exact absurd List.mem_cons_self hne
  · rfl

end CompiledRoute

end RestGateway
