import Mathlib.Data.List.Induction
import RestGateway.Settings.Field

/-!
# The assignment that decides

Of the assignments of a name the last one decides what is given for it, and settings are read if
what is given for each field has a reading as a value of it. What becomes a table or a sequence,
because a part of it is assigned, has none.
-/

namespace RestGateway.Settings

/-- What an assignment gives for its name. -/
def Assignment.outcome (a : Assignment) : Given :=
  match a.place.steps with
  | [] => a.setting.given
  | .entry :: _ => .table
  | .item _ :: _ => .sequence

/-- The last assignment of a name. -/
def Source.last? (source : Source) (name : String) : Option Assignment :=
  source.reverse.find? fun a => a.place.name = name

theorem Assignment.outcome_eq (a : Assignment) (old : Option Setting) :
    (a.setting.assign a.place.steps old).given = a.outcome := by
  obtain ⟨⟨name, steps⟩, given, origin⟩ := a
  match steps with
  | [] => cases given <;> rfl
  | .entry :: _ => rfl
  | .item _ :: _ =>
      simp only [Setting.assign, outcome]
      split <;> rfl

namespace Source

variable {source more : Source} {name : String} {a : Assignment}

theorem get?_concat (source : Source) (a : Assignment) (name : String) :
    get? (source ++ [a]) name =
      if a.place.name = name then some (a.setting.assign a.place.steps (source.get? name))
      else source.get? name := by
  rw [get?, List.foldl_append]
  rfl

theorem last?_concat (source : Source) (a : Assignment) (name : String) :
    last? (source ++ [a]) name = if a.place.name = name then some a else source.last? name := by
  rw [last?, List.reverse_concat, List.find?_cons]
  by_cases h : a.place.name = name <;> simp [h, last?]

theorem last?_append (source more : Source) (name : String) :
    last? (source ++ more) name = (more.last? name).or (source.last? name) := by
  rw [last?, List.reverse_append, List.find?_append]
  rfl

theorem mem_of_last? (h : source.last? name = some a) : a ∈ source ∧ a.place.name = name := by
  have hfound := List.find?_some (p := fun a : Assignment => decide (a.place.name = name)) h
  exact ⟨List.mem_reverse.mp (List.mem_of_find?_eq_some h), of_decide_eq_true hfound⟩

theorem last?_eq_none_iff : source.last? name = none ↔ ∀ a ∈ source, a.place.name ≠ name := by
  simp [last?]

/-- What is given for a name is what its last assignment gives. -/
theorem given_get? (source : Source) (name : String) :
    (source.get? name).map Setting.given = (source.last? name).map Assignment.outcome := by
  induction source using List.reverseRecOn with
  | nil => rfl
  | append_singleton source a ih =>
      rw [get?_concat, last?_concat]
      split
      · rw [Option.map_some, Option.map_some, a.outcome_eq]
      · exact ih

/-- A last assignment of a whole name is its setting, whatever was assigned before. -/
theorem get?_of_last? (h : source.last? name = some a) (hsteps : a.place.steps = [])
    (hgiven : a.setting.given ≠ .table) : source.get? name = some a.setting := by
  induction source using List.reverseRecOn with
  | nil => cases h
  | append_singleton source last ih =>
      rw [last?_concat] at h
      rw [get?_concat]
      split at h
      · rename_i hname
        cases h
        rw [if_pos hname, hsteps, Setting.assign]
        split
        · rename_i htable
          exact absurd htable hgiven
        · rfl
      · rename_i hname
        rw [if_neg hname, ih h]

/-- Only assignments of a name count for its setting. -/
theorem get?_congr {other : Source}
    (h : (source.filter fun a => a.place.name = name) = other.filter fun a => a.place.name = name) :
    source.get? name = other.get? name := by
  have hfilter : ∀ s : Source, s.get? name = (s.filter fun a => a.place.name = name).foldl
      (fun old a => some (a.setting.assign a.place.steps old)) none := by
    intro s
    rw [List.foldl_filter, get?]
    simp only [decide_eq_true_eq]
  rw [hfilter, hfilter, h]

end Source

section Reading

variable {source other : Source} {s : Settings}

theorem text_eq_ok_iff {name default value : String} :
    text source name default = .ok value ↔
      (match (source.get? name).map Setting.given with
        | none => some default
        | some given => given.toText?) = some value := by
  unfold text
  cases source.get? name with
  | none => simp
  | some setting => cases h : setting.given.toText? <;> simp [h]

theorem number_eq_ok_iff {name : String} {default value : Nat} :
    number source name default = .ok value ↔
      (match (source.get? name).map Setting.given with
        | none => some default
        | some given => given.toNatural.toOption) = some value := by
  unfold number
  cases source.get? name with
  | none => simp
  | some setting => cases h : setting.given.toNatural <;> simp [h, Except.toOption]

theorem address_eq_ok_iff {name : String} {default value : Address} :
    address source name default = .ok value ↔
      (match (source.get? name).map Setting.given with
        | none => some default
        | some given => given.toText?.bind fun s => Address.parse? (Utf8.encode s)) =
          some value := by
  unfold address
  cases source.get? name with
  | none => simp
  | some setting =>
      cases h : setting.given.toText? with
      | none => simp [h]
      | some text => cases ha : Address.parse? (Utf8.encode text) <;> simp [h, ha]

theorem bind_eq_ok_iff {α β : Type} {x : Except Fault α} {next : α → Except Fault β} {b : β} :
    x >>= next = .ok b ↔ ∃ a, x = .ok a ∧ next a = .ok b := by
  cases x with
  | error f => exact iff_of_false nofun nofun
  | ok a => exact ⟨fun h => ⟨a, rfl, h⟩, fun ⟨_, ha, h⟩ => Except.ok.inj ha ▸ h⟩

/-- Settings are read exactly if every field has a value, and then every field has this value. -/
theorem read_eq_ok_iff : read source = .ok s ↔
    ∀ f : Field, f.resolve? ((source.get? f.name).map Setting.given) = some (f.get s) := by
  simp only [read, bind_eq_ok_iff, address_eq_ok_iff, text_eq_ok_iff, number_eq_ok_iff]
  constructor
  · rintro ⟨_, hlisten, _, hendpoint, _, hrequest, _, hconnect, _, hbody, _, hlog, heq⟩ f
    cases heq
    cases f with
    | listen => exact hlisten
    | endpoint => exact hendpoint
    | requestTimeout => exact hrequest
    | connectTimeout => exact hconnect
    | bodyLimit => exact hbody
    | logLevel => exact hlog
  · intro h
    exact ⟨_, h .listen, _, h .endpoint, _, h .requestTimeout, _, h .connectTimeout, _,
      h .bodyLimit, _, h .logLevel, rfl⟩

/-- What is read depends on the settings of the names of the fields only. -/
theorem read_congr (h : ∀ f : Field, source.get? f.name = other.get? f.name) :
    read source = read other := by
  have hlisten : source.get? "listen_addr" = other.get? "listen_addr" := h .listen
  have hendpoint : source.get? "endpoint" = other.get? "endpoint" := h .endpoint
  have hrequest : source.get? "request_timeout_ms" = other.get? "request_timeout_ms" :=
    h .requestTimeout
  have hconnect : source.get? "connect_timeout_ms" = other.get? "connect_timeout_ms" :=
    h .connectTimeout
  have hbody : source.get? "max_body_bytes" = other.get? "max_body_bytes" := h .bodyLimit
  have hlog : source.get? "log_level" = other.get? "log_level" := h .logLevel
  simp only [read, address, text, number, hlisten, hendpoint, hrequest, hconnect, hbody, hlog]

end Reading

end RestGateway.Settings
