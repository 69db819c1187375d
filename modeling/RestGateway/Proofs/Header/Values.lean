import Mathlib.Data.List.Nodup
import Mathlib.Data.List.Perm.Basic
import RestGateway.Header

/-!
# The values of a name

A name of header fields has its values in order, whatever stands between them. Every operation on
header fields is described by what it does to the values of each name.
-/

namespace RestGateway

namespace Header

theorem name?_eq_some {s name : String} (h : name? s = some name) :
    name = String.ofList (s.toList.map Char.toLower) := by
  unfold name? at h
  split at h
  · exact (Option.some.inj h).symm
  · cases h

/-- What stands behind the start of a name in small letters is in small letters. -/
theorem name?_append {start rest name : String} (h : name? (start ++ rest) = some (start ++ rest))
    (hrest : name? rest = some name) : name = rest := by
  have hlower : start.toList ++ rest.toList =
      start.toList.map Char.toLower ++ rest.toList.map Char.toLower := by
    have hself := congrArg String.toList (name?_eq_some h)
    rwa [String.toList_ofList, String.toList_append, List.map_append] at hself
  have htail : rest.toList = rest.toList.map Char.toLower :=
    List.append_inj_right hlower (List.length_map _).symm
  rw [name?_eq_some hrest, ← htail, String.ofList_toList]

theorem stripStart?_eq_some_iff {start s rest : String} :
    stripStart? start s = some rest ↔ s = start ++ rest := by
  unfold stripStart?
  constructor
  · intro h
    split at h
    · rename_i hstart
      obtain ⟨tail, htail⟩ := List.isPrefixOf_iff_prefix.mp hstart
      cases h
      apply String.toList_injective
      rw [String.toList_append, String.toList_ofList, ← htail, String.length_toList.symm,
        List.drop_left]
    · cases h
  · rintro rfl
    have hstart : start.toList.isPrefixOf (start ++ rest).toList = true := by
      rw [String.toList_append, List.isPrefixOf_iff_prefix]
      exact List.prefix_append _ _
    rw [if_pos hstart, String.toList_append, String.length_toList.symm, List.drop_left,
      String.ofList_toList]

theorem startsWith_iff {start s : String} :
    startsWith start s = true ↔ ∃ rest, s = start ++ rest := by
  rw [startsWith, List.isPrefixOf_iff_prefix]
  constructor
  · rintro ⟨rest, hrest⟩
    refine ⟨String.ofList rest, String.toList_injective ?_⟩
    rw [String.toList_append, String.toList_ofList, hrest]
  · rintro ⟨rest, rfl⟩
    rw [String.toList_append]
    exact List.prefix_append _ _

/-- A text without the start is none with it. -/
theorem ne_append {start s : String} (h : ¬ start.toList <+: s.toList) (rest : String) :
    s ≠ start ++ rest := by
  rintro rfl
  apply h
  rw [String.toList_append]
  exact List.prefix_append _ _

end Header

namespace Headers

/-- All names are names, in small letters. -/
def IsNamed (headers : Headers) : Prop := ∀ h ∈ headers, Header.name? h.name = some h.name

instance (headers : Headers) : Decidable headers.IsNamed :=
  inferInstanceAs (Decidable (∀ h ∈ headers, Header.name? h.name = some h.name))

variable {headers more : Headers} {name other : String}

theorem values_eq_nil (h : ∀ x ∈ headers, x.name ≠ name) : headers.values name = [] :=
  List.filterMap_eq_nil_iff.mpr fun x hx => if_neg (h x hx)

theorem get?_eq_none (h : ∀ x ∈ headers, x.name ≠ name) : headers.get? name = none := by
  rw [get?, values_eq_nil h]
  rfl

theorem values_eq_flatMap (headers : Headers) (name : String) :
    headers.values name = headers.flatMap fun h => if h.name = name then [h.value] else [] := by
  rw [values, List.filterMap_eq_flatMap_toList]
  congr 1
  funext h
  split <;> rfl

theorem values_singleton (field name : String) (value : Bytes) :
    Headers.values [⟨field, value⟩] name = if field = name then [value] else [] := by
  rw [values_eq_flatMap, List.flatMap_singleton]

theorem values_append (headers more : Headers) (name : String) :
    (headers ++ more).values name = headers.values name ++ more.values name :=
  List.filterMap_append

theorem values_flatMap {α : Type} (items : List α) (f : α → Headers) (name : String) :
    Headers.values (items.flatMap f) name = items.flatMap fun a => (f a).values name :=
  List.filterMap_flatMap

/-- Fields that are left out take their values with them and nothing else. -/
theorem values_filter_sublist (headers : Headers) (p : Header → Bool) (name : String) :
    (Headers.values (headers.filter p) name).Sublist (headers.values name) :=
  List.filter_sublist.filterMap _

/-- A name keeps its values if its fields are kept. -/
theorem values_filter {p : Header → Bool} (h : ∀ x ∈ headers, x.name = name → p x = true) :
    Headers.values (headers.filter p) name = headers.values name := by
  rw [values, List.filterMap_filter]
  apply List.filterMap_congr
  intro x hx
  by_cases hname : x.name = name
  · simp [hname, h x hx hname]
  · simp [hname]

theorem values_erase_self (headers : Headers) (name : String) :
    (headers.erase name).values name = [] :=
  values_eq_nil fun _ hx => of_decide_eq_true (List.mem_filter.mp hx).2

theorem values_erase_of_ne (h : other ≠ name) :
    (headers.erase name).values other = headers.values other :=
  values_filter fun _ _ hx => decide_eq_true (hx ▸ h)

/-- A value that is set is the only one. -/
theorem values_set_self (headers : Headers) (name : String) (value : Bytes) :
    (headers.set name value).values name = [value] := by
  rw [set, append, values_append, values_erase_self]
  simp [values]

theorem values_set_of_ne (h : other ≠ name) (value : Bytes) :
    (headers.set name value).values other = headers.values other := by
  rw [set, append, values_append, values_erase_of_ne h]
  simp [values, h.symm]

theorem get?_set_self (headers : Headers) (name : String) (value : Bytes) :
    (headers.set name value).get? name = some value := by
  rw [get?, values_set_self]
  rfl

/-- Induction on what is left of a list when its first item is left out wherever it stands. -/
@[elab_as_elim]
theorem filter_induction {α : Type} [DecidableEq α] {motive : List α → Prop} (nil : motive [])
    (cons : ∀ a rest, motive (rest.filter fun b => !b == a) → motive (a :: rest))
    (items : List α) : motive items := by
  match items with
  | [] => exact nil
  | a :: rest => exact cons a rest (filter_induction nil cons (rest.filter fun b => !b == a))
termination_by items.length
decreasing_by
  exact Nat.lt_succ_of_le (List.length_filter_le _ rest)

section

variable {α β : Type} [DecidableEq α]

/-- Each item of a list stands once among its different items. -/
theorem flatMap_eraseDups_ite (items : List α) (a : α) (found : List β) :
    (items.eraseDups.flatMap fun b => if b = a then found else []) =
      if a ∈ items then found else [] := by
  induction items using filter_induction with
  | nil => rfl
  | cons b rest ih =>
      rw [List.eraseDups_cons, List.flatMap_cons, ih]
      by_cases hb : b = a
      · simp [hb]
      · have hab : a ≠ b := Ne.symm hb
        simp [hb, hab]

theorem nodup_eraseDups (items : List α) : items.eraseDups.Nodup := by
  induction items using filter_induction with
  | nil => exact List.nodup_nil
  | cons a rest ih =>
      rw [List.eraseDups_cons, List.nodup_cons]
      refine ⟨fun hmem => ?_, ih⟩
      simpa using List.mem_eraseDups.mp hmem

/-- What is left out of a list is left out of its different items. -/
theorem eraseDups_filter (p : α → Bool) (items : List α) :
    (items.filter p).eraseDups = items.eraseDups.filter p := by
  induction items using filter_induction with
  | nil => rfl
  | cons a rest ih =>
      rw [List.eraseDups_cons]
      by_cases ha : p a = true
      · rw [List.filter_cons_of_pos ha, List.filter_cons_of_pos ha, List.eraseDups_cons, ← ih,
          List.filter_comm]
      · have hout : (rest.filter fun b => !b == a).filter p = rest.filter p := by
          rw [List.filter_filter]
          refine List.filter_congr fun b _ => ?_
          by_cases hb : b = a <;> simp [hb, ha]
        rw [List.filter_cons_of_neg ha, List.filter_cons_of_neg ha, ← ih, hout]

end

theorem flatMap_filter {α β : Type} (items : List α) (p : α → Bool) (f : α → List β) :
    (items.filter p).flatMap f = items.flatMap fun a => if p a then f a else [] := by
  induction items with
  | nil => rfl
  | cons a rest ih => by_cases h : p a = true <;> simp [h, ih]

theorem mem_of_mem_grouped {h : Header} (hm : h ∈ headers.grouped) : h ∈ headers := by
  obtain ⟨_, _, hx⟩ := List.mem_flatMap.mp hm
  exact (List.mem_filter.mp hx).1

/-- Putting the fields of each name together leaves the values of a name as they were. -/
theorem values_grouped (headers : Headers) (name : String) :
    headers.grouped.values name = headers.values name := by
  have hname : ∀ n, Headers.values (headers.filter fun h => h.name = n) name =
      if n = name then headers.values name else [] := by
    intro n
    split
    · rename_i heq
      exact values_filter fun _ _ hx => decide_eq_true (hx.trans heq.symm)
    · rename_i hne
      apply values_eq_nil
      intro x hx heq
      exact hne ((of_decide_eq_true (List.mem_filter.mp hx).2).symm.trans heq)
  rw [grouped, values_flatMap]
  simp only [hname, flatMap_eraseDups_ite]
  split
  · rfl
  · rename_i hnone
    symm
    apply values_eq_nil
    intro x hx heq
    exact hnone (List.mem_map.mpr ⟨x, hx, heq⟩)

/-- Names that are left out before their fields are put together leave the others as they are. -/
theorem grouped_filter (headers : Headers) (p : String → Bool) :
    Headers.grouped (headers.filter fun h => p h.name) =
      headers.grouped.filter fun h => p h.name := by
  have hnames : (headers.filter fun h => p h.name).map Header.name =
      (headers.map Header.name).filter p := by
    rw [List.filter_map]
    rfl
  rw [grouped, grouped, hnames, eraseDups_filter, flatMap_filter, List.filter_flatMap]
  apply List.flatMap_congr
  intro name _
  rw [List.filter_filter, List.filter_filter]
  split
  · rename_i hp
    refine List.filter_congr fun h _ => ?_
    by_cases hname : h.name = name <;> simp [hname, hp]
  · rename_i hp
    refine (List.filter_eq_nil_iff.mpr fun h _ => ?_).symm
    by_cases hname : h.name = name <;> simp [hname, hp]

/-- The values of some names follow each other name by name, in some order of the names. -/
theorem exists_order_of_grouped (headers : Headers) {names : List String} (hn : names.Nodup) :
    ∃ order : List String, order.Perm names ∧
      (headers.grouped.flatMap fun h => if h.name ∈ names then [h.value] else []) =
        order.flatMap headers.values := by
  let present := (headers.map Header.name).eraseDups
  -- Names that no header has give nothing, wherever they stand.
  let absent := names.filter fun name => name ∉ present
  have habsent : ∀ name ∈ absent, headers.values name = [] := by
    intro name hname
    refine values_eq_nil fun h hh heq => ?_
    have hmissing : name ∉ present := by simpa using (List.mem_filter.mp hname).2
    exact hmissing (List.mem_eraseDups.mpr (List.mem_map.mpr ⟨h, hh, heq⟩))
  have hgroup : ∀ name, ((headers.filter fun h => h.name = name).flatMap fun h =>
      if h.name ∈ names then [h.value] else []) =
        if name ∈ names then headers.values name else [] := by
    intro name
    rw [flatMap_filter, values_eq_flatMap]
    split
    · apply List.flatMap_congr
      intro h _
      by_cases heq : h.name = name <;> simp [*]
    · refine List.flatMap_eq_nil_iff.mpr fun h _ => ?_
      by_cases heq : h.name = name <;> simp [*]
  refine ⟨(present.filter fun name => name ∈ names) ++ absent, ?_, ?_⟩
  · have hnodup : ((present.filter fun name => name ∈ names) ++ absent).Nodup := by
      refine ((nodup_eraseDups _).filter _).append (hn.filter _) fun name hp ha => ?_
      have hmissing : name ∉ present := by simpa using (List.mem_filter.mp ha).2
      exact hmissing (List.mem_filter.mp hp).1
    refine (List.perm_ext_iff_of_nodup hnodup hn).mpr fun name => ?_
    simp only [absent, List.mem_append, List.mem_filter, decide_eq_true_eq]
    tauto
  · rw [List.flatMap_append, List.flatMap_eq_nil_iff.mpr habsent, List.append_nil, grouped,
      List.flatMap_assoc, flatMap_filter]
    simp only [hgroup, decide_eq_true_eq]
    rfl

end Headers

end RestGateway
