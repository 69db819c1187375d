import RestGateway.Metadata.Forward
import RestGateway.Proofs.Header.Values

/-!
# Metadata under a start

Metadata is put on a response with a start in front of each name. Behind the start every name that
is forwarded has all of its values in order, and nothing else gets a name with this start, so
metadata under different starts is kept apart. A name that gets too long with the start is dropped.
-/

namespace RestGateway

namespace Header

theorem name?_eq_self_iff {s : String} :
    name? s = some s ↔ (s.toList.all isNameChar = true ∧ s ≠ "" ∧ s.length < 65536) ∧
      s.toList.map Char.toLower = s.toList := by
  have hcond : (s.toList.all isNameChar && s != "" && s.length < 65536) = true ↔
      s.toList.all isNameChar = true ∧ s ≠ "" ∧ s.length < 65536 := by
    simp only [Bool.and_eq_true, bne_iff_ne, decide_eq_true_eq, and_assoc]
  have hlower : String.ofList (s.toList.map Char.toLower) = s ↔
      s.toList.map Char.toLower = s.toList := by
    constructor
    · intro h
      simpa using congrArg String.toList h
    · intro h
      rw [h, String.ofList_toList]
  by_cases h : s.toList.all isNameChar = true ∧ s ≠ "" ∧ s.length < 65536
  · rw [name?, if_pos (hcond.mpr h), Option.some_inj, hlower]
    exact (and_iff_right h).symm
  · rw [name?, if_neg (fun hc => h (hcond.mp hc))]
    exact iff_of_false (Option.some_ne_none s).symm fun hboth => h hboth.1

/-- A name behind another one is a name unless it is too long. -/
theorem name?_append_eq {start rest : String} (hstart : name? start = some start)
    (hrest : name? rest = some rest) :
    name? (start ++ rest) =
      if start.length + rest.length < 65536 then some (start ++ rest) else none := by
  obtain ⟨⟨hchars, hne, _⟩, hlower⟩ := name?_eq_self_iff.mp hstart
  obtain ⟨⟨hchars', _, _⟩, hlower'⟩ := name?_eq_self_iff.mp hrest
  have hboth : (start ++ rest).toList.all isNameChar = true := by
    rw [String.toList_append, List.all_append, hchars, hchars', Bool.and_self]
  split
  · rename_i hlt
    refine name?_eq_self_iff.mpr ⟨⟨hboth, ?_, by rwa [String.length_append]⟩, ?_⟩
    · intro hempty
      exact hne (String.append_eq_empty_iff.mp hempty).1
    · rw [String.toList_append, List.map_append, hlower, hlower']
  · rename_i hlt
    rw [← String.length_append] at hlt
    exact if_neg fun hcond => hlt (by simpa using (Bool.and_eq_true_iff.mp hcond).2)

/-- Behind starts of which neither starts with the other nothing is the same. -/
theorem append_ne_append {start start' : String} (h : ¬ start.toList <+: start'.toList)
    (h' : ¬ start'.toList <+: start.toList) (rest rest' : String) :
    start ++ rest ≠ start' ++ rest' := by
  intro heq
  have hlists := congrArg String.toList heq
  rw [String.toList_append, String.toList_append] at hlists
  rcases List.prefix_or_prefix_of_prefix (List.prefix_append start.toList rest.toList)
    (hlists ▸ List.prefix_append start'.toList rest'.toList) with hp | hp
  · exact h hp
  · exact h' hp

end Header

namespace Metadata

variable {start : String} {metadata headers : Headers} {h : Header}

/-- Header fields carry metadata under a start. Each name that is forwarded has all of its values
in order behind the start, if that makes a name, and no other field has this start. -/
structure CarriedUnder (start : String) (metadata headers : Headers) : Prop where
  values : ∀ key, isForwardable key = true → (Header.name? (start ++ key)).isSome = true →
    headers.values (start ++ key) = metadata.values key
  source : ∀ h ∈ headers, ∀ key, h.name = start ++ key →
    isForwardable key = true ∧ ⟨key, h.value⟩ ∈ metadata

/-- What is forwarded of a field is its value behind the start, if that makes a name. -/
theorem forwarded_singleton (hstart : Header.name? start = some start)
    (hh : Header.name? h.name = some h.name) :
    forwarded start [h] =
      if isForwardable h.name = true ∧ (Header.name? (start ++ h.name)).isSome = true then
        [⟨start ++ h.name, h.value⟩] else [] := by
  have hname := Header.name?_append_eq hstart hh
  by_cases hf : isForwardable h.name = true
  · by_cases hlt : start.length + h.name.length < 65536 <;> simp [forwarded, hname, hf, hlt]
  · simp [forwarded, hf]

theorem forwarded_cons (start : String) (h : Header) (metadata : Headers) :
    forwarded start (h :: metadata) = forwarded start [h] ++ forwarded start metadata :=
  List.filterMap_append (l := [h])

/-- What is forwarded comes from metadata under the name behind the start. -/
theorem exists_of_mem_forwarded (hstart : Header.name? start = some start)
    (hmetadata : metadata.IsNamed) (hh : h ∈ forwarded start metadata) :
    ∃ key, h.name = start ++ key ∧ isForwardable key = true ∧ ⟨key, h.value⟩ ∈ metadata := by
  obtain ⟨x, hx, hgives⟩ := List.mem_filterMap.mp hh
  have hmem : h ∈ forwarded start [x] :=
    List.mem_filterMap.mpr ⟨x, List.mem_singleton_self x, hgives⟩
  rw [forwarded_singleton hstart (hmetadata x hx)] at hmem
  split at hmem
  · rename_i hcond
    cases List.mem_singleton.mp hmem
    exact ⟨x.name, rfl, hcond.1, hx⟩
  · cases hmem

/-- What is forwarded has no name without the start. -/
theorem name_ne_of_mem_forwarded (hstart : Header.name? start = some start)
    (hmetadata : metadata.IsNamed) (hh : h ∈ forwarded start metadata) {other : String}
    (hother : ∀ key, other ≠ start ++ key) : h.name ≠ other := by
  obtain ⟨key, hkey, _⟩ := exists_of_mem_forwarded hstart hmetadata hh
  rw [hkey]
  exact (hother key).symm

/-- Behind the start a name has the values that it has in the metadata, or none at all. -/
theorem values_forwarded (hstart : Header.name? start = some start)
    (hmetadata : metadata.IsNamed) (key : String) :
    (forwarded start metadata).values (start ++ key) =
      if isForwardable key = true ∧ (Header.name? (start ++ key)).isSome = true then
        metadata.values key else [] := by
  induction metadata with
  | nil =>
      split <;> rfl
  | cons x rest ih =>
      have hx := forwarded_singleton hstart (hmetadata x List.mem_cons_self)
      have hrest := ih fun h hh => hmetadata h (List.mem_cons_of_mem x hh)
      have hsplit : Headers.values (x :: rest) key =
          (if x.name = key then [x.value] else []) ++ Headers.values rest key := by
        rw [← Headers.values_singleton, ← Headers.values_append]
        rfl
      rw [forwarded_cons, Headers.values_append, hrest, hx, hsplit]
      by_cases hname : x.name = key
      · subst hname
        split
        · rw [Headers.values_singleton, if_pos rfl, if_pos rfl]
        · rfl
      · have hne : start ++ x.name ≠ start ++ key := fun heq =>
          hname ((String.append_right_inj _).mp heq)
        have hnone : Headers.values (if isForwardable x.name = true ∧
            (Header.name? (start ++ x.name)).isSome = true then [⟨start ++ x.name, x.value⟩]
              else []) (start ++ key) = [] := by
          split
          · rw [Headers.values_singleton, if_neg hne]
          · rfl
        rw [hnone, if_neg hname]
        rfl

/-- Fields that carry metadata among others without their start. -/
theorem carriedUnder_of_append {before after : Headers}
    (hstart : Header.name? start = some start) (hmetadata : metadata.IsNamed)
    (hbefore : ∀ h ∈ before, ∀ key, h.name ≠ start ++ key)
    (hafter : ∀ h ∈ after, ∀ key, h.name ≠ start ++ key) :
    CarriedUnder start metadata (before ++ forwarded start metadata ++ after) := by
  constructor
  · intro key hforwardable hname
    rw [Headers.values_append, Headers.values_append, values_forwarded hstart hmetadata,
      Headers.values_eq_nil fun h hh => hbefore h hh key,
      Headers.values_eq_nil fun h hh => hafter h hh key, if_pos ⟨hforwardable, hname⟩,
      List.nil_append, List.append_nil]
  · intro h hh key hkey
    rcases List.mem_append.mp hh with hh | hh
    · rcases List.mem_append.mp hh with hh | hh
      · exact absurd hkey (hbefore h hh key)
      · obtain ⟨key', hkey', hforwardable, hmem⟩ := exists_of_mem_forwarded hstart hmetadata hh
        obtain rfl : key' = key := (String.append_right_inj _).mp (hkey'.symm.trans hkey)
        exact ⟨hforwardable, hmem⟩
    · exact absurd hkey (hafter h hh key)

end Metadata

end RestGateway
