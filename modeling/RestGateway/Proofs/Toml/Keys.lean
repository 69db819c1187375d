import Mathlib.Data.List.Nodup
import RestGateway.Toml.Document

/-!
# The keys of a document

Every step of reading a document puts a value in the place of a key that is there, or adds a key
that is not. So no key of a document comes twice, and the value of a key is that of its only entry.
-/

namespace RestGateway.Toml

namespace Entries

/-- No key comes twice. -/
def IsDistinct (entries : Entries) : Prop := (entries.map Prod.fst).Nodup

variable {entries entries' : Entries} {key : String} {value : Value}

theorem any_key_iff : (entries.any fun e => e.1 = key) = true ↔ key ∈ entries.map Prod.fst := by
  simp

theorem put_keys_of_mem (h : key ∈ entries.map Prod.fst) :
    (entries.put key value).map Prod.fst = entries.map Prod.fst := by
  rw [put, if_pos (any_key_iff.mpr h), List.map_map]
  refine List.map_congr_left fun e _ => ?_
  by_cases he : e.1 = key <;> simp [he]

theorem put_of_not_mem (h : key ∉ entries.map Prod.fst) :
    entries.put key value = entries ++ [(key, value)] :=
  if_neg (mt any_key_iff.mp h)

/-- A key that is not there is added once. -/
theorem IsDistinct.concat (hd : entries.IsDistinct) (h : key ∉ entries.map Prod.fst) :
    IsDistinct (entries ++ [(key, value)]) := by
  rw [IsDistinct, List.map_append, List.nodup_append]
  refine ⟨hd, List.nodup_singleton key, ?_⟩
  rintro other hother _ hkey rfl
  rw [List.mem_singleton.mp hkey] at hother
  exact h hother

theorem IsDistinct.put (hd : entries.IsDistinct) (key : String) (value : Value) :
    (entries.put key value).IsDistinct := by
  by_cases h : key ∈ entries.map Prod.fst
  · rw [IsDistinct, put_keys_of_mem h]
    exact hd
  · rw [put_of_not_mem h]
    exact hd.concat h

theorem IsDistinct.insert? (hd : entries.IsDistinct)
    (h : entries.insert? key value = some entries') : entries'.IsDistinct := by
  unfold Entries.insert? at h
  split at h
  · cases h
  · rename_i hnew
    cases h
    exact hd.concat (mt any_key_iff.mpr hnew)

theorem IsDistinct.insertUnder? (hd : entries.IsDistinct) {path : List String}
    (h : insertUnder? key value path entries = some entries') : entries'.IsDistinct := by
  cases path with
  | nil => exact hd.insert? h
  | cons step path =>
      unfold Entries.insertUnder? at h
      split at h
      · obtain ⟨sub, _, rfl⟩ := Option.map_eq_some_iff.mp h
        exact hd.put _ _
      · split at h
        · obtain ⟨sub, _, rfl⟩ := Option.map_eq_some_iff.mp h
          exact hd.put _ _
        · cases h
      · split at h
        · cases h
        · obtain ⟨sub, _, rfl⟩ := Option.map_eq_some_iff.mp h
          exact hd.put _ _
      · cases h

/-- A change below the top puts a table in its place. -/
theorem IsDistinct.changeAt (hd : entries.IsDistinct) {change : Entries → Option Entries}
    (hchange : ∀ changed, change entries = some changed → changed.IsDistinct) {path : List String}
    (h : changeAt change path entries = some entries') : entries'.IsDistinct := by
  cases path with
  | nil => exact hchange _ h
  | cons step path =>
      unfold Entries.changeAt at h
      split at h
      · obtain ⟨sub, _, rfl⟩ := Option.map_eq_some_iff.mp h
        exact hd.put _ _
      · split at h
        · cases h
        · obtain ⟨sub, _, rfl⟩ := Option.map_eq_some_iff.mp h
          exact hd.put _ _
      · obtain ⟨sub, _, rfl⟩ := Option.map_eq_some_iff.mp h
        exact hd.put _ _
      · cases h

theorem IsDistinct.openTable (hd : entries.IsDistinct)
    (h : openTable key entries = some entries') : entries'.IsDistinct := by
  unfold Entries.openTable at h
  split at h
  · cases h
    exact hd.put _ _
  · cases h
    exact hd.put _ _
  · cases h

theorem IsDistinct.openNext (hd : entries.IsDistinct)
    (h : openNext key entries = some entries') : entries'.IsDistinct := by
  unfold Entries.openNext at h
  split at h
  · cases h
    exact hd.put _ _
  · cases h
    exact hd.put _ _
  · cases h

/-- The value of a key is that of its entry. -/
theorem IsDistinct.get?_eq_some_iff (hd : entries.IsDistinct) :
    entries.get? key = some value ↔ (key, value) ∈ entries := by
  induction entries with
  | nil => exact iff_of_false nofun List.not_mem_nil
  | cons e entries ih =>
      obtain ⟨k, v⟩ := e
      obtain ⟨hnew, hd⟩ := List.nodup_cons.mp hd
      rw [List.mem_cons, ← ih hd]
      by_cases hk : k = key
      · subst hk
        have hnone : get? entries k ≠ some value := fun hmem =>
          hnew (List.mem_map.mpr ⟨(k, value), (ih hd).mp hmem, rfl⟩)
        rw [or_iff_left hnone]
        simp [get?, eq_comm]
      · simp [get?, hk, Ne.symm hk]

end Entries

variable {p p' : Progress} {s rest : List Char}

theorem isDistinct_of_readHeader (hd : p.entries.IsDistinct)
    (h : readHeader p s = some (p', rest)) : p'.entries.IsDistinct := by
  have hopen : ∀ (several : Bool) last changed,
      (if several = true then Entries.openNext last else Entries.openTable last) p.entries =
        some changed → changed.IsDistinct := by
    intro several last changed h
    cases several with
    | true => exact hd.openNext h
    | false => exact hd.openTable h
  simp only [readHeader, Option.bind_eq_bind, Option.bind_eq_some_iff] at h
  obtain ⟨_, _, _, _, h⟩ := h
  split at h
  · obtain ⟨_, _, h⟩ := Option.bind_eq_some_iff.mp h
    obtain ⟨entries, hentries, heq⟩ := Option.bind_eq_some_iff.mp h
    cases heq
    exact hd.changeAt (hopen _ _) hentries
  · obtain ⟨entries, hentries, heq⟩ := Option.bind_eq_some_iff.mp h
    cases heq
    exact hd.changeAt (hopen _ _) hentries

theorem isDistinct_of_readEntry (hd : p.entries.IsDistinct)
    (h : readEntry p s = some (p', rest)) : p'.entries.IsDistinct := by
  simp only [readEntry, Option.bind_eq_bind, Option.bind_eq_some_iff] at h
  obtain ⟨_, _, _, _, _, _, entries, hentries, heq⟩ := h
  cases heq
  exact hd.changeAt (fun _ => hd.insertUnder?) hentries

theorem isDistinct_of_readDocument {fuel : Nat} {entries : Entries} (hd : p.entries.IsDistinct)
    (h : readDocument p fuel s = some entries) : entries.IsDistinct := by
  induction fuel generalizing p s with
  | zero => cases h
  | succ fuel ih =>
      unfold readDocument at h
      split at h
      · cases h
        exact hd
      · simp only [Option.bind_eq_bind] at h
        split at h <;> obtain ⟨line, hline, h⟩ := Option.bind_eq_some_iff.mp h
        on_goal 1 => have hdistinct := isDistinct_of_readHeader hd hline
        on_goal 2 => have hdistinct := isDistinct_of_readEntry hd hline
        -- What is behind a line, be it a header or an entry, is read with what the line led to.
        all_goals
          split at h
          · cases h
            exact hdistinct
          · obtain ⟨_, _, h⟩ := Option.bind_eq_some_iff.mp h
            exact ih hdistinct h

/-- No key of a document comes twice. -/
theorem isDistinct_of_parse? {text : String} {entries : Entries} (h : parse? text = some entries) :
    entries.IsDistinct :=
  isDistinct_of_readDocument (p := {}) List.nodup_nil h

end RestGateway.Toml
