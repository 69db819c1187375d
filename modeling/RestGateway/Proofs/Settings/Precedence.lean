import RestGateway.Proofs.Settings.Sources
import RestGateway.Proofs.Toml.Keys

/-!
# Which source decides a field

The variable of a field decides it if it is set, else its entry in the file, else its default. An
entry for a field whose variable is set never counts, whether it has a reading or not. What is
loaded can be run with: it has an endpoint and room for bodies.
-/

namespace RestGateway

namespace Settings

/-- Settings that a server can run with. -/
structure IsRunnable (s : Settings) : Prop where
  /-- The endpoint is not blank. -/
  endpoint : ∃ c ∈ s.endpoint.toList, Text.isBlank c = false
  bodies : 0 < s.bodyLimit

/-- A limit is as long as a number of milliseconds says, where zero says that there is none. -/
def IsLimit (limit : Option Duration) (milliseconds : Nat) : Prop :=
  (limit = none ↔ milliseconds = 0) ∧ ∀ d, limit = some d → d.nanos = milliseconds * 1000000

/-- The variables that count are those of the fields, and none is set twice. -/
structure Environment.IsOrdinary (environment : Environment) : Prop where
  distinct : (environment.map Prod.fst).Nodup
  known : ∀ e ∈ environment, (∃ f : Field, e.1 = f.variableName) ∨ key? e.1 = none

theorem isLimit_limitOf (milliseconds : Nat) : IsLimit (limitOf milliseconds) milliseconds := by
  unfold limitOf
  split
  · rename_i hzero
    exact ⟨iff_of_true rfl hzero, nofun⟩
  · rename_i hpos
    exact ⟨iff_of_false nofun hpos, fun _ h => Option.some.inj h ▸ rfl⟩

theorem check_eq_ok_iff {s s' : Settings} : check s = .ok s' ↔ s = s' ∧ s'.IsRunnable := by
  have hendpoint : Text.isAllBlank s.endpoint = false ↔
      ∃ c ∈ s.endpoint.toList, Text.isBlank c = false := by
    simp only [Text.isAllBlank, List.all_eq_false, Bool.not_eq_true]
  unfold check
  split
  · rename_i hblank
    refine iff_of_false nofun ?_
    rintro ⟨rfl, hrun⟩
    exact Bool.false_ne_true ((hendpoint.mpr hrun.endpoint).symm.trans hblank)
  · rename_i hblank
    split
    · rename_i hzero
      refine iff_of_false nofun ?_
      rintro ⟨rfl, hrun⟩
      exact Nat.ne_of_gt hrun.bodies hzero
    · rename_i hpos
      constructor
      · intro h
        cases h
        exact ⟨rfl, hendpoint.mp (Bool.not_eq_true _ ▸ hblank), Nat.pos_of_ne_zero hpos⟩
      · rintro ⟨rfl, _⟩
        rfl

theorem ofSource_eq_ok_iff {source : Source} {s : Settings} :
    ofSource source = .ok s ↔ source.fits = true ∧ read source = .ok s ∧ s.IsRunnable := by
  unfold ofSource
  cases hfits : source.fits with
  | false => exact iff_of_false nofun nofun
  | true =>
      simp only [Bool.not_true, Bool.false_eq_true, if_false, true_and]
      rw [bind_eq_ok_iff]
      simp only [check_eq_ok_iff]
      constructor
      · rintro ⟨_, hread, rfl, hrun⟩
        exact ⟨hread, hrun⟩
      · rintro ⟨hread, hrun⟩
        exact ⟨s, hread, rfl, hrun⟩

section Keys

theorem Place.eq_nil_of_readSteps {fuel : Nat} {s : List Char}
    (h : readSteps fuel s = some []) : s = [] := by
  unfold readSteps at h
  split at h
  · rfl
  · cases h
  · simp at h
  · dsimp only at h
    split at h
    · obtain ⟨_, _, hsteps⟩ := Option.map_eq_some_iff.mp h
      cases hsteps
    · cases h
  · cases h

/-- A key that leads to no part of a setting is its name. -/
theorem Place.name_ofKey {key : String} (h : (ofKey key).steps = []) :
    (ofKey key).name = key := by
  unfold ofKey at h ⊢
  dsimp only at h ⊢
  split at h
  · rw [if_pos ‹_›]
  · rw [if_neg ‹_›]
    split at h
    · rename_i steps hsteps
      obtain rfl : steps = [] := h
      have hdrop := eq_nil_of_readSteps hsteps
      have hname : key.toList.takeWhile isNameChar = key.toList :=
        (List.takeWhile_prefix _).eq_of_length_le (List.drop_eq_nil_iff.mp hdrop)
      rw [hname, String.ofList_toList]
    · rfl

theorem Place.ofKey_name (f : Field) : ofKey f.name = ⟨f.name, []⟩ := by
  cases f <;> rfl

theorem Environment.key?_variableName (f : Field) : key? f.variableName = some f.name := by
  cases f <;> rfl

theorem Field.name_injective : Function.Injective Field.name := by
  intro f g h
  cases f <;> cases g <;> first | rfl | exact absurd h (by decide)

end Keys

section Deciding

variable {entries : Toml.Entries} {environment : Environment} {f : Field} {a : Assignment}

theorem Source.ofEntries_eq (entries : Toml.Entries) : ofEntries entries =
    entries.map fun e => ⟨Place.ofKey e.1, .ofToml e.2, some .file⟩ := by
  rw [ofEntries, ofPairs, List.map_map]
  rfl

theorem Source.mem_ofEntries_iff : a ∈ ofEntries entries ↔
    ∃ e ∈ entries, a = ⟨Place.ofKey e.1, .ofToml e.2, some .file⟩ := by
  rw [ofEntries_eq, List.mem_map]
  simp only [eq_comm]

theorem Source.entries_get?_eq_none (hd : entries.IsDistinct)
    (h : (ofEntries entries).last? f.name = none) : entries.get? f.name = none := by
  cases hget : entries.get? f.name with
  | none => rfl
  | some value =>
      have hmem := mem_ofEntries_iff.mpr ⟨_, hd.get?_eq_some_iff.mp hget, rfl⟩
      exact absurd (by rw [Place.ofKey_name]) (last?_eq_none_iff.mp h _ hmem)

/-- The last assignment of a whole field in the file is by the entry for it. -/
theorem Source.entries_get?_eq_some (hd : entries.IsDistinct)
    (h : (ofEntries entries).last? f.name = some a) (hsteps : a.place.steps = []) :
    (entries.get? f.name).map Given.ofToml = some a.outcome := by
  obtain ⟨hmem, hname⟩ := mem_of_last? h
  obtain ⟨⟨key, value⟩, hentry, rfl⟩ := mem_ofEntries_iff.mp hmem
  obtain rfl : key = f.name := (Place.name_ofKey hsteps).symm.trans hname
  rw [hd.get?_eq_some_iff.mpr hentry, Assignment.outcome, hsteps]
  rfl

theorem Environment.mem_source_iff : a ∈ environment.source ↔
    ∃ e ∈ environment, ∃ key, key? e.1 = some key ∧
      a = ⟨Place.ofKey key, .ofText e.2, some .environment⟩ := by
  simp only [source, Source.ofPairs, List.mem_map, List.mem_filterMap, Option.map_eq_some_iff]
  constructor
  · rintro ⟨_, ⟨e, he, key, hkey, rfl⟩, rfl⟩
    exact ⟨e, he, key, hkey, rfl⟩
  · rintro ⟨e, he, key, hkey, rfl⟩
    exact ⟨_, ⟨e, he, key, hkey, rfl⟩, rfl⟩

theorem Environment.IsOrdinary.lookup_eq_some_iff (henv : environment.IsOrdinary)
    {name text : String} :
    environment.lookup name = some text ↔ (name, text) ∈ environment := by
  have hmem : ∀ s, environment.lookup name = some s → (name, s) ∈ environment := by
    intro s h
    obtain ⟨before, after, heq, _⟩ := List.lookup_eq_some_iff.mp h
    rw [heq]
    exact List.mem_append_right before List.mem_cons_self
  refine ⟨hmem text, fun h => ?_⟩
  cases hlookup : environment.lookup name with
  | none => simpa using List.lookup_eq_none_iff.mp hlookup _ h
  | some other =>
      have heq := List.inj_on_of_nodup_map henv.distinct (hmem other hlookup) h rfl
      rw [(Prod.mk.inj heq).2]

/-- The last assignment of a field in the environment is that by its variable. -/
theorem Environment.IsOrdinary.last?_source (henv : environment.IsOrdinary) (f : Field) :
    environment.source.last? f.name = (environment.lookup f.variableName).map fun text =>
      ⟨⟨f.name, []⟩, ⟨.ofText text, some .environment⟩⟩ := by
  cases hlast : environment.source.last? f.name with
  | none =>
      cases hlookup : environment.lookup f.variableName with
      | none => rfl
      | some text =>
          have hmem := mem_source_iff.mpr
            ⟨_, henv.lookup_eq_some_iff.mp hlookup, f.name, key?_variableName f, rfl⟩
          exact absurd (by rw [Place.ofKey_name]) (Source.last?_eq_none_iff.mp hlast _ hmem)
  | some a =>
      obtain ⟨hmem, hname⟩ := Source.mem_of_last? hlast
      obtain ⟨⟨name, text⟩, he, key, hkey, rfl⟩ := mem_source_iff.mp hmem
      obtain ⟨g, rfl⟩ | hother := henv.known _ he
      · obtain rfl : g.name = key := Option.some.inj ((key?_variableName g).symm.trans hkey)
        rw [Place.ofKey_name] at hname ⊢
        obtain rfl : g = f := Field.name_injective hname
        rw [henv.lookup_eq_some_iff.mpr he, Option.map_some]
      · cases hkey.symm.trans hother

theorem Field.ofGiven?_eq_none {given : Given} (h : given = .table ∨ given = .sequence) :
    f.ofGiven? given = none := by
  obtain rfl | rfl := h <;> cases f <;> rfl

theorem Assignment.outcome_of_steps_ne (h : a.place.steps ≠ []) :
    a.outcome = .table ∨ a.outcome = .sequence := by
  unfold outcome
  split
  · exact absurd ‹_› h
  · exact .inl rfl
  · exact .inr rfl

/-- Where what comes last for a field has a reading, it is what the deciding source gives. -/
theorem resolve?_given?_of_last? (hd : entries.IsDistinct) (henv : environment.IsOrdinary)
    {v : f.Value}
    (h : f.resolve? (((Source.ofEntries entries ++ environment.source).last? f.name).map
      Assignment.outcome) = some v) : f.resolve? (f.given? entries environment) = some v := by
  rw [Source.last?_append, henv.last?_source] at h
  unfold Field.given?
  cases hlookup : environment.lookup f.variableName with
  | some text =>
      rw [hlookup] at h
      exact h
  | none =>
      rw [hlookup, Option.map_none, Option.none_or] at h
      cases hlast : (Source.ofEntries entries).last? f.name with
      | none =>
          rw [hlast] at h
          rw [Source.entries_get?_eq_none hd hlast]
          exact h
      | some a =>
          rw [hlast, Option.map_some] at h
          by_cases hsteps : a.place.steps = []
          · rw [← Source.entries_get?_eq_some hd hlast hsteps] at h
            exact h
          · have hnone := Field.ofGiven?_eq_none (f := f) (a.outcome_of_steps_ne hsteps)
            cases hnone.symm.trans h

end Deciding

section Loading

variable {entries : Toml.Entries} {environment : Environment} {file : Option String}

theorem isDistinct_of_entries? (h : entries? file = some entries) : entries.IsDistinct := by
  cases file with
  | none =>
      cases h
      exact List.nodup_nil
  | some text => exact Toml.isDistinct_of_parse? h

theorem load_text (text : String) (environment : Environment) :
    load (some text) environment = match Source.ofFile? text with
      | none => .error .file
      | some source => ofSource (source ++ environment.source) := by
  exact rfl

/-- A file counts by its entries only. -/
theorem load_of_entries? (h : entries? file = some entries) (environment : Environment) :
    load file environment = ofSource (Source.ofEntries entries ++ environment.source) := by
  cases file with
  | none =>
      cases h
      rfl
  | some text =>
      have hfile : Source.ofFile? text = some (Source.ofEntries entries) :=
        Option.map_eq_some_iff.mpr ⟨entries, h, rfl⟩
      rw [load_text, hfile]

theorem exists_entries_of_load {s : Settings} (h : load file environment = .ok s) :
    ∃ entries, entries? file = some entries := by
  cases file with
  | none => exact ⟨[], rfl⟩
  | some text =>
      cases hentries : entries? (some text) with
      | some entries => exact ⟨entries, rfl⟩
      | none =>
          have hfile : Source.ofFile? text = none := Option.map_eq_none_iff.mpr hentries
          rw [load_text, hfile] at h
          cases h

/-- Every field of settings that load has the value that the source which decides it gives. -/
theorem resolve?_given?_of_load (henv : environment.IsOrdinary) {s : Settings}
    (hentries : entries? file = some entries) (h : load file environment = .ok s) (f : Field) :
    f.resolve? (f.given? entries environment) = some (f.get s) := by
  rw [load_of_entries? hentries] at h
  obtain ⟨_, hread, _⟩ := ofSource_eq_ok_iff.mp h
  have hf := read_eq_ok_iff.mp hread f
  rw [Source.given_get?] at hf
  exact resolve?_given?_of_last? (isDistinct_of_entries? hentries) henv hf

end Loading

section Overridden

variable {entries : Toml.Entries} {environment : Environment}

theorem Environment.exists_of_overrides {key : String} (h : environment.overrides key = true) :
    ∃ f : Field, f.name = key ∧ ∃ text, environment.lookup f.variableName = some text := by
  obtain ⟨f, _, hf⟩ := List.any_eq_true.mp h
  obtain ⟨hname, hset⟩ := Bool.and_eq_true_iff.mp hf
  exact ⟨f, of_decide_eq_true hname, Option.isSome_iff_exists.mp hset⟩

/-- The entries that do not count would have fitted. -/
theorem Source.fits_kept (environment : Environment) (entries : Toml.Entries) :
    (ofEntries (environment.kept entries)).fits = (ofEntries entries).fits := by
  rw [fits, fits, ofEntries_eq, ofEntries_eq, List.all_map, List.all_map, Environment.kept,
    List.all_filter]
  refine congrArg entries.all (funext fun e => ?_)
  cases hkey : environment.overrides e.1 with
  | false => rfl
  | true =>
      obtain ⟨f, hf, _⟩ := Environment.exists_of_overrides hkey
      simp [← hf, Place.ofKey_name, Place.fits]

/-- For a field whose variable is not set, all the entries are kept. -/
theorem Source.filter_kept {f : Field} (h : environment.lookup f.variableName = none)
    (entries : Toml.Entries) :
    ((ofEntries (environment.kept entries)).filter fun a => a.place.name = f.name) =
      (ofEntries entries).filter fun a => a.place.name = f.name := by
  rw [ofEntries_eq, ofEntries_eq, List.filter_map, List.filter_map, Environment.kept,
    List.filter_filter]
  refine congrArg (List.map _) (List.filter_congr fun e _ => ?_)
  cases hkey : environment.overrides e.1 with
  | false => simp
  | true =>
      obtain ⟨g, hg, text, hset⟩ := Environment.exists_of_overrides hkey
      have hne : g.name ≠ f.name := by
        intro hname
        rw [Field.name_injective hname, h] at hset
        cases hset
      simp [← hg, Place.ofKey_name, hne]

theorem Given.ofText_ne_table (s : String) : ofText s ≠ .table := by
  unfold ofText
  dsimp only
  split
  · nofun
  · split
    · nofun
    · split
      · nofun
      · split <;> nofun

/-- A field whose variable is set has the setting that this gives, whatever is in the file. -/
theorem get?_of_lookup (henv : environment.IsOrdinary) {f : Field} {text : String}
    (h : environment.lookup f.variableName = some text) (source : Source) :
    (source ++ environment.source).get? f.name = some ⟨.ofText text, some .environment⟩ := by
  have hlast : (source ++ environment.source).last? f.name =
      some ⟨⟨f.name, []⟩, ⟨.ofText text, some .environment⟩⟩ := by
    rw [Source.last?_append, henv.last?_source, h]
    rfl
  exact Source.get?_of_last? hlast rfl (Given.ofText_ne_table text)

theorem ofSource_congr {source other : Source} (hfits : source.fits = other.fits)
    (hread : read source = read other) : ofSource source = ofSource other := by
  rw [ofSource, ofSource, hfits, hread]

/-- Entries for fields whose variables are set make no difference. -/
theorem ofSource_kept (henv : environment.IsOrdinary) (entries : Toml.Entries) :
    ofSource (Source.ofEntries (environment.kept entries) ++ environment.source) =
      ofSource (Source.ofEntries entries ++ environment.source) := by
  refine ofSource_congr ?_ (read_congr fun f => ?_)
  · have hfits := Source.fits_kept environment entries
    rw [Source.fits, Source.fits, List.all_append, List.all_append]
    exact congrArg (· && environment.source.fits) hfits
  · cases hlookup : environment.lookup f.variableName with
    | some text => rw [get?_of_lookup henv hlookup, get?_of_lookup henv hlookup]
    | none =>
        refine Source.get?_congr ?_
        rw [List.filter_append, List.filter_append, Source.filter_kept hlookup]

end Overridden

/-- Settings that load have for each field what its variable gives if that is set, else what its
entry gives, else the default, and a server can run with them. So a field depends on what decides it
only, and an entry for a field whose variable is set does not count, whatever it is. -/
theorem load_decides {environment : Environment} (henv : environment.IsOrdinary) :
    (∀ file s, load file environment = .ok s →
      (∃ entries, entries? file = some entries ∧
        ∀ f : Field, f.resolve? (f.given? entries environment) = some (f.get s)) ∧
      s.IsRunnable ∧ IsLimit s.requestLimit s.requestTimeout ∧
        IsLimit s.connectLimit s.connectTimeout) ∧
    (∀ file file' entries entries' environment' s s', ∀ f : Field, environment'.IsOrdinary →
      entries? file = some entries → entries? file' = some entries' →
      load file environment = .ok s → load file' environment' = .ok s' →
      f.given? entries environment = f.given? entries' environment' → f.get s = f.get s') ∧
    (∀ file file' entries entries',
      entries? file = some entries → entries? file' = some entries' →
      environment.kept entries = environment.kept entries' →
      load file environment = load file' environment) := by
  refine ⟨?_, ?_, ?_⟩
  · intro file s hload
    obtain ⟨entries, hentries⟩ := exists_entries_of_load hload
    have hsource := hload
    rw [load_of_entries? hentries] at hsource
    obtain ⟨_, _, hrun⟩ := ofSource_eq_ok_iff.mp hsource
    exact ⟨⟨entries, hentries, resolve?_given?_of_load henv hentries hload⟩, hrun,
      isLimit_limitOf s.requestTimeout, isLimit_limitOf s.connectTimeout⟩
  · intro file file' entries entries' environment' s s' f henv' hentries hentries' hload hload' heq
    have hf := resolve?_given?_of_load henv hentries hload f
    have hf' := resolve?_given?_of_load henv' hentries' hload' f
    rw [heq, hf'] at hf
    exact (Option.some.inj hf).symm
  · intro file file' entries entries' hentries hentries' hkept
    calc load file environment
        = ofSource (Source.ofEntries (environment.kept entries) ++ environment.source) := by
          rw [load_of_entries? hentries, ofSource_kept henv]
      _ = ofSource (Source.ofEntries (environment.kept entries') ++ environment.source) := by
          rw [hkept]
      _ = load file' environment := by
          rw [load_of_entries? hentries', ofSource_kept henv]

/-- An environment that has a limit for bodies. -/
def roomEnvironment : Environment := [("HOME", "/"), ("SSO_GATEWAY__MAX_BODY_BYTES", "1024")]

/-- A file whose entry for the limit of bodies is no number. -/
def wordyFile : String := "endpoint = 'http://sso:7042'\nmax_body_bytes = 'many'"

/-- The entry that is no number does not count where the variable is set. -/
theorem load_wordyFile : roomEnvironment.IsOrdinary ∧
    ∃ s : Settings, load (some wordyFile) roomEnvironment = .ok s ∧
      s = { endpoint := "http://sso:7042", bodyLimit := 1024 } ∧ s.IsRunnable ∧
      ∃ entries, entries? (some wordyFile) = some entries ∧
        ∀ f : Field, f.resolve? (f.given? entries roomEnvironment) = some (f.get s) := by
  have henv : roomEnvironment.IsOrdinary := by
    refine ⟨by decide +kernel, fun e he => ?_⟩
    obtain rfl | rfl : e = ("HOME", "/") ∨ e = ("SSO_GATEWAY__MAX_BODY_BYTES", "1024") := by
      simpa [roomEnvironment] using he
    · exact .inr (by decide +kernel)
    · exact .inl ⟨.bodyLimit, rfl⟩
  have hvalue : (load (some wordyFile) roomEnvironment).toOption =
      some { endpoint := "http://sso:7042", bodyLimit := 1024 } := by decide +kernel
  cases hload : load (some wordyFile) roomEnvironment with
  | error fault =>
      rw [hload] at hvalue
      cases hvalue
  | ok s =>
      rw [hload] at hvalue
      obtain ⟨hfields, hrun, _⟩ := (load_decides henv).1 _ s hload
      exact ⟨henv, s, rfl, Option.some.inj hvalue, hrun, hfields⟩

end Settings

end RestGateway
