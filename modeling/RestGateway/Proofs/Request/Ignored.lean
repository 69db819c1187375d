import RestGateway.Proofs.Query.Ignored
import RestGateway.Proofs.Route.Registration
import RestGateway.Proofs.Template.Text
import RestGateway.Request.Decode

/-!
# Pairs that count for nothing to a route

The names that a route filters are the variables of its template. They are made of letters, digits
and underscores, so keys are rooted at them, and every pair rooted at one counts for nothing.
-/

namespace RestGateway

namespace Template

/-- A segment in braces holds a name. -/
theorem isName_of_readSegment {position : Nat} {piece : List Char} {name : String}
    (h : readSegment position piece = .ok (.variable name)) : isName name.toList = true := by
  unfold readSegment at h
  dsimp only at h
  split at h
  · cases h
  · split at h
    · cases h
    · split at h
      · split at h
        · rename_i hname
          cases h
          rw [String.toList_ofList]
          exact (Bool.and_eq_true _ _ ▸ hname).2
        · cases h
      · split at h
        · cases h
        · cases h

theorem isName_of_readSegments {position : Nat} {seen : List String} {ps : List (List Char)}
    {segments : List Segment} (h : readSegments position seen ps = .ok segments) :
    ∀ name ∈ Template.variables ⟨segments⟩, isName name.toList = true := by
  induction ps generalizing position seen segments with
  | nil =>
      cases h
      exact fun _ hname => absurd hname List.not_mem_nil
  | cons piece rest ih =>
      obtain ⟨first, others, hfirst, hrest, rfl, _⟩ := readSegments_cons_eq_ok h
      intro name hname
      rw [variables_cons] at hname
      rcases List.mem_append.mp hname with hname | hname
      · rcases first with s | other
        · exact absurd hname List.not_mem_nil
        · cases List.mem_singleton.mp hname
          exact isName_of_readSegment hfirst
      · exact ih hrest name hname

/-- The variables of a template are names. -/
theorem isName_of_parse {s : String} {t : Template} (h : parse s = .ok t) :
    ∀ name ∈ t.variables, isName name.toList = true := by
  unfold parse at h
  split at h
  · rename_i rest _
    split at h
    · cases h
      exact fun _ hname => absurd hname List.not_mem_nil
    · cases hr : readSegments 0 [] (pieces '/' rest) with
      | error f =>
          rw [hr] at h
          cases h
      | ok segments =>
          rw [hr] at h
          cases h
          exact isName_of_readSegments hr
  · cases h

/-- No name holds the byte of a character that names are not made of. -/
theorem not_mem_encode_of_isName {name : String} (h : isName name.toList = true) {b : UInt8}
    (hb : b < 0x80) (hchar : (Char.ofNat b.toNat).isAlphanum = false)
    (hunderscore : b ≠ 0x5F) : b ∉ Utf8.encode name := by
  have hall : ∀ c ∈ name.toList, c.isAlphanum = true ∨ c = '_' := by
    cases hlist : name.toList with
    | nil => exact fun _ hc => absurd hc List.not_mem_nil
    | cons c cs =>
        rw [hlist] at h
        have hfirst : c.isAlphanum = true ∨ c = '_' := by
          simp only [isName, Bool.and_eq_true, Bool.or_eq_true, beq_iff_eq] at h
          exact h.1.imp_left fun halpha => by simp [Char.isAlphanum, halpha]
        have hrest : ∀ c ∈ cs, c.isAlphanum = true ∨ c = '_' := by
          simp only [isName, Bool.and_eq_true, List.all_eq_true, Bool.or_eq_true, beq_iff_eq] at h
          exact h.2
        exact List.forall_mem_cons.mpr ⟨hfirst, hrest⟩
  intro hmem
  rw [Utf8.encode_eq_flatMap] at hmem
  obtain ⟨c, hc, hmem⟩ := List.mem_flatMap.mp hmem
  have hascii : c.toNat < 0x80 := by
    by_contra hge
    exact absurd (Utf8.le_of_mem_encodeChar (Nat.not_lt.mp hge) hmem) (UInt8.not_le.mpr hb)
  rw [Utf8.encodeChar_of_lt hascii] at hmem
  have hbyte : b.toNat = c.toNat := by
    rw [List.mem_singleton.mp hmem]
    exact UInt8.toNat_ofNat_of_lt' (Nat.lt_trans hascii (by decide))
  rcases hall c hc with halphanum | rfl
  · rw [hbyte, Char.ofNat_toNat, halphanum] at hchar
    cases hchar
  · exact hunderscore (UInt8.toNat_inj.mp hbyte)

/-- Keys are rooted at the variables of a template. -/
theorem isRoot_of_parse {s : String} {t : Template} (h : parse s = .ok t) :
    ∀ name ∈ t.variables, Query.IsRoot (Utf8.encode name) := by
  intro name hname
  have hletters := isName_of_parse h name hname
  constructor
  · exact not_mem_encode_of_isName hletters (by decide) (by decide) (by decide)
  · exact not_mem_encode_of_isName hletters (by decide) (by decide) (by decide)

end Template

variable {rpc : Rpc} {route : CompiledRoute rpc}

/-- A route that reads its message from the query reads the same with and without empty pairs and
pairs with good escapes and a key rooted at a variable of the path. -/
theorem Route.decodeSource_ignores {r₀ : Route rpc} (hc : r₀.compile = .ok route)
    (hsource : route.source = .query) {limit : Nat} {r r' : Request}
    (h : Query.SameBut (Query.Ignored route.template.variables)
      (pieces 0x26 (r.uri.query.getD [])) (pieces 0x26 (r'.uri.query.getD []))) :
    route.decodeSource limit r = route.decodeSource limit r' := by
  obtain ⟨_, template, hparse, rfl⟩ := Route.exists_template_of_compile hc
  have hnames : ∀ name ∈ template.variables, Utf8.encode name ∈ template.variables.map Utf8.encode ∧
      Query.IsRoot (Utf8.encode name) :=
    fun name hname => ⟨List.mem_map_of_mem hname, Template.isRoot_of_parse hparse name hname⟩
  have hquery := Query.SameBut.decodeQuery_eq rpc.Request h hnames
  rw [CompiledRoute.decodeSource, CompiledRoute.decodeSource, hsource]
  exact hquery

end RestGateway
