import RestGateway.Proofs.Query.Checks

/-!
# Pairs that count for nothing

Empty pairs and pairs with a filtered key, wherever they stand in a query and however often they
come, change neither the message nor the refusal. The pair that is refused sees the same earlier
keys, and what is decoded is joined from the same pairs.
-/

namespace RestGateway

namespace Query

/-- A name without the bytes that a root ends at. -/
def IsRoot (root : Bytes) : Prop := 0x2E ∉ root ∧ 0x5B ∉ root

instance (root : Bytes) : Decidable (IsRoot root) := inferInstanceAs (Decidable (_ ∧ _))

/-- A key is a name, or goes on behind the name with a point or a bracket. -/
inductive RootedAt (root : Bytes) : Bytes → Prop
  | self : RootedAt root root
  | point (rest : Bytes) : RootedAt root (root ++ 0x2E :: rest)
  | bracket (rest : Bytes) : RootedAt root (root ++ 0x5B :: rest)

/-- A pair that is empty, or has good escapes and a key rooted at one of the names. -/
inductive Ignored (names : List String) : Bytes → Prop
  | empty : Ignored names []
  | rooted {name : String} {p : Bytes} (hname : name ∈ names) (hescaped : Percent.IsEscaped p)
      (hkey : RootedAt (Utf8.encode name) (keyOf p)) : Ignored names p

/-- Two lists of pairs are the same up to pairs that count for nothing, on either side. -/
inductive SameBut (Nothing : Bytes → Prop) : List Bytes → List Bytes → Prop
  | nil : SameBut Nothing [] []
  | both {ps qs : List Bytes} (p : Bytes) (h : SameBut Nothing ps qs) :
      SameBut Nothing (p :: ps) (p :: qs)
  | left {ps qs : List Bytes} {p : Bytes} (hp : Nothing p) (h : SameBut Nothing ps qs) :
      SameBut Nothing (p :: ps) qs
  | right {ps qs : List Bytes} {q : Bytes} (hq : Nothing q) (h : SameBut Nothing ps qs) :
      SameBut Nothing ps (q :: qs)

variable {filter seen ps qs : List Bytes} {p root key : Bytes}

theorem rootOf_append_of_isRoot (h : IsRoot root) (rest : Bytes) :
    rootOf (root ++ rest) = root ++ rootOf rest := by
  apply List.takeWhile_append_of_pos
  intro b hb
  have hpoint : b ≠ 0x2E := fun heq => h.1 (heq ▸ hb)
  have hbracket : b ≠ 0x5B := fun heq => h.2 (heq ▸ hb)
  simp [hpoint, hbracket]

theorem RootedAt.rootOf_eq (h : RootedAt root key) (hroot : IsRoot root) : rootOf key = root := by
  have hnothing : rootOf root = root ++ rootOf [] := by
    have happend := rootOf_append_of_isRoot hroot []
    rwa [List.append_nil] at happend
  cases h with
  | self => exact hnothing.trans (List.append_nil root)
  | point rest | bracket rest =>
      rw [rootOf_append_of_isRoot hroot]
      exact List.append_nil root

/-- A filtered pair with good escapes is dropped. -/
theorem keep_cons_of_rooted (hescaped : Percent.IsEscaped p) (hroot : rootOf (keyOf p) ∈ filter) :
    keep filter seen (p :: ps) = keep filter seen ps := by
  have hnone := Percent.badEscape?_eq_none_iff.mpr hescaped
  simp [keep, hnone, hroot]

/-- The checks on pairs without the empty ones. -/
theorem keep_filter_cons_of_ignored {names : List String} (h : Ignored names p)
    (hnames : ∀ name ∈ names, Utf8.encode name ∈ filter ∧ IsRoot (Utf8.encode name)) :
    keep filter seen ((p :: ps).filter fun pair => !pair.isEmpty) =
      keep filter seen (ps.filter fun pair => !pair.isEmpty) := by
  cases h with
  | empty => rfl
  | @rooted name p hname hescaped hkey =>
      obtain ⟨hfilter, hroot⟩ := hnames name hname
      rw [← hkey.rootOf_eq hroot] at hfilter
      cases p with
      | nil => rfl
      | cons b p => exact keep_cons_of_rooted hescaped hfilter

/-- What is kept, or refused, is the same with and without pairs that count for nothing. -/
theorem SameBut.keep_eq {names : List String} (h : SameBut (Ignored names) ps qs)
    (hnames : ∀ name ∈ names, Utf8.encode name ∈ filter ∧ IsRoot (Utf8.encode name)) :
    keep filter seen (ps.filter fun pair => !pair.isEmpty) =
      keep filter seen (qs.filter fun pair => !pair.isEmpty) := by
  induction h generalizing seen with
  | nil => rfl
  | @both ps qs p _ ih =>
      cases p with
      | nil => exact ih
      | cons b p =>
          have hcons : ∀ rest : List Bytes, ((b :: p) :: rest).filter (fun pair => !pair.isEmpty) =
              (b :: p) :: rest.filter fun pair => !pair.isEmpty := fun _ => rfl
          rw [hcons, hcons]
          rcases keep_cons_cases filter seen (b :: p) with ⟨f, hf⟩ | hdrop | hkeep
          · rw [keep_cons_of_refuses hf, keep_cons_of_refuses hf]
          · rw [hdrop, hdrop, ih]
          · rw [hkeep, hkeep, ih]
  | left hp _ ih => rw [keep_filter_cons_of_ignored hp hnames, ih]
  | right hq _ ih => rw [keep_filter_cons_of_ignored hq hnames, ih]

/-- The result is the same as well. -/
theorem SameBut.decodeQuery_eq (α : Type) [Message α] {filter names : List String}
    {query query' : Bytes}
    (h : SameBut (Ignored names) (pieces 0x26 query) (pieces 0x26 query'))
    (hnames : ∀ name ∈ names,
      Utf8.encode name ∈ filter.map Utf8.encode ∧ IsRoot (Utf8.encode name)) :
    decodeQuery α filter query = decodeQuery α filter query' := by
  have hkeep : keep (filter.map Utf8.encode) [] (pairs query) =
      keep (filter.map Utf8.encode) [] (pairs query') := h.keep_eq hnames
  rw [decodeQuery, decodeQuery, hkeep]

end Query

/-- Two queries that are the same up to empty pairs and pairs with good escapes and a key rooted at
filtered names give the same result, the message as well as the refusal. The names must not hold a
point or a bracket, because the root of a key ends there. -/
theorem decodeQuery_ignores {α : Type} [Message α] {filter : List String} (names : List String)
    {query query' : Bytes}
    (hnames : ∀ name ∈ names, name ∈ filter ∧ Query.IsRoot (Utf8.encode name))
    (h : Query.SameBut (Query.Ignored names) (pieces 0x26 query) (pieces 0x26 query')) :
    decodeQuery α filter query = decodeQuery α filter query' := by
  apply h.decodeQuery_eq α
  intro name hname
  exact ⟨List.mem_map_of_mem (hnames name hname).1, (hnames name hname).2⟩

/-- Two filtered pairs of the same key around a pair, and two empty ones. -/
theorem decodeQuery_ignores_subject :
    decodeQuery Message.AuditListRequest ["subject"]
        (Utf8.encode "subject=a&status=b&&subject.c[]=%41&") =
      decodeQuery Message.AuditListRequest ["subject"] (Utf8.encode "status=b") := by
  have hescaped : ∀ {p : Bytes}, Percent.badEscape? p = none → Percent.IsEscaped p :=
    fun h => Percent.badEscape?_eq_none_iff.mp h
  apply decodeQuery_ignores ["subject"]
  · decide +kernel
  · apply Query.SameBut.left (.rooted List.mem_cons_self (hescaped (by decide)) .self)
    apply Query.SameBut.both (Utf8.encode "status=b")
    apply Query.SameBut.left .empty
    apply Query.SameBut.left
    · exact .rooted List.mem_cons_self (hescaped (by decide)) (.point (Utf8.encode "c[]"))
    · exact Query.SameBut.left .empty .nil

/-- A name with a point filters nothing: a key is rooted at what is in front of the point. -/
theorem not_ignored_of_point :
    ¬ ∀ (filter : List String) (query query' : Bytes),
      Query.SameBut (Query.Ignored filter) (pieces 0x26 query) (pieces 0x26 query') →
        decodeQuery Message.AuditListRequest filter query =
          decodeQuery Message.AuditListRequest filter query' := by
  intro h
  have hignored : ∀ p ∈ [Utf8.encode "a.b=1", Utf8.encode "a.b=2"],
      Query.Ignored ["a.b"] p := by
    intro p hp
    have hescaped : Percent.badEscape? p = none ∧ Query.keyOf p = Utf8.encode "a.b" := by
      rcases List.mem_pair.mp hp with rfl | rfl <;> decide
    refine .rooted List.mem_cons_self (Percent.badEscape?_eq_none_iff.mp hescaped.1) ?_
    rw [hescaped.2]
    exact .self
  have hsame := h ["a.b"] (Utf8.encode "a.b=1&a.b=2") []
    (.left (hignored _ List.mem_cons_self)
      (.left (hignored _ (List.mem_cons_of_mem _ List.mem_cons_self)) (.right .empty .nil)))
  revert hsame
  decide +kernel

end RestGateway
