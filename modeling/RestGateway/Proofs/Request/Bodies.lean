import RestGateway.Proofs.Dispatch.Refusal
import RestGateway.Proofs.Json.Accepted
import RestGateway.Proofs.Json.Known
import RestGateway.Proofs.Text.Blanks

/-!
# What bodies are read as

A body is read as a message if it is blank or null, or if it spells a tree that means the message.
Trees that mean messages are objects, whose members are looked up by name, and lists, whose elements
are looked up by position; nothing else is read.
-/

namespace RestGateway

open Json (IsText Blanks Shape Tree isString_of_readString)

variable {body s : Bytes} {b : UInt8} {v : Tree}

section Trimmed

/-- Blanks of JSON are blanks. -/
theorem Json.Blanks.trim_eq (h : Blanks body s) : Bytes.trim body = Bytes.trim s := by
  obtain ⟨blanks, hblanks, rfl⟩ := h
  induction blanks with
  | nil => rfl
  | cons b blanks ih =>
      have hb : Ascii.isBlank b = true := by
        have hjson := hblanks b List.mem_cons_self
        simp only [Json.isBlank, Bool.or_eq_true, beq_iff_eq] at hjson
        rcases hjson with ((rfl | rfl) | rfl) | rfl <;> rfl
      rw [List.cons_append, Bytes.trim_cons_blank hb,
        ih fun c hc => hblanks c (List.mem_cons_of_mem _ hc)]

/-- What is left of the text of a tree starts with a byte that tells the kind of the tree. -/
theorem Json.IsText.exists_trim_cons (h : IsText body v) :
    ∃ b t, Bytes.trim body = b :: t ∧ Shape.ofByte? b = some v.shape := by
  obtain ⟨s, rest, hblank, hv, -⟩ := h
  obtain ⟨b, t, rfl, hb⟩ := hv.exists_cons
  have hnot : Ascii.isBlank b = false := by
    rw [Bool.eq_false_iff]
    intro hblank
    simp only [Ascii.isBlank, Bool.or_eq_true, beq_iff_eq] at hblank
    rcases hblank with (((rfl | rfl) | rfl) | rfl) | rfl <;> cases hb
  obtain ⟨u, hu⟩ := Bytes.exists_cons_of_trim hnot t
  exact ⟨b, u, hblank.trim_eq.trans hu, hb⟩

end Trimmed

section Accepted

variable {α : Type} [Message α] {m : α}

/-- A body that spells another tree than null is read as what the tree means. -/
theorem decodeBody_eq_ok_iff (hs : Json.Named (Message.schema α)) (h : IsText body v)
    (hv : v.shape ≠ .null) :
    decodeBody α body = .ok m ↔
      Tree.message? (Message.schema α) v = some (Message.toRecord m) := by
  obtain ⟨b, t, htrim, hb⟩ := h.exists_trim_cons
  have hjson : decodeBody α body =
      (Json.decode α body).mapError fun f => .invalidArgument (f.message body) := by
    refine if_neg fun hblank => ?_
    rw [htrim, List.isEmpty_cons, Bool.false_or, beq_iff_eq] at hblank
    rw [(List.cons.inj hblank).1] at hb
    exact hv (Option.some.inj hb).symm
  rw [hjson, Json.decode, ← Json.toOption_decodeRecord hs h]
  cases Json.decodeRecord (Message.schema α) body with
  | error f => constructor <;> intro h <;> cases h
  | ok r =>
      constructor
      · intro h
        cases h
        exact congrArg some (Message.toRecord_ofRecord r).symm
      · intro h
        cases h
        exact congrArg Except.ok (Message.ofRecord_toRecord m)

/-- A body that is read is blank or null, or it spells a tree that means what is read. -/
theorem cases_of_decodeBody (hs : Json.Named (Message.schema α)) (h : decodeBody α body = .ok m) :
    (Bytes.trim body = [] ∨ Bytes.trim body = Json.writeNull) ∧ m = Message.unset α ∨
      ∃ v, IsText body v ∧ Tree.message? (Message.schema α) v = some (Message.toRecord m) := by
  unfold decodeBody at h
  dsimp only at h
  split at h
  · rename_i hblank
    simp only [Bool.or_eq_true, List.isEmpty_iff, beq_iff_eq] at hblank
    exact Or.inl ⟨hblank, (Except.ok.inj h).symm⟩
  · cases hjson : Json.decodeRecord (Message.schema α) body with
    | error f =>
        rw [Json.decode, hjson] at h
        cases h
    | ok r =>
        rw [Json.decode, hjson] at h
        cases h
        rw [Message.toRecord_ofRecord]
        exact Or.inr ((Json.decodeRecord_eq_ok_iff hs).mp hjson)

end Accepted

section Same

variable {body' : Bytes} {ms ms' : List Tree.Member}

/-- Bodies with objects whose known members are the same, in any order, are read alike. The bodies
may differ in all that the trees do not keep or that is not known: blanks, escapes, and members that
no field has. A field without a member is unset, and so are those of the records inside. -/
theorem decodeBody_of_same (k : MessageType) (h : IsText body (.object ms))
    (h' : IsText body' (.object ms'))
    (hsame : Tree.Same (Tree.known (Message.schema k.Value) (.object ms))
      (Tree.known (Message.schema k.Value) (.object ms'))) (m : k.Value) :
    (decodeBody k.Value body = .ok m ↔ decodeBody k.Value body' = .ok m) ∧
      (decodeBody k.Value body = .ok m →
        Tree.LeavesUnset Kind.unset Tree.KindLeavesUnset ms (Message.toRecord m)) := by
  have hiff := @decodeBody_eq_ok_iff body _ k.Value _ m k.named h Shape.noConfusion
  have hiff' := @decodeBody_eq_ok_iff body' _ k.Value _ m k.named h' Shape.noConfusion
  constructor
  · -- Neither what is left out nor the order of what is left changes the meaning.
    rw [hiff, hiff', ← Tree.message?_known k.named (.object ms), hsame.message?_eq,
      Tree.message?_known k.named]
  · intro hm
    exact Tree.leavesUnset_of_fields? (fun _ _ _ => Tree.kindLeavesUnset_of_kind?)
      (Tree.fields?_of_record? (hiff.mp hm))

/-- A body in another order, with an escape in a name, with blanks, and with a member that no field
has. -/
theorem decodeBody_of_same_respelled :
    decodeBody Message.AuditListRequest
        (Utf8.encode " \x7b\"x\":[\x7b\x7d],\"t\\u0079pe\":\"a\", \"status\":\"b\"\x7d\n") =
      .ok { type := some "a", status := some "b" } := by
  have hspace : ∀ b ∈ ([0x20] : Bytes), Json.isBlank b = true :=
    List.forall_mem_singleton.mpr rfl
  have hline : ∀ b ∈ ([0x0A] : Bytes), Json.isBlank b = true := List.forall_mem_singleton.mpr rfl
  have hplain : IsText (Utf8.encode "\x7b\"status\":\"b\",\"type\":\"a\"\x7d")
      (.object [(some "status", .string (some "b")), (some "type", .string (some "a"))]) := by
    refine ⟨_, [], Blanks.refl _, .object ?_, Blanks.refl _⟩
    refine .member (Blanks.refl _) (isString_of_readString rfl) (Blanks.refl _)
      (Blanks.refl _) (.string (isString_of_readString rfl)) ?_
    refine .member ⟨_, Blanks.refl _, Blanks.refl _⟩ (isString_of_readString rfl)
      (Blanks.refl _) (Blanks.refl _) (.string (isString_of_readString rfl)) ?_
    exact .closeObject (Blanks.refl _)
  have hrespelled : IsText
      (Utf8.encode " \x7b\"x\":[\x7b\x7d],\"t\\u0079pe\":\"a\", \"status\":\"b\"\x7d\n")
      (.object [(some "x", .list [.object []]), (some "type", .string (some "a")),
        (some "status", .string (some "b"))]) := by
    refine ⟨_, [0x0A], ⟨[0x20], hspace, rfl⟩, .object ?_, ⟨[0x0A], hline, rfl⟩⟩
    refine .member (Blanks.refl _) (isString_of_readString rfl) (Blanks.refl _) (Blanks.refl _)
      (.list (.element (Blanks.refl _) (.object (.closeObject (Blanks.refl _)))
        (.closeList (Blanks.refl _)))) ?_
    refine .member ⟨_, Blanks.refl _, Blanks.refl _⟩ (isString_of_readString rfl)
      (Blanks.refl _) (Blanks.refl _) (.string (isString_of_readString rfl)) ?_
    refine .member ⟨_, Blanks.refl _, ⟨[0x20], hspace, rfl⟩⟩ (isString_of_readString rfl)
      (Blanks.refl _) (Blanks.refl _) (.string (isString_of_readString rfl)) ?_
    exact .closeObject (Blanks.refl _)
  have hsame : Tree.Same
      (Tree.known (Message.schema Message.AuditListRequest)
        (.object [(some "status", .string (some "b")), (some "type", .string (some "a"))]))
      (Tree.known (Message.schema Message.AuditListRequest)
        (.object [(some "x", .list [.object []]), (some "type", .string (some "a")),
          (some "status", .string (some "b"))])) :=
    .object (.swap _ _ _) rfl (.cons (.refl _) (.cons (.refl _) .nil))
  exact (decodeBody_of_same .auditListRequest hplain hrespelled hsame _).1.mp (by decide)

end Same

section Shapes

/-- No element is too much. -/
theorem Json.Tree.length_le_of_positions? {κ : Type} {Value : κ → Type}
    {value? : (k : κ) → Tree → Option (Value k)} {unset : (k : κ) → Value k}
    {fs : List (Field κ)} {vs : List Tree} {r : Record Value fs}
    (h : positions? value? unset fs vs = some r) : vs.length ≤ fs.length := by
  induction fs generalizing vs with
  | nil =>
      cases vs with
      | nil => exact Nat.le_refl 0
      | cons v vs => cases h
  | cons f fs ih =>
      cases vs with
      | nil => exact Nat.zero_le _
      | cons v vs =>
          rw [positions?] at h
          obtain ⟨value, -, h⟩ := Option.bind_eq_some_iff.mp h
          obtain ⟨values, hvalues, -⟩ := Option.bind_eq_some_iff.mp h
          exact Nat.succ_le_succ (ih hvalues)

/-- A body that is read is blank, or null between blanks, or an object whose members are looked up
by name, or a list whose elements stand for the fields in order. Strings, numbers and truth values
are refused, and whatever is refused is an argument of the client. -/
theorem decodeBody_shapes (k : MessageType) (body : Bytes) :
    (∀ m, decodeBody k.Value body = .ok m →
      (∀ b ∈ body, Ascii.isBlank b = true) ∧ m = Message.unset k.Value ∨
      (∃ front back, (∀ b ∈ front ++ back, Ascii.isBlank b = true) ∧
        body = front ++ Json.writeNull ++ back) ∧ m = Message.unset k.Value ∨
      (∃ ms, IsText body (.object ms) ∧
        Tree.fields? Tree.kind? Kind.unset ms (Message.schema k.Value).fields =
          some (Message.toRecord m)) ∨
      ∃ vs, IsText body (.list vs) ∧ vs.length ≤ (Message.schema k.Value).fields.length ∧
        Tree.positions? Tree.kind? Kind.unset (Message.schema k.Value).fields vs =
          some (Message.toRecord m)) ∧
    (∀ v, IsText body v → v.shape ≠ .null → v.shape ≠ .object → v.shape ≠ .list →
      ∃ f, decodeBody k.Value body = .error f) ∧
    ∀ f, decodeBody k.Value body = .error f → f.code = .invalidArgument := by
  refine ⟨?_, ?_, ?_⟩
  · intro m hm
    rcases cases_of_decodeBody k.named hm with ⟨htrim, rfl⟩ | ⟨v, hv, hmeaning⟩
    · obtain ⟨front, back, hfront, hback, hbody⟩ := Bytes.exists_trim body
      have hblank : ∀ b ∈ front ++ back, Ascii.isBlank b = true := by
        intro b hb
        exact (List.mem_append.mp hb).elim (hfront b) (hback b)
      rcases htrim with htrim | htrim
      · rw [htrim, List.append_nil] at hbody
        exact Or.inl ⟨hbody ▸ hblank, rfl⟩
      · rw [htrim] at hbody
        exact Or.inr (Or.inl ⟨⟨front, back, hblank, hbody⟩, rfl⟩)
    · apply Or.inr
      apply Or.inr
      cases v with
      | object ms => exact Or.inl ⟨ms, hv, Tree.fields?_of_record? hmeaning⟩
      | list vs => exact Or.inr ⟨vs, hv, Tree.length_le_of_positions? hmeaning, hmeaning⟩
      | _ => cases hmeaning
  · intro v hv hnull hobject hlist
    cases hbody : decodeBody k.Value body with
    | error f => exact ⟨f, rfl⟩
    | ok m =>
        have hmeaning := (decodeBody_eq_ok_iff k.named hv hnull).mp hbody
        cases v with
        | object ms => exact absurd rfl hobject
        | list vs => exact absurd rfl hlist
        | _ => cases hmeaning
  · exact fun f hf => decodeBody_error_code hf

/-- A string is no message. -/
theorem decodeBody_shapes_string :
    ∃ f, decodeBody Message.Text (Utf8.encode "\"x\"") = .error f ∧ f.code = .invalidArgument := by
  have hstring : IsText (Utf8.encode "\"x\"") (.string (some "x")) :=
    ⟨_, [], Blanks.refl _, .string (isString_of_readString rfl), Blanks.refl _⟩
  obtain ⟨-, hrefused, hcode⟩ := decodeBody_shapes .text (Utf8.encode "\"x\"")
  obtain ⟨f, hf⟩ := hrefused _ hstring Shape.noConfusion Shape.noConfusion Shape.noConfusion
  exact ⟨f, hf, hcode f hf⟩

/-- Fields are not only set by name: a list sets them by position. -/
theorem not_only_by_name :
    ¬ ∀ (k : MessageType) (body : Bytes) (m : k.Value), decodeBody k.Value body = .ok m →
      (∀ b ∈ body, Ascii.isBlank b = true) ∨
      (∃ front back, (∀ b ∈ front ++ back, Ascii.isBlank b = true) ∧
        body = front ++ Json.writeNull ++ back) ∨
      ∃ ms, IsText body (.object ms) := by
  intro hall
  have hread : decodeBody Message.Text (Utf8.encode "[\"x\"]") = .ok ⟨"x"⟩ := by decide
  have hcases := hall .text (Utf8.encode "[\"x\"]") ⟨"x"⟩ hread
  rcases hcases with hblank | ⟨front, back, hblank, hbody⟩ | ⟨ms, hms⟩
  · exact absurd (hblank 0x5B (by decide)) (by decide)
  · cases front with
    | nil => exact absurd (List.cons.inj hbody).1 (by decide)
    | cons b front =>
        have hb := hblank b List.mem_cons_self
        rw [← (List.cons.inj hbody).1] at hb
        exact absurd hb (by decide)
  · obtain ⟨b, t, htrim, hb⟩ := hms.exists_trim_cons
    cases htrim
    cases hb

end Shapes

end RestGateway
