import RestGateway.Proofs.Json.Messages
import RestGateway.Proofs.Json.Records

/-!
# Which texts are accepted as messages

A text is read as a message exactly if it spells a tree that means this message. What a message is
read as depends on the tree alone, and so not on blanks or on the spelling of strings.
-/

namespace RestGateway.Json

variable {κ : Type} {Value : κ → Type} {value? : (k : κ) → Tree → Option (Value k)}
  {unset : (k : κ) → Value k} {fs : List (Field κ)} {read : (k : κ) → Bytes → Reading (Value k)}
  {text s t rest : Bytes} {v : Tree}

/-- A record is read as what it means if its fields are. -/
theorem agrees_record (hnames : NamesDistinct fs)
    (h : ∀ f ∈ fs, Agrees (read f.kind) (value? f.kind)) (name : String) :
    Agrees (readRecord read unset name fs) (Tree.record? value? unset fs) where
  answers {s t rest v} hblank hv hrest := by
    obtain ⟨b, u, ht, hskip, hb⟩ := hv.skipBlank_eq hblank
    have hother : v.shape ≠ .object → v.shape ≠ .list →
        Answers (readRecord read unset name fs s) rest none := by
      intro hobject hlist
      rw [readRecord, hskip]
      split
      · rename_i heq
        cases heq
        exact absurd (Option.some.inj hb).symm hobject
      · rename_i heq
        cases heq
        exact absurd (Option.some.inj hb).symm hlist
      · exact ⟨_, rfl⟩
    cases hv with
    | object hms =>
        cases ht
        rw [readRecord, hskip, Tree.record?, ← Tree.fill?_noSlots]
        exact readMembers_answers hnames h hms (Nat.le_refl _) (noSlots fs)
    | list hvs =>
        cases ht
        rw [readRecord, hskip]
        exact readPositions_answers h hvs
    | _ => exact hother Shape.noConfusion Shape.noConfusion
  spelled {s rest r} hread := by
    unfold readRecord at hread
    split at hread
    · rename_i u hskip
      obtain ⟨ms, hms⟩ := exists_members h hread
      exact ⟨.object ms, _, (blanks_of_skipBlank hskip).1, .object hms⟩
    · rename_i u hskip
      obtain ⟨vs, hvs⟩ := exists_positions h hread
      exact ⟨.list vs, _, (blanks_of_skipBlank hskip).1, .list hvs⟩
    · cases hread

theorem agrees_scalar (k : Scalar) : Agrees (readScalar k) (Tree.scalar? k) := by
  cases k with
  | text => exact agrees_text
  | optionalText => exact agrees_text.nullable
  | optionalInt => exact agrees_integer.nullable

theorem agrees_flat {t : RecordType} (ht : NamesDistinct t.fields) :
    Agrees (readFlat t) (Tree.flat? t) :=
  agrees_record ht (fun f _ => agrees_scalar f.kind) t.name

theorem agrees_kind {k : Kind} (hk : NestedNamesDistinct k) :
    Agrees (readKind k) (Tree.kind? k) := by
  cases k with
  | scalar k => exact agrees_scalar k
  | optional t => exact (agrees_flat hk).nullable
  | repeated t => exact (agrees_flat hk).list

theorem agrees_message {schema : Schema} (hs : Named schema) :
    Agrees (readRecord readKind Kind.unset schema.name schema.fields) (Tree.message? schema) :=
  agrees_record hs.1 (fun f hf => agrees_kind (hs.2 f hf)) schema.name

/-- A text that spells a tree is read as what the tree means. -/
theorem toOption_decodeRecord {schema : Schema} (hs : Named schema) (h : IsText text v) :
    (decodeRecord schema text).toOption = Tree.message? schema v := by
  obtain ⟨s, rest, hblank, hv, hrest⟩ := h
  have hread := (agrees_message hs).answers hblank hv (hrest.stops stops_nil)
  rw [decodeRecord]
  cases hvalue : Tree.message? schema v with
  | none =>
      rw [hvalue] at hread
      obtain ⟨f, hf⟩ := hread
      rw [hf]
      rfl
  | some r =>
      rw [hvalue] at hread
      rw [hread]
      simp only [skipBlank_eq_nil_iff.mpr hrest]
      rfl

/-- A text that is read spells a tree. -/
theorem exists_isText {schema : Schema} (hs : Named schema) {r : schema.Value}
    (h : decodeRecord schema text = .ok r) : ∃ v, IsText text v := by
  unfold decodeRecord at h
  split at h
  · cases h
  · rename_i r' rest hread
    obtain ⟨v, s, hblank, hv⟩ := (agrees_message hs).spelled hread
    cases hskip : skipBlank rest with
    | nil => exact ⟨v, s, rest, hblank, hv, skipBlank_eq_nil_iff.mp hskip⟩
    | cons b t =>
        simp only [hskip] at h
        cases h

/-- A text is accepted exactly if it spells a tree that has a meaning. -/
theorem decodeRecord_eq_ok_iff {schema : Schema} (hs : Named schema) {r : schema.Value} :
    decodeRecord schema text = .ok r ↔ ∃ v, IsText text v ∧ Tree.message? schema v = some r := by
  constructor
  · intro h
    obtain ⟨v, hv⟩ := exists_isText hs h
    refine ⟨v, hv, ?_⟩
    rw [← toOption_decodeRecord hs hv, h]
    rfl
  · rintro ⟨v, hv, hr⟩
    rw [← toOption_decodeRecord hs hv] at hr
    cases h : decodeRecord schema text with
    | error f =>
        rw [h] at hr
        cases hr
    | ok r' =>
        rw [h] at hr
        cases hr
        rfl

end RestGateway.Json
