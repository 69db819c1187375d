import RestGateway.Json.Value
import RestGateway.Proofs.Json.RoundTrip

/-!
# Reading back values

A number, a string and an object are read back as values in front of everything that ends them. The
members of an object come back in order, each with its name.
-/

namespace RestGateway.Json

/-- A member of an object as it is written. -/
def writeMember (name : String) (bytes : Bytes) : Bytes := writeString name ++ 0x3A :: bytes

section Members

variable {α : Type} {read : Bytes → Reading α}

/-- A member is read, and the next one has to follow a comma. -/
theorem readNamed_name {done : List (String × α)} {name : String} {bytes s rest : Bytes} {v : α}
    (hnext : nextMember done.isEmpty s =
      .ok (.name (name.toList.flatMap writeChar ++ 0x22 :: 0x3A :: (bytes ++ rest))))
    (hread : read (bytes ++ rest) = .ok (v, rest)) (b : UInt8) (clock : Bytes) :
    readNamed read done (b :: clock) s = readNamed read ((name, v) :: done) clock rest := by
  have hcolon : readColon (0x3A :: (bytes ++ rest)) = .ok (bytes ++ rest) := rfl
  rw [readNamed, hnext]
  simp only [readString_writeChars, hcolon, hread]

/-- The members behind the first one are read up to the brace that closes the object. -/
theorem readNamed_rest {ms : List (String × Bytes × α)}
    (h : ∀ m ∈ ms, Yields read m.2.1 m.2.2) {done : List (String × α)} (hdone : done ≠ [])
    (rest : Bytes) {clock : Bytes} (hclock : ms.length < clock.length) :
    readNamed read done clock
        ((ms.map fun m => writeMember m.1 m.2.1).flatMap (0x2C :: ·) ++ 0x7D :: rest) =
      .ok (done.reverse ++ ms.map fun m => (m.1, m.2.2), rest) := by
  have hfirst : done.isEmpty = false := by simpa using hdone
  obtain ⟨b, clock, rfl⟩ := List.exists_cons_of_length_pos (Nat.zero_lt_of_lt hclock)
  induction ms generalizing done b clock with
  | nil =>
      have hnext : nextMember false (0x7D :: rest) = .ok (.close rest) := rfl
      rw [List.map_nil, List.flatMap_nil, List.nil_append, readNamed, hfirst, hnext, List.map_nil,
        List.append_nil]
  | cons m ms ih =>
      obtain ⟨name, bytes, v⟩ := m
      let others := ms.map fun m => writeMember m.1 m.2.1
      have hends := endsValue_rest others (Or.inr (Or.inr rfl)) rest
      have hread := (h (name, bytes, v) List.mem_cons_self).reads _ hends
      have happend : ((writeMember name bytes) :: others).flatMap (0x2C :: ·) ++ 0x7D :: rest =
          0x2C :: 0x22 :: (name.toList.flatMap writeChar ++
            0x22 :: 0x3A :: (bytes ++ (others.flatMap (0x2C :: ·) ++ 0x7D :: rest))) := by
        simp [writeMember, writeString]
      have hlt : ms.length < clock.length := Nat.lt_of_succ_lt_succ hclock
      obtain ⟨c, clock, rfl⟩ := List.exists_cons_of_length_pos (Nat.zero_lt_of_lt hlt)
      have hnext : nextMember done.isEmpty (((writeMember name bytes) :: others).flatMap
          (0x2C :: ·) ++ 0x7D :: rest) = .ok (.name (name.toList.flatMap writeChar ++
            0x22 :: 0x3A :: (bytes ++ (others.flatMap (0x2C :: ·) ++ 0x7D :: rest)))) := by
        rw [happend, hfirst]
        rfl
      rw [List.map_cons, readNamed_name hnext hread,
        ih (fun m hm => h m (List.mem_cons_of_mem _ hm)) (List.cons_ne_nil _ _) rfl c clock hlt,
        List.reverse_cons, List.append_assoc]
      rfl

/-- The members of an object are read up to the brace that closes it. -/
theorem readNamed_members {ms : List (String × Bytes × α)}
    (h : ∀ m ∈ ms, Yields read m.2.1 m.2.2) (rest : Bytes) :
    readNamed read [] (joined 0x2C (ms.map fun m => writeMember m.1 m.2.1) ++ 0x7D :: rest)
        (joined 0x2C (ms.map fun m => writeMember m.1 m.2.1) ++ 0x7D :: rest) =
      .ok (ms.map fun m => (m.1, m.2.2), rest) := by
  cases ms with
  | nil => rfl
  | cons m ms =>
      obtain ⟨name, bytes, v⟩ := m
      let others := ms.map fun m => writeMember m.1 m.2.1
      have hends := endsValue_rest others (Or.inr (Or.inr rfl)) rest
      have hread := (h (name, bytes, v) List.mem_cons_self).reads _ hends
      have happend : joined 0x2C (writeMember name bytes :: others) ++ 0x7D :: rest =
          0x22 :: (name.toList.flatMap writeChar ++
            0x22 :: 0x3A :: (bytes ++ (others.flatMap (0x2C :: ·) ++ 0x7D :: rest))) := by
        rw [joined_cons]
        simp [writeMember, writeString]
      rw [List.map_cons, happend, readNamed_name rfl hread]
      refine readNamed_rest (fun m hm => h m (List.mem_cons_of_mem _ hm)) (List.cons_ne_nil _ _)
        rest ?_
      have hle := length_le_length_flatMap_cons (0x2C : UInt8) others
      have hcount : others.length = ms.length := List.length_map _
      simp only [List.length_append, List.length_cons]
      omega

end Members

variable (b : UInt8) (clock : Bytes)

/-- A text in quotes is a string. -/
theorem yields_string (text : String) :
    Yields (readValue (b :: clock)) (writeString text) (.string text) := by
  refine ⟨⟨0x22, _, rfl, by decide, by decide, by decide⟩, fun rest _ => ?_⟩
  have happend : writeString text ++ rest =
      0x22 :: (text.toList.flatMap writeChar ++ 0x22 :: rest) := by
    simp [writeString]
  rw [happend, readValue, skipBlank_cons (by decide)]
  exact congrArg (Except.map (Prod.map Value.string id)) (readString_writeChars text rest)

/-- The digits of an integer of 64 bits are a number. -/
theorem yields_integer {n : Int} (hlow : -2 ^ 63 ≤ n) (hhigh : n < 2 ^ 63) :
    Yields (readValue (b :: clock)) (writeInteger n) (.number (.integer n)) := by
  obtain ⟨d, t, hd, hs⟩ := startsNumber_writeInteger n
  have hstarts : StartsValue (writeInteger n) := ⟨d, t, hd, not_blank_of_startsNumber hs⟩
  refine ⟨hstarts, fun rest hrest => ?_⟩
  have hread := readNumber_writeInteger hlow hhigh hrest
  rw [readValue, hstarts.skipBlank_append]
  rw [hd, List.cons_append] at hread ⊢
  have hword : ∀ w : UInt8, startsNumber w = false → (d == w) = false := by
    intro w hw
    refine beq_false_of_ne ?_
    rintro rfl
    rw [hs] at hw
    cases hw
  simp only [hword 0x6E rfl, hword 0x74 rfl, hword 0x66 rfl, hs, hread]
  rfl

/-- Brackets with nothing between them are a list without elements. -/
theorem yields_emptyList : Yields (readValue (b :: clock)) (writeList []) (.list []) :=
  ⟨⟨0x5B, _, rfl, by decide, by decide, by decide⟩, fun _ _ => rfl⟩

/-- Members in braces are an object, if their values are read back. -/
theorem yields_object {ms : List (String × Bytes × Value)}
    (h : ∀ m ∈ ms, Yields (readValue clock) m.2.1 m.2.2) :
    Yields (readValue (b :: clock)) (writeObject (ms.map fun m => writeMember m.1 m.2.1))
      (.object (ms.map fun m => (m.1, m.2.2))) := by
  refine ⟨⟨0x7B, _, rfl, by decide, by decide, by decide⟩, fun rest _ => ?_⟩
  have happend : writeObject (ms.map fun m => writeMember m.1 m.2.1) ++ rest =
      0x7B :: (joined 0x2C (ms.map fun m => writeMember m.1 m.2.1) ++ 0x7D :: rest) := by
    simp [writeObject]
  rw [happend, readValue, skipBlank_cons (by decide)]
  exact congrArg (Except.map (Prod.map Value.object id)) (readNamed_members h rest)

omit b clock in
/-- A text that is an object is read as this object. -/
theorem parse_writeObject {ms : List (String × Bytes × Value)}
    (h : ∀ m ∈ ms, ∀ b clock, Yields (readValue (b :: clock)) m.2.1 m.2.2) :
    parse (writeObject (ms.map fun m => writeMember m.1 m.2.1)) =
      .ok (.object (ms.map fun m => (m.1, m.2.2))) := by
  -- Behind the brace that opens the object there is at least the one that closes it.
  obtain ⟨c, clock, hclock⟩ := List.exists_cons_of_ne_nil
    (List.concat_ne_nil (0x7D : UInt8) (joined 0x2C (ms.map fun m => writeMember m.1 m.2.1)))
  have htext : writeObject (ms.map fun m => writeMember m.1 m.2.1) = 0x7B :: c :: clock :=
    congrArg (0x7B :: ·) hclock
  have hyields := yields_object 0x7B (c :: clock) fun m hm => h m hm c clock
  have hread := hyields.reads [] (Or.inl rfl)
  rw [List.append_nil, htext] at hread
  rw [parse, htext, hread]
  rfl

end RestGateway.Json
