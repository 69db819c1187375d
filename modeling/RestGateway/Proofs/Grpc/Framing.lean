import RestGateway.Grpc.Server
import RestGateway.Proofs.Grpc.Frame

/-!
# Bodies that are frames

A body is read exactly if its stream comes to an end and its bytes are frames one behind the other,
each with a message that is not compressed and not too long. The head of one more frame may stand
behind them, as long as its content has not begun.
-/

namespace RestGateway.Grpc

/-- Four bytes are those of the number that they hold. -/
theorem lengthBytes_lengthOf (a b c d : UInt8) : lengthBytes (lengthOf a b c d) = [a, b, c, d] := by
  have ha := a.toNat_lt
  have hb := b.toNat_lt
  have hc := c.toNat_lt
  have hd := d.toNat_lt
  have hbyte : ∀ (n : Nat) (x : UInt8), n % 256 = x.toNat → UInt8.ofNat n = x := by
    intro n x h
    apply UInt8.toNat_inj.mp
    rw [UInt8.toNat_ofNat']
    exact h
  simp only [lengthBytes, lengthOf, Nat.pow_eq, List.cons.injEq, and_true]
  refine ⟨hbyte _ _ ?_, hbyte _ _ ?_, hbyte _ _ ?_, hbyte _ _ ?_⟩ <;> omega

section

variable (α : Type) [Message α]

/-- The messages of bytes that are frames. -/
inductive Frames : Bytes → List α → Prop
  | nil : Frames [] []
  /-- A frame whose content has not begun has no message. -/
  | head {length : Nat} (pos : 0 < length) (le : length ≤ sizeLimit) :
      Frames (0 :: lengthBytes length) []
  | cons {content rest : Bytes} {m : α} {ms : List α} (le : content.length ≤ sizeLimit)
      (hm : Wire.decode α content = .ok m) (hrest : Frames rest ms) :
      Frames (frame content ++ rest) (m :: ms)

end

variable {α : Type} [Message α] {s : Bytes} {ms : List α}

/-- Frames are read behind those that were read before. -/
theorem Frames.readFrames_eq (h : Frames α s ms) (done : List α) :
    readFrames α done s = .ok (done.reverse ++ ms, false) := by
  induction h generalizing done with
  | nil => rw [readFrames_nil, List.append_nil]
  | @head length pos le =>
      obtain ⟨a, b, c, d, hbytes, hlength⟩ :=
        exists_lengthBytes_eq (lt_of_le_of_lt le (by decide : sizeLimit < 2 ^ 32))
      rw [hbytes, readFrames, hlength, if_neg (by decide), if_neg (by decide),
        if_neg (Nat.not_lt.mpr le), if_pos (by simpa using pos), List.append_nil]
      rfl
  | @cons content rest m ms le hm _ ih =>
      rw [readFrames_frame hm le, ih, List.reverse_cons, List.append_assoc, List.singleton_append]

/-- A frame is cut off by the length in its head. -/
theorem frame_append_drop {a b c d : UInt8} {rest : Bytes} (h : lengthOf a b c d ≤ rest.length) :
    frame (rest.take (lengthOf a b c d)) ++ rest.drop (lengthOf a b c d) =
      0 :: a :: b :: c :: d :: rest := by
  rw [frame, List.length_take_of_le h, lengthBytes_lengthOf]
  simp

/-- What is read to the end is frames. -/
theorem exists_frames_of_readFrames {done : List α} (h : readFrames α done s = .ok (ms, false)) :
    ∃ read, Frames α s read ∧ ms = done.reverse ++ read := by
  fun_induction readFrames α done s with
  | case1 | case2 | case3 | case5 => cases h
  | case4 done flag a b c d rest length hcompressed hflag hlong hshort =>
      obtain rfl : flag = 0 := Decidable.not_not.mp hflag
      obtain ⟨rfl, hrest⟩ : done.reverse = ms ∧ rest = [] := by simpa using h
      subst hrest
      refine ⟨[], ?_, (List.append_nil _).symm⟩
      rw [← lengthBytes_lengthOf a b c d]
      exact .head hshort (Nat.not_lt.mp hlong)
  | case6 done flag a b c d rest length hcompressed hflag hlong hroom m hm ih =>
      obtain rfl : flag = 0 := Decidable.not_not.mp hflag
      obtain ⟨read, hread, rfl⟩ := ih h
      have hlength : length ≤ rest.length := Nat.not_lt.mp hroom
      refine ⟨m :: read, ?_, by simp⟩
      rw [← frame_append_drop hlength]
      refine .cons ?_ hm hread
      rw [List.length_take_of_le hlength]
      exact Nat.not_lt.mp hlong
  | case7 done s hheadless =>
      obtain ⟨rfl, hs⟩ : done.reverse = ms ∧ s = [] := by simpa using h
      subst hs
      exact ⟨[], .nil, (List.append_nil _).symm⟩

/-- A body is read as the messages of its frames. -/
theorem readMessages_eq_ok_iff {body : Body} :
    readMessages α body = .ok ms ↔ body.fault = none ∧ Frames α body.chunks.flatten ms := by
  rw [readMessages]
  constructor
  · intro h
    split at h
    · cases h
    · rename_i messages unfinished hread
      cases hfault : body.fault with
      | some fault =>
          rw [hfault] at h
          cases h
      | none =>
          rw [hfault] at h
          cases unfinished with
          | true => cases h
          | false =>
              cases h
              obtain ⟨read, hframes, rfl⟩ := exists_frames_of_readFrames hread
              exact ⟨rfl, hframes⟩
  · rintro ⟨hfault, hframes⟩
    rw [hframes.readFrames_eq, hfault]
    rfl

theorem encodingStatus?_eq_none_iff {headers : Headers} :
    encodingStatus? headers = none ↔
      ∀ encoding, headers.get? encodingName = some encoding →
        encoding = Utf8.encode "identity" := by
  rw [encodingStatus?]
  cases headers.get? encodingName with
  | none => simp
  | some encoding => simp

/-- The request of a call is the first message of a body that is read to its end. -/
theorem Server.readRequest_eq_ok_iff {rpc : Rpc} {headers : Headers} {body : Body}
    {m : rpc.Request} :
    readRequest rpc headers body = .ok m ↔ encodingStatus? headers = none ∧ body.fault = none ∧
      ∃ ms, Frames rpc.Request body.chunks.flatten (m :: ms) := by
  rw [readRequest]
  constructor
  · intro h
    split at h
    · cases h
    · rename_i hplain
      split at h
      · cases h
      · cases h
      · rename_i first others hread
        cases h
        obtain ⟨hfault, hframes⟩ := readMessages_eq_ok_iff.mp hread
        exact ⟨hplain, hfault, others, hframes⟩
  · rintro ⟨hplain, hfault, others, hframes⟩
    simp only [hplain, readMessages_eq_ok_iff.mpr ⟨hfault, hframes⟩]

end RestGateway.Grpc
