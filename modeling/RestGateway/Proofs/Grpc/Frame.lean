import RestGateway.Grpc.Frame
import RestGateway.Proofs.Wire.RoundTrip
import RestGateway.Rpc

/-!
# Reading back frames

A body that consists of the frame of one message is read as this message, if the message is not too
long.
-/

namespace RestGateway

/-- The requests of a method can be read back. -/
theorem Rpc.request_numbered (rpc : Rpc) : Wire.Numbered (Message.schema rpc.Request) := by
  cases rpc <;> decide

/-- The replies of a method can be read back. -/
theorem Rpc.reply_numbered (rpc : Rpc) : Wire.Numbered (Message.schema rpc.Reply) := by
  cases rpc <;> decide

namespace Grpc

/-- Four bytes hold every length below 2 to the 32. -/
theorem exists_lengthBytes_eq {n : Nat} (h : n < 2 ^ 32) :
    ∃ a b c d, lengthBytes n = [a, b, c, d] ∧ lengthOf a b c d = n := by
  refine ⟨_, _, _, _, rfl, ?_⟩
  simp only [lengthOf, UInt8.toNat_ofNat', Nat.pow_eq]
  omega

variable {α : Type} [Message α]

theorem readFrames_nil (done : List α) : readFrames α done [] = .ok (done.reverse, false) := by
  rw [readFrames]
  · rfl
  · intro _ _ _ _ _ _ h
    cases h

/-- The message of a frame is read, and then what is behind it. -/
theorem readFrames_frame {m : α} {content : Bytes} (hm : Wire.decode α content = .ok m)
    (h : content.length ≤ sizeLimit) (done : List α) (rest : Bytes) :
    readFrames α done (frame content ++ rest) = readFrames α (m :: done) rest := by
  have hlt : content.length < 2 ^ 32 := lt_of_le_of_lt h (by decide)
  obtain ⟨a, b, c, d, hbytes, hlength⟩ := exists_lengthBytes_eq hlt
  have hle : ¬ (content ++ rest).length < content.length := by simp
  simp only [frame, hbytes, List.cons_append, List.nil_append]
  rw [readFrames, hlength, if_neg (by decide), if_neg (by decide), if_neg (Nat.not_lt.mpr h),
    if_neg hle, List.take_left, List.drop_left]
  simp only [hm]

/-- A body of one frame is read as its message. -/
theorem readMessages_frame (hα : Wire.Numbered (Message.schema α)) (m : α)
    (h : (Wire.encode m).length ≤ sizeLimit) :
    readMessages α ⟨[frame (Wire.encode m)], none⟩ = .ok [m] := by
  have hdecode := Wire.decode_encode hα m (lt_of_le_of_lt h (by decide))
  have hframes := readFrames_frame hdecode h [] []
  rw [List.append_nil, readFrames_nil] at hframes
  simp [readMessages, hframes]

end Grpc

end RestGateway
