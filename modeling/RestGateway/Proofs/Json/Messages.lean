import RestGateway.Dispatch
import RestGateway.Message.Catalog
import RestGateway.Proofs.Json.RoundTrip
import RestGateway.Route.Fields

/-!
# The messages of the service in JSON

Every message of every type is read back from the body that it is written to, and so is the reply
that a route writes back as a whole. A route that writes the text of a reply alone writes a string
that is read back as this text.
-/

namespace RestGateway

/-- An object is not blank at either end. -/
theorem Bytes.trim_writeObject (ms : List Bytes) :
    Bytes.trim (Json.writeObject ms) = Json.writeObject ms := by
  have hfront : (Json.writeObject ms).dropWhile Ascii.isBlank = Json.writeObject ms := rfl
  have hback : (Json.writeObject ms).reverse.dropWhile Ascii.isBlank =
      (Json.writeObject ms).reverse := by
    rw [Json.writeObject, List.reverse_append]
    rfl
  rw [Bytes.trim, hfront, hback, List.reverse_reverse]

/-- A body with a message is read as this message, because it is neither blank nor null. -/
theorem decodeBody_encode {α : Type} [Message α] (h : Json.Named (Message.schema α)) (m : α) :
    decodeBody α (Json.encode m) = .ok m := by
  have htrim := Bytes.trim_writeObject (Json.members Json.writeKind (Message.toRecord m))
  rw [← Json.encode] at htrim
  have hobject : ¬ ((Json.encode m).isEmpty || Json.encode m == [0x6E, 0x75, 0x6C, 0x6C]) = true :=
    Bool.false_ne_true
  simp only [decodeBody, htrim]
  rw [if_neg hobject, Json.decode_encode h]
  rfl

/-- The fields of every type have names of their own. -/
theorem MessageType.named (k : MessageType) : Json.Named (Message.schema k.Value) := by
  cases k <;> decide

theorem Rpc.reply_named (rpc : Rpc) : Json.Named (Message.schema rpc.Reply) := by
  cases rpc <;> decide

/-- Every message of every type is read back from its body, so a body with a whole reply determines
the reply. The body of a route that writes the text of a reply alone is a string in JSON, which is
read back as this text. -/
theorem decodeBody_of_written :
    (∀ (k : MessageType) (m : k.Value), decodeBody k.Value (Json.encode m) = .ok m) ∧
    (∀ {rpc : Rpc} (route : CompiledRoute rpc) (reply : Reply rpc), ∃ response,
      CompiledRoute.respond { route with answer := .message } reply = .ok response ∧
        decodeBody rpc.Reply response.body = .ok reply.message) ∧
    (∀ (route : CompiledRoute .ping) (reply : Reply .ping), ∃ response,
      CompiledRoute.respond { route with answer := .named .ping "text" } reply = .ok response ∧
        Json.readText response.body = .ok (reply.message.text, [])) ∧
    (∀ (route : CompiledRoute .metrics) (reply : Reply .metrics), ∃ response,
      CompiledRoute.respond { route with answer := .named .metrics "text" } reply = .ok response ∧
        Json.readText response.body = .ok (reply.message.text, [])) := by
  refine ⟨?_, ?_, ?_, ?_⟩
  · exact fun k m => decodeBody_encode k.named m
  · exact fun {rpc} route reply => ⟨_, rfl, decodeBody_encode rpc.reply_named reply.message⟩
  · intro route reply
    refine ⟨_, rfl, ?_⟩
    have hread := Json.readText_writeString reply.message.text []
    rwa [List.append_nil] at hread
  · intro route reply
    refine ⟨_, rfl, ?_⟩
    have hread := Json.readText_writeString reply.message.text []
    rwa [List.append_nil] at hread

end RestGateway
