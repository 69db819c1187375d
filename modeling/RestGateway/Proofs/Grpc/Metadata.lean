import RestGateway.Grpc.Client
import RestGateway.Metadata.Annotate
import RestGateway.Proofs.Header.Values

/-!
# Metadata that crosses a channel

Some names of metadata belong to the call or to the connection below it. Metadata under other names
arrives as it was sent, and a request leads to a name that is taken only if it marks one.
-/

namespace RestGateway

namespace Grpc

/-- Names that belong to a call or to the connection below it. -/
def takenNames : List String :=
  ownNames ++ [detailsName, encodingName, "grpc-accept-encoding", Deadline.name]
    ++ connectionNames ++ ["content-length", "date", "user-agent"]

/-- Metadata under names that are free. -/
def IsFree (metadata : Headers) : Prop := ∀ h ∈ metadata, h.name ∉ takenNames

instance (metadata : Headers) : Decidable (IsFree metadata) :=
  inferInstanceAs (Decidable (∀ h ∈ metadata, h.name ∉ takenNames))

namespace IsFree

variable {metadata : Headers}

theorem nil : IsFree [] := fun _ h => absurd h List.not_mem_nil

theorem append {more : Headers} (h : IsFree metadata) (hm : IsFree more) :
    IsFree (metadata ++ more) := by
  intro x hx
  rcases List.mem_append.mp hx with hx | hx
  · exact h x hx
  · exact hm x hx

theorem singleton {name : String} (hn : name ∉ takenNames) (value : Bytes) :
    IsFree [⟨name, value⟩] := by
  intro x hx
  cases List.mem_singleton.mp hx
  exact hn

theorem name_ne (h : IsFree metadata) {name : String} (hn : name ∈ takenNames) :
    ∀ x ∈ metadata, x.name ≠ name := by
  intro x hx heq
  exact h x hx (heq ▸ hn)

theorem get?_eq_none (h : IsFree metadata) {name : String} (hn : name ∈ takenNames) :
    metadata.get? name = none := Headers.get?_eq_none (h.name_ne hn)

theorem erase_eq (h : IsFree metadata) {name : String} (hn : name ∈ takenNames) :
    metadata.erase name = metadata :=
  List.filter_eq_self.mpr fun x hx => decide_eq_true (h.name_ne hn x hx)

/-- Free names do not describe the call. -/
theorem sanitized_eq (h : IsFree metadata) : sanitized metadata = metadata := by
  refine List.filter_eq_self.mpr fun x hx => ?_
  have hown : x.name ∉ ownNames := fun hm => h x hx (by simp [takenNames, hm])
  simp [hown]

end IsFree

/-- Headers that do not name the connection cross it. -/
theorem acrossConnection_eq {headers : Headers} (h : headers.get? "connection" = none)
    (hn : ∀ x ∈ headers, x.name ∉ connectionNames) : acrossConnection headers = headers := by
  have hlisted : listedNames headers = [] := by rw [listedNames, h]; rfl
  refine List.filter_eq_self.mpr fun x hx => ?_
  simp [hlisted, hn x hx]

theorem IsFree.acrossConnection_eq {metadata : Headers} (h : IsFree metadata) :
    acrossConnection metadata = metadata := by
  refine Grpc.acrossConnection_eq (h.get?_eq_none (by decide)) fun x hx hc => ?_
  exact h x hx (by simp [takenNames, hc])

end Grpc

namespace Metadata

/-- No header is marked as metadata under a name that is taken. -/
def MarksFree (headers : Headers) : Prop :=
  ∀ h ∈ headers, ∀ rest name, Header.stripStart? headerStart h.name = some rest →
    Header.name? rest = some name → name ∉ Grpc.takenNames

/-- Names with the start of standard headers are free. -/
theorem not_mem_takenNames_of_gatewayStart {s name : String}
    (h : Header.name? (gatewayStart ++ s) = some name) : name ∉ Grpc.takenNames := by
  have hstart : gatewayStart.toList <+: name.toList := by
    rw [Header.name?_eq_some h, String.toList_ofList, String.toList_append, List.map_append]
    exact ⟨s.toList.map Char.toLower, rfl⟩
  have hnone : ∀ x ∈ Grpc.takenNames, ¬ gatewayStart.toList <+: x.toList := by decide
  exact fun hm => hnone name hm hstart

theorem under_isFree {name : String} {value : Bytes}
    (h : ∀ n, Header.name? name = some n → n ∉ Grpc.takenNames) :
    Grpc.IsFree (under name value) := by
  unfold under
  cases hn : Header.name? name with
  | none => exact Grpc.IsFree.nil
  | some n => exact Grpc.IsFree.singleton (h n hn) value

theorem ofHeader_isFree {h : Header}
    (hm : ∀ rest name, Header.stripStart? headerStart h.name = some rest →
      Header.name? rest = some name → name ∉ Grpc.takenNames) : Grpc.IsFree (ofHeader h) := by
  unfold ofHeader
  apply Grpc.IsFree.append
  · split
    · rename_i hname
      intro x hx
      cases List.mem_singleton.mp hx
      rw [hname]
      decide
    · exact Grpc.IsFree.nil
  · split
    · rename_i rest hrest
      exact under_isFree fun n hn => hm rest n hrest hn
    · split
      · exact under_isFree fun n hn => not_mem_takenNames_of_gatewayStart hn
      · exact Grpc.IsFree.nil

theorem setIfSome_isFree {metadata : Headers} (h : Grpc.IsFree metadata) {name : String}
    (hn : name ∉ Grpc.takenNames) (value : Option Bytes) :
    Grpc.IsFree (setIfSome metadata name value) := by
  cases value with
  | none => exact h
  | some value =>
      apply Grpc.IsFree.append
      · exact fun x hx => h x ((List.mem_filter.mp hx).1)
      · exact Grpc.IsFree.singleton hn value

/-- The metadata of a call is free if no header of its request marks a taken name. -/
theorem annotate_isFree {r : Request} (h : MarksFree r.headers) : Grpc.IsFree (annotate r) := by
  apply setIfSome_isFree _ (by decide)
  apply setIfSome_isFree _ (by decide)
  intro x hx
  obtain ⟨header, hheader, hx⟩ := List.mem_flatMap.mp hx
  exact ofHeader_isFree (h header (Headers.mem_of_mem_grouped hheader)) x hx

end Metadata

end RestGateway
