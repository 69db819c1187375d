import RestGateway.Proofs.Dispatch.Answers
import RestGateway.Proofs.Json.Value
import RestGateway.Proofs.Metadata.Forwarded

/-!
# What responses carry

The response with a reply and the response with a failure have the type of their body and the
metadata of the call, and no other header. Replies keep headers and trailers apart by the starts of
their names. The body of a failure is an object with its code, its message and no details.
-/

namespace RestGateway

open Metadata

variable {rpc : Rpc} {h : Header}

/-- The type of the bodies of all responses with a body. -/
def jsonType : Bytes := Utf8.encode "application/json"

namespace Metadata

theorem name?_headerStart : Header.name? headerStart = some headerStart := by decide

theorem name?_trailerStart : Header.name? trailerStart = some trailerStart := by decide

theorem contentType_ne_headerStart (key : String) : "content-type" ≠ headerStart ++ key :=
  Header.ne_append (by decide) key

theorem contentType_ne_trailerStart (key : String) : "content-type" ≠ trailerStart ++ key :=
  Header.ne_append (by decide) key

/-- Headers and trailers do not get the same name. -/
theorem headerStart_ne_trailerStart (key key' : String) :
    headerStart ++ key ≠ trailerStart ++ key' :=
  Header.append_ne_append (by decide) (by decide) key key'

end Metadata

theorem name_of_mem_json (hh : h ∈ Headers.json) : h.name = "content-type" := by
  cases List.mem_singleton.mp hh
  rfl

theorem json_ne_headerStart (hh : h ∈ Headers.json) (key : String) :
    h.name ≠ headerStart ++ key := by
  rw [name_of_mem_json hh]
  exact contentType_ne_headerStart key

/-- The type of a body is the only one if no other header is a type. -/
theorem values_contentType {others : Headers} (hothers : ∀ h ∈ others, h.name ≠ "content-type") :
    (Headers.json ++ others).values "content-type" = [jsonType] := by
  rw [Headers.values_append, Headers.values_eq_nil hothers]
  rfl

namespace CompiledRoute

/-- The headers of a response with a reply are the type of the body, the headers of the reply and
its trailers. -/
theorem headers_of_respond {route : CompiledRoute rpc} {reply : Reply rpc} {response : Response}
    (h : route.respond reply = .ok response) :
    response.headers = Headers.json ++ forwarded headerStart reply.metadata.headers ++
      forwarded trailerStart reply.metadata.trailers := by
  unfold respond at h
  split at h
  · cases h
  · cases h
    rfl

/-- The response with a reply that can be written has the status of a success and the body that was
written. Its headers are the type of the body, the headers of the reply under one start and its
trailers under another. -/
theorem respond_carries (route : CompiledRoute rpc) (reply : Reply rpc) {body : Bytes}
    (hbody : route.answer.write reply.message = .ok body)
    (hheaders : reply.metadata.headers.IsNamed) (htrailers : reply.metadata.trailers.IsNamed) :
    ∃ response, route.respond reply = .ok response ∧
      response.status = 200 ∧ response.body = body ∧
      response.headers.values "content-type" = [jsonType] ∧
      CarriedUnder headerStart reply.metadata.headers response.headers ∧
      CarriedUnder trailerStart reply.metadata.trailers response.headers ∧
      (∀ h ∈ response.headers, h.name = "content-type" ∨
        (∃ key, h.name = headerStart ++ key) ∨ ∃ key, h.name = trailerStart ++ key) ∧
      ∀ key key', headerStart ++ key ≠ trailerStart ++ key' := by
  let headers := forwarded headerStart reply.metadata.headers
  let trailers := forwarded trailerStart reply.metadata.trailers
  have hmarked : ∀ h ∈ headers, ∀ other, (∀ key, other ≠ headerStart ++ key) → h.name ≠ other :=
    fun h hh _ => name_ne_of_mem_forwarded name?_headerStart hheaders hh
  have htrailing : ∀ h ∈ trailers, ∀ other, (∀ key, other ≠ trailerStart ++ key) →
      h.name ≠ other :=
    fun h hh _ => name_ne_of_mem_forwarded name?_trailerStart htrailers hh
  have hrespond : route.respond reply = .ok ⟨200, Headers.json ++ headers ++ trailers, body⟩ := by
    rw [respond, hbody]
    rfl
  refine ⟨_, hrespond, rfl, rfl, ?_, ?_, ?_, ?_, headerStart_ne_trailerStart⟩
  · rw [List.append_assoc]
    refine values_contentType fun h hh => ?_
    rcases List.mem_append.mp hh with hh | hh
    · exact hmarked h hh _ contentType_ne_headerStart
    · exact htrailing h hh _ contentType_ne_trailerStart
  · apply carriedUnder_of_append name?_headerStart hheaders
    · exact fun _ => json_ne_headerStart
    · exact fun h hh key => htrailing h hh _ fun key' => headerStart_ne_trailerStart key key'
  · have hbefore : ∀ h ∈ Headers.json ++ headers, ∀ key, h.name ≠ trailerStart ++ key := by
      intro h hh key
      rcases List.mem_append.mp hh with hh | hh
      · rw [name_of_mem_json hh]
        exact contentType_ne_trailerStart key
      · exact hmarked h hh _ fun key' => (headerStart_ne_trailerStart key' key).symm
    have hcarried := carriedUnder_of_append name?_trailerStart htrailers hbefore
      fun _ hh => absurd hh List.not_mem_nil
    rwa [List.append_nil] at hcarried
  · intro h hh
    rcases List.mem_append.mp hh with hh | hh
    · rcases List.mem_append.mp hh with hh | hh
      · exact Or.inl (name_of_mem_json hh)
      · obtain ⟨key, hkey, _⟩ := exists_of_mem_forwarded name?_headerStart hheaders hh
        exact Or.inr (Or.inl ⟨key, hkey⟩)
    · obtain ⟨key, hkey, _⟩ := exists_of_mem_forwarded name?_trailerStart htrailers hh
      exact Or.inr (Or.inr ⟨key, hkey⟩)

/-- A reply with values in headers and trailers, some of which belong to a transport. -/
def noted : Reply .ping where
  message := ⟨"pong"⟩
  metadata := {
    headers := [⟨"trace", [0x31]⟩, ⟨"content-type", [0x32]⟩, ⟨"trace", [0x33]⟩, ⟨"key-bin", [0x34]⟩]
    trailers := [⟨"grpc-status", [0x35]⟩, ⟨"trace", [0x36]⟩] }

theorem respond_noted :
    greetings.answer.write noted.message = .ok (Json.writeString "pong") ∧
    noted.metadata.headers.IsNamed ∧ noted.metadata.trailers.IsNamed ∧
    ∃ response, greetings.respond noted = .ok response ∧
      response.headers.values "content-type" = [jsonType] ∧
      response.headers.values "grpc-metadata-trace" = [[0x31], [0x33]] ∧
      response.headers.values "grpc-trailer-trace" = [[0x36]] := by
  have hbody : greetings.answer.write noted.message = .ok (Json.writeString "pong") := rfl
  have hheaders : noted.metadata.headers.IsNamed := by decide
  have htrailers : noted.metadata.trailers.IsNamed := by decide
  obtain ⟨response, hresponse, _, _, htype, hcarried, htrailing, _⟩ :=
    respond_carries greetings noted hbody hheaders htrailers
  exact ⟨hbody, hheaders, htrailers, response, hresponse, htype,
    hcarried.values "trace" (by decide) (by decide),
    htrailing.values "trace" (by decide) (by decide)⟩

end CompiledRoute

namespace Failure

/-- The body of a failure is an object of three members. -/
theorem body_eq (f : Failure) :
    f.body = Json.writeObject
      [Json.writeMember "code" (Json.writeInteger f.code.number),
        Json.writeMember "message" (Json.writeString f.message),
        Json.writeMember "details" (Json.writeList [])] := by
  have hcode : Utf8.encode "\x7b\"code\":" = 0x7B :: Json.writeString "code" ++ [0x3A] := by decide
  have hmessage : Utf8.encode ",\"message\":" = 0x2C :: Json.writeString "message" ++ [0x3A] := by
    decide
  have hdetails : Utf8.encode ",\"details\":[]\x7d" =
      0x2C :: Json.writeString "details" ++ 0x3A :: Json.writeList [] ++ [0x7D] := by decide
  rw [body, hcode, hmessage, hdetails]
  simp [Json.writeObject, Json.writeMember, joined]

/-- The body of a failure is read as its code, its message and no details. -/
theorem parse_body (f : Failure) :
    Json.parse f.body = .ok (.object [("code", .number (.integer f.code.number)),
      ("message", .string f.message), ("details", .list [])]) := by
  have hhigh : (f.code.number : Int) < 2 ^ 63 := by cases f.code <;> decide
  have hlow : -2 ^ 63 ≤ (f.code.number : Int) := by omega
  rw [body_eq]
  refine @Json.parse_writeObject [("code", _, _), ("message", _, _), ("details", _, _)] ?_
  intro m hm b clock
  simp only [List.mem_cons, List.not_mem_nil, or_false] at hm
  rcases hm with rfl | rfl | rfl
  · exact Json.yields_integer b clock hlow hhigh
  · exact Json.yields_string b clock f.message
  · exact Json.yields_emptyList b clock

/-- The headers of a failed call are the type of the body and the metadata of the failure. -/
theorem headers_response_ofStatus {s : Status} (hs : s.metadata.IsNamed) :
    (ofStatus s).response.headers = Headers.json ++ forwarded headerStart s.metadata := by
  have hmeta : (ofStatus s).headers.getD [] = forwarded headerStart s.metadata := by
    cases hforwarded : forwarded headerStart s.metadata with
    | nil => simp [ofStatus, hforwarded]
    | cons h rest => simp [ofStatus, hforwarded]
  have hkept : Headers.json.filter (fun h => !(forwarded headerStart s.metadata).any
      fun m => m.name = h.name) = Headers.json := by
    refine List.filter_eq_self.mpr fun h hh => ?_
    rw [name_of_mem_json hh, Bool.not_eq_true', List.any_eq_false]
    intro m hm heq
    exact name_ne_of_mem_forwarded name?_headerStart hs hm contentType_ne_headerStart
      (of_decide_eq_true heq)
  rw [response, Headers.extend, hmeta, hkept]

/-- Fields without the start of metadata are none of the metadata. -/
theorem filter_headerStart {others : Headers}
    (hothers : ∀ h ∈ others, ∀ key, h.name ≠ headerStart ++ key) :
    others.filter (fun h => Header.startsWith headerStart h.name) = [] := by
  refine List.filter_eq_nil_iff.mpr fun h hh hstarts => ?_
  obtain ⟨key, hkey⟩ := Header.startsWith_iff.mp hstarts
  exact hothers h hh key hkey

/-- The response with a failed call has the status of its code and a body that is read as the code,
the message and no details. Its headers are the type of the body and the metadata of the failure,
which are the headers under this start that a reply with the same metadata has. -/
theorem response_ofStatus {s : Status} (hs : s.metadata.IsNamed) :
    (ofStatus s).response.status = s.code.httpStatus ∧
    Json.parse (ofStatus s).response.body = .ok (.object
      [("code", .number (.integer s.code.number)), ("message", .string s.message),
        ("details", .list [])]) ∧
    (ofStatus s).response.headers.values "content-type" = [jsonType] ∧
    CarriedUnder headerStart s.metadata (ofStatus s).response.headers ∧
    (∀ h ∈ (ofStatus s).response.headers,
      h.name = "content-type" ∨ ∃ key, h.name = headerStart ++ key) ∧
    ∀ {rpc : Rpc} (route : CompiledRoute rpc) (reply : Reply rpc) (success : Response),
      reply.metadata.headers = s.metadata → reply.metadata.trailers.IsNamed →
      route.respond reply = .ok success →
        success.headers.filter (fun h => Header.startsWith headerStart h.name) =
          (ofStatus s).response.headers.filter fun h => Header.startsWith headerStart h.name := by
  have hheaders := headers_response_ofStatus hs
  refine ⟨rfl, parse_body (ofStatus s), ?_, ?_, ?_, ?_⟩
  · rw [hheaders]
    exact values_contentType fun h hh =>
      name_ne_of_mem_forwarded name?_headerStart hs hh contentType_ne_headerStart
  · have hcarried := carriedUnder_of_append name?_headerStart hs (fun _ => json_ne_headerStart)
      fun _ hh => absurd hh List.not_mem_nil
    rwa [hheaders, ← List.append_nil (Headers.json ++ _)]
  · intro h hh
    rw [hheaders] at hh
    rcases List.mem_append.mp hh with hh | hh
    · exact Or.inl (name_of_mem_json hh)
    · obtain ⟨key, hkey, _⟩ := exists_of_mem_forwarded name?_headerStart hs hh
      exact Or.inr ⟨key, hkey⟩
  · intro rpc route reply success hmetadata htrailers hsuccess
    have htrailing : ∀ h ∈ forwarded trailerStart reply.metadata.trailers, ∀ key,
        h.name ≠ headerStart ++ key :=
      fun h hh key => name_ne_of_mem_forwarded name?_trailerStart htrailers hh
        fun key' => headerStart_ne_trailerStart key key'
    have hsame : success.headers = (ofStatus s).response.headers ++
        forwarded trailerStart reply.metadata.trailers := by
      rw [hheaders, ← hmetadata]
      exact CompiledRoute.headers_of_respond hsuccess
    rw [hsame, List.filter_append, filter_headerStart htrailing, List.append_nil]

/-- A failure with a text that has escapes and several values of a name. -/
def missing : Status where
  code := .notFound
  message := "audit \"7\" \u2014 gone"
  metadata := [⟨"trace", [0x31]⟩, ⟨"te", [0x32]⟩, ⟨"trace", [0x33]⟩]

theorem response_missing :
    missing.metadata.IsNamed ∧ (ofStatus missing).response.status = 404 ∧
    Json.parse (ofStatus missing).response.body = .ok (.object [("code", .number (.integer 5)),
      ("message", .string "audit \"7\" \u2014 gone"), ("details", .list [])]) ∧
    (ofStatus missing).response.headers.values "grpc-metadata-trace" = [[0x31], [0x33]] := by
  have hnamed : missing.metadata.IsNamed := by decide
  obtain ⟨hstatus, hbody, _, hcarried, _⟩ := response_ofStatus hnamed
  exact ⟨hnamed, hstatus, hbody, hcarried.values "trace" (by decide) (by decide)⟩

/-- A name of `n` letters. -/
def letters (n : Nat) : String := String.ofList (List.replicate n 'a')

theorem length_letters (n : Nat) : (letters n).length = n := by
  rw [letters, String.length_ofList, List.length_replicate]

theorem mem_letters {n : Nat} {c : Char} (h : c ∈ (letters n).toList) : c = 'a' := by
  rw [letters, String.toList_ofList] at h
  exact List.eq_of_mem_replicate h

theorem name?_letters {n : Nat} (hpos : 0 < n) (hlt : n < 65536) :
    Header.name? (letters n) = some (letters n) := by
  refine Header.name?_eq_self_iff.mpr ⟨⟨?_, ?_, ?_⟩, ?_⟩
  · refine List.all_eq_true.mpr fun c hc => ?_
    rw [mem_letters hc]
    rfl
  · intro hempty
    rw [← length_letters n, hempty] at hpos
    exact absurd hpos (Nat.lt_irrefl 0)
  · rwa [length_letters]
  · refine (List.map_congr_left fun c hc => ?_).trans (List.map_id _)
    rw [mem_letters hc]
    rfl

theorem isForwardable_letters {n : Nat} (h : 17 < n) : isForwardable (letters n) = true := by
  have htail : Header.endsWith "-bin" (letters n) = false := by
    refine Bool.eq_false_iff.mpr fun hends => ?_
    have hmem : '-' ∈ (letters n).toList :=
      (List.isSuffixOf_iff_suffix.mp hends).subset (by decide)
    exact absurd (mem_letters hmem) (by decide)
  have hstart : Header.startsWith "grpc-" (letters n) = false := by
    refine Bool.eq_false_iff.mpr fun hstarts => ?_
    have hmem : 'g' ∈ (letters n).toList :=
      (List.isPrefixOf_iff_prefix.mp hstarts).subset (by decide)
    exact absurd (mem_letters hmem) (by decide)
  have hother : transportNames.contains (letters n) = false := by
    refine Bool.eq_false_iff.mpr fun hcontains => ?_
    have hshort : ∀ name ∈ transportNames, name.length ≤ 17 := by decide
    have hle := hshort _ (List.contains_iff_mem.mp hcontains)
    rw [length_letters] at hle
    omega
  rw [isForwardable, htail, hstart, hother]
  rfl

/-- Values of a name that gets too long behind the start are not on the response. -/
theorem not_carried_of_long :
    ¬ ∀ s : Status, s.metadata.IsNamed → ∀ key, isForwardable key = true →
      (ofStatus s).response.headers.values (headerStart ++ key) = s.metadata.values key := by
  intro h
  have hname : Header.name? (letters 65522) = some (letters 65522) :=
    name?_letters (by omega) (by omega)
  let s : Status := ⟨.notFound, "audit not found", [⟨letters 65522, [0x76]⟩]⟩
  have hs : s.metadata.IsNamed := List.forall_mem_singleton.mpr hname
  have hlong : Header.name? (headerStart ++ letters 65522) = none := by
    rw [Header.name?_append_eq name?_headerStart hname, length_letters]
    exact if_neg (by decide)
  have hvalues := h s hs (letters 65522) (isForwardable_letters (by omega))
  rw [headers_response_ofStatus hs, Headers.values_append, values_forwarded name?_headerStart hs,
    hlong] at hvalues
  have hjson : Headers.json.values (headerStart ++ letters 65522) = [] :=
    Headers.values_eq_nil fun _ hh => json_ne_headerStart hh (letters 65522)
  rw [hjson, Headers.values_singleton] at hvalues
  simp at hvalues

end Failure

end RestGateway
