import RestGateway.Proofs.Metadata.Annotate

/-!
# Where a request came from and went to

A service trusts two names of metadata, which tell it what host a request was sent to and which
hosts it came through. The gateway sets them in the place of whatever the client marked. If the
address of the client is known, it stands at the end of the hosts.
-/

namespace RestGateway

namespace Uri

theorem isValueByte_of_isAuthorityByte {b : UInt8} (h : isAuthorityByte b = true) :
    Header.isValueByte b = true := by
  simp only [isAuthorityByte, Ascii.isAlphanumeric, Ascii.isDigit, Ascii.isUpper, Ascii.isLower,
    Header.isValueByte, Bool.or_eq_true, Bool.and_eq_true, decide_eq_true_eq, beq_iff_eq,
    bne_iff_ne, List.contains_iff_mem, List.mem_cons, List.not_mem_nil, or_false,
    UInt8.le_iff_toNat_le, ← UInt8.toNat_inj, ne_eq] at h ⊢
  simp only [UInt8.reduceToNat] at h ⊢
  omega

theorem isValueByte_of_step {state state' : AuthorityState} {b : UInt8}
    (h : state.step b = some state') : Header.isValueByte b = true := by
  have hmarks : [0x3A, 0x5B, 0x5D, 0x40, 0x25].all Header.isValueByte = true := by decide
  by_cases hb : b ∈ [0x3A, 0x5B, 0x5D, 0x40, 0x25]
  · exact List.all_eq_true.mp hmarks b hb
  · simp only [List.mem_cons, List.not_mem_nil, or_false, not_or] at hb
    obtain ⟨hcolon, hopen, hclose, hat, hpercent⟩ := hb
    simp only [AuthorityState.step, beq_iff_eq, hcolon, hopen, hclose, hat, hpercent, if_false] at h
    split at h
    · rename_i hauthority
      exact isValueByte_of_isAuthorityByte hauthority
    · cases h

/-- An authority may stand in a header. -/
theorem value?_of_isAuthority {s : Bytes} (h : isAuthority s = true) :
    Header.value? s = some s := by
  have hbytes : ∀ (s : Bytes) (state state' : AuthorityState),
      s.foldlM AuthorityState.step state = some state' → ∀ b ∈ s, Header.isValueByte b = true := by
    intro s
    induction s with
    | nil => exact fun _ _ _ _ hb => absurd hb List.not_mem_nil
    | cons a s ih =>
        intro state state' hfold b hb
        obtain ⟨next, hstep, hrest⟩ := Option.bind_eq_some_iff.mp hfold
        rcases List.mem_cons.mp hb with rfl | hb
        · exact isValueByte_of_step hstep
        · exact ih next state' hrest b hb
  unfold isAuthority at h
  split at h
  · cases h
  · rename_i state' hfold
    exact if_pos (List.all_eq_true.mpr (hbytes s {} state' hfold))

/-- What is read as the authority of a target is one. -/
theorem isAuthority_of_parse? {s : Bytes} {uri : Uri} (h : parse? s = some uri) {authority : Bytes}
    (ha : uri.authority = some authority) : isAuthority authority = true := by
  unfold parse? at h
  split at h
  · cases h
  · split at h
    · cases h
      cases ha
    · split at h
      · obtain ⟨_, _, rfl⟩ := Option.map_eq_some_iff.mp h
        cases ha
      · split at h
        · cases h
        · split at h
          · rename_i hs
            cases h
            cases ha
            exact (Bool.and_eq_true_iff.mp hs).1
          · cases h
        · dsimp only at h
          split at h
          · cases h
          · rename_i hs
            obtain ⟨_, _, rfl⟩ := Option.map_eq_some_iff.mp h
            cases ha
            rw [Bool.or_eq_true, not_or, Bool.not_eq_true', Bool.not_eq_false] at hs
            exact hs.2

end Uri

namespace Metadata

variable {r : Request} {value : Bytes}

/-- The address of a client, as it is passed on. -/
def clientOf (address : Address) : Bytes := Utf8.encode address.host.describe

theorem hopsOf?_of_remote {address : Address} (h : r.remote = some address) :
    hopsOf? r = some (clientOf address) ∨
      ∃ earlier, r.headers.get? forwardedFor = some earlier ∧
        hopsOf? r = some (earlier ++ Utf8.encode ", " ++ clientOf address) := by
  unfold hopsOf?
  cases hearlier : r.headers.get? forwardedFor with
  | none => simp [h, clientOf]
  | some earlier =>
      by_cases htext : earlier.all Text.isHeaderText = true
      · exact Or.inr ⟨earlier, rfl, by simp only [h, htext, if_true, clientOf]⟩
      · exact Or.inl (by simp only [h, htext, clientOf]; rfl)

theorem values_annotate_forwardedFor (h : hopsOf? r = some value) :
    (annotate r).values forwardedFor = [value] := by
  rw [annotate, h]
  exact Headers.values_set_self _ _ _

theorem values_annotate_forwardedHost (h : hostOf? r = some value) :
    (annotate r).values forwardedHost = [value] := by
  have hother : forwardedHost ≠ forwardedFor := by decide
  rw [annotate, values_setIfSome_of_ne hother, h]
  exact Headers.values_set_self _ _ _

/-- The host of a request is the first of the forwarded host, the host header and the authority of
its target. -/
theorem hostOf?_eq_head?
    (h : ∀ authority, r.uri.authority = some authority → Uri.isAuthority authority = true) :
    hostOf? r = (r.headers.values forwardedHost ++ r.headers.values "host" ++
      r.uri.authority.toList).head? := by
  have hauthority : r.uri.authority.bind Header.value? = r.uri.authority.toList.head? := by
    cases ha : r.uri.authority with
    | none => rfl
    | some authority => exact Uri.value?_of_isAuthority (h authority ha)
  rw [hostOf?, hauthority, List.append_assoc, List.head?_append, List.head?_append]
  rfl

/-- Where a request came from and went to cannot be made up by what a client marks. If the address
of the client is known, there is one list of hosts that the request came through, which is the
client alone or has it at the end, and depends on nothing else than the list that the request has
got and the client. There is one host that the request was sent to, if it names any: the first of
the forwarded host, the host header and the authority of the target. -/
theorem annotate_origin (r : Request) :
    (∀ address, r.remote = some address →
      ∃ hosts, (annotate r).values forwardedFor = [hosts] ∧
        (hosts = clientOf address ∨
          ∃ earlier, hosts = earlier ++ Utf8.encode ", " ++ clientOf address) ∧
        ∀ r' : Request, r'.remote = r.remote →
          r'.headers.values forwardedFor = r.headers.values forwardedFor →
          (annotate r').values forwardedFor = [hosts]) ∧
    ((∀ authority, r.uri.authority = some authority → Uri.isAuthority authority = true) →
      ∀ host others, r.headers.values forwardedHost ++ r.headers.values "host" ++
          r.uri.authority.toList = host :: others →
        (annotate r).values forwardedHost = [host]) := by
  constructor
  · intro address hremote
    obtain ⟨hosts, hhosts, hend⟩ : ∃ hosts, hopsOf? r = some hosts ∧ (hosts = clientOf address ∨
        ∃ earlier, hosts = earlier ++ Utf8.encode ", " ++ clientOf address) := by
      rcases hopsOf?_of_remote hremote with hclient | ⟨earlier, _, hboth⟩
      · exact ⟨_, hclient, Or.inl rfl⟩
      · exact ⟨_, hboth, Or.inr ⟨earlier, rfl⟩⟩
    refine ⟨hosts, values_annotate_forwardedFor hhosts, hend, fun r' hremote' hvalues => ?_⟩
    apply values_annotate_forwardedFor
    rw [← hhosts, hopsOf?, hopsOf?, hremote', Headers.get?, Headers.get?, hvalues]
  · intro hauthority host others hnames
    apply values_annotate_forwardedHost
    rw [hostOf?_eq_head? hauthority, hnames]
    rfl

/-- A request whose client marks both names, and whose target names its host. -/
def pretending : Request where
  uri := ⟨some (Utf8.encode "sso.local:80"), Utf8.encode "/ping", none⟩
  headers := [⟨marking forwardedFor, Utf8.encode "6.6.6.6"⟩, ⟨forwardedFor, [0xFF]⟩,
    ⟨marking forwardedHost, Utf8.encode "made.up"⟩]
  remote := some ⟨.v4 10 0 0 7, 0, 4000⟩

theorem annotate_pretending :
    Uri.parse? (Utf8.encode "http://sso.local:80/ping") = some pretending.uri ∧
    (∃ hosts, (annotate pretending).values forwardedFor = [hosts] ∧
      (annotate { pretending with headers := [⟨forwardedFor, [0xFF]⟩] }).values forwardedFor =
        [hosts]) ∧
    (annotate pretending).values forwardedHost = [Utf8.encode "sso.local:80"] := by
  have hparse : Uri.parse? (Utf8.encode "http://sso.local:80/ping") = some pretending.uri := by
    decide
  obtain ⟨hfor, hhost⟩ := annotate_origin pretending
  obtain ⟨hosts, hhosts, _, hsame⟩ := hfor ⟨.v4 10 0 0 7, 0, 4000⟩ rfl
  refine ⟨hparse, ⟨hosts, hhosts, hsame _ rfl (by decide)⟩, ?_⟩
  exact hhost (fun _ => Uri.isAuthority_of_parse? hparse) _ [] (by decide)

/-- The client takes the place of what cannot be read, and what is marked does not count. -/
example : (annotate pretending).values forwardedFor = [Utf8.encode "10.0.0.7"] := by decide

end Metadata

end RestGateway
