import RestGateway.Proofs.Metadata.Origin
import RestGateway.Proofs.Text.Blanks
import RestGateway.Proofs.Text.Pieces
import RestGateway.Proofs.Text.Utf8

/-!
# The hosts that a request came through

A list of hosts has them between commas. The client is added at the end of the first list that a
request has got, so no host of this list is lost. A request with several lists keeps only the first.
-/

namespace RestGateway

namespace Address

/-- The characters of hosts in text. -/
def hostChars : List Char := "0123456789abcdef.:".toList

/-- A text of hexadecimal digits, points and colons. -/
def IsHostText (s : String) : Prop := ∀ c ∈ s.toList, c ∈ hostChars

namespace IsHostText

theorem of_all {s : String} (h : s.toList.all (hostChars.contains ·) = true) : IsHostText s :=
  fun c hc => List.contains_iff_mem.mp (List.all_eq_true.mp h c hc)

theorem append {s t : String} (hs : IsHostText s) (ht : IsHostText t) : IsHostText (s ++ t) := by
  intro c hc
  rw [String.toList_append, List.mem_append] at hc
  exact hc.elim (hs c) (ht c)

theorem intercalate {separator : String} (h : IsHostText separator) {texts : List String}
    (ht : ∀ s ∈ texts, IsHostText s) : IsHostText (separator.intercalate texts) := by
  induction texts with
  | nil => exact fun _ hc => absurd hc List.not_mem_nil
  | cons s rest ih =>
      have hs := ht s List.mem_cons_self
      cases rest with
      | nil => rwa [String.intercalate_singleton]
      | cons next rest =>
          rw [String.intercalate_cons_cons]
          exact (hs.append h).append (ih fun t hm => ht t (List.mem_cons_of_mem s hm))

theorem toDigits {base : Nat} (hlow : 1 < base) (hhigh : base ≤ 16) (n : Nat) :
    IsHostText (String.ofList (Nat.toDigits base n)) := by
  have hdigit : ∀ d < 16, Nat.digitChar d ∈ hostChars := by decide
  rw [IsHostText, String.toList_ofList]
  induction n using Nat.strongRecOn with
  | _ n ih =>
      intro c hc
      rw [Nat.toDigits_eq_if hlow] at hc
      split at hc
      · rename_i hn
        exact List.mem_singleton.mp hc ▸ hdigit n (by omega)
      · rename_i hn
        have hmod : n % base < base := Nat.mod_lt n (by omega)
        rcases List.mem_append.mp hc with hc | hc
        · exact ih (n / base) (Nat.div_lt_self (by omega) hlow) c hc
        · exact List.mem_singleton.mp hc ▸ hdigit (n % base) (by omega)

end IsHostText

theorem isHostText_showV4 (a b c d : UInt8) : IsHostText (showV4 a b c d) := by
  have hpoint : IsHostText "." := .of_all (by decide)
  have hnumber : ∀ n : Nat, IsHostText (toString n) := .toDigits (by decide) (by decide)
  have hfirst := ((hnumber a.toNat).append hpoint).append (hnumber b.toNat)
  exact (((hfirst.append hpoint).append (hnumber c.toNat)).append hpoint).append (hnumber d.toNat)

theorem isHostText_showGroups (groups : List UInt16) : IsHostText (showGroups groups) := by
  apply IsHostText.intercalate (.of_all (by decide))
  intro s hs
  obtain ⟨g, _, rfl⟩ := List.mem_map.mp hs
  exact .toDigits (by decide) (by decide) g.toNat

/-- The text of a host has no other characters. -/
theorem isHostText_describe (host : Host) : IsHostText host.describe := by
  cases host with
  | v4 a b c d => exact isHostText_showV4 a b c d
  | v6 groups =>
      have hstart : IsHostText "::ffff:" := .of_all (by decide)
      have hgap : IsHostText "::" := .of_all (by decide)
      simp only [Host.describe]
      unfold showV6
      split
      · exact hstart.append (isHostText_showV4 _ _ _ _)
      · dsimp only
        split
        · exact ((isHostText_showGroups _).append hgap).append (isHostText_showGroups _)
        · exact isHostText_showGroups _

end Address

namespace Metadata

variable {r : Request} {address : Address}

/-- The hosts of a list: what stands between its commas, without blanks around it. -/
def hops (value : Bytes) : List Bytes := (pieces 0x2C value).map Bytes.trim

theorem of_mem_clientOf {b : UInt8} (h : b ∈ clientOf address) :
    b ≠ 0x2C ∧ Ascii.isBlank b = false := by
  have hchars : (Address.hostChars.flatMap Utf8.encodeChar).all
      (fun b => b != 0x2C && !Ascii.isBlank b) = true := by decide
  rw [clientOf, Utf8.encode_eq_flatMap] at h
  obtain ⟨c, hc, hb⟩ := List.mem_flatMap.mp h
  have hchar := Address.isHostText_describe address.host c hc
  simpa using List.all_eq_true.mp hchars b (List.mem_flatMap.mpr ⟨c, hchar, hb⟩)

theorem hops_clientOf (address : Address) : hops (clientOf address) = [clientOf address] := by
  have hcomma : 0x2C ∉ clientOf address := fun h => (of_mem_clientOf h).1 rfl
  rw [hops, pieces_of_not_mem hcomma, List.map_singleton,
    Bytes.trim_eq_self fun b hb => (of_mem_clientOf hb).2]

/-- A list with the client behind it has the hosts that it had, and then the client. -/
theorem hops_append_clientOf (earlier : Bytes) (address : Address) :
    hops (earlier ++ Utf8.encode ", " ++ clientOf address) =
      hops earlier ++ [clientOf address] := by
  have hcomma : 0x2C ∉ 0x20 :: clientOf address := by
    rw [List.mem_cons, not_or]
    exact ⟨by decide, fun h => (of_mem_clientOf h).1 rfl⟩
  have hcut : earlier ++ Utf8.encode ", " ++ clientOf address =
      earlier ++ 0x2C :: 0x20 :: clientOf address := List.append_assoc _ _ _
  rw [hops, hcut, pieces_append, List.map_append, pieces_of_not_mem hcomma, List.map_singleton,
    Bytes.trim_cons_blank (by decide), Bytes.trim_eq_self fun b hb => (of_mem_clientOf hb).2]
  rfl

/-- The list that a request has got first is kept, with the client behind it. -/
theorem hopsOf?_of_values {lists : List Bytes} (hremote : r.remote = some address)
    (hlists : r.headers.values forwardedFor = lists)
    (htext : ∀ value ∈ lists, value.all Text.isHeaderText = true) :
    hopsOf? r = some (lists.head?.elim (clientOf address) fun earlier =>
      earlier ++ Utf8.encode ", " ++ clientOf address) := by
  cases lists with
  | nil => simp only [hopsOf?, Headers.get?, hlists, hremote]; rfl
  | cons first others =>
      have hfirst := htext first List.mem_cons_self
      simp only [hopsOf?, Headers.get?, hlists, hremote, List.head?_cons, hfirst, if_true]
      rfl

/-- If the address of the client is known and the lists of hosts that the request has got can be
read, the metadata has one list, with the hosts of the first of them in order and then the client.
All hosts of all lists are in it exactly if there is no second list. -/
theorem annotate_hops (hremote : r.remote = some address)
    (htext : ∀ value ∈ r.headers.values forwardedFor, value.all Text.isHeaderText = true) :
    ∃ hosts, (annotate r).values forwardedFor = [hosts] ∧
      hops hosts =
        (r.headers.values forwardedFor).head?.toList.flatMap hops ++ [clientOf address] ∧
      (hops hosts = (r.headers.values forwardedFor).flatMap hops ++ [clientOf address] ↔
        (r.headers.values forwardedFor).length ≤ 1) := by
  generalize hlists : r.headers.values forwardedFor = lists at htext ⊢
  refine ⟨_, values_annotate_forwardedFor (hopsOf?_of_values hremote hlists htext), ?_⟩
  cases lists with
  | nil => simp [hops_clientOf]
  | cons first others =>
      have hhops := hops_append_clientOf first address
      refine ⟨by simpa using hhops, ?_⟩
      rw [List.head?_cons, Option.elim_some, hhops, List.flatMap_cons, List.append_left_inj,
        List.self_eq_append_right, List.length_cons]
      cases others with
      | nil => simp
      | cons second others => simp [hops, pieces_ne_nil]

/-- A request that came through two hosts, each of which has put itself on a list of its own. -/
def relayed : Request where
  uri := ⟨none, Utf8.encode "/ping", none⟩
  headers := [⟨forwardedFor, Utf8.encode "1.2.3.4"⟩, ⟨forwardedFor, Utf8.encode "5.6.7.8"⟩]
  remote := some ⟨.v4 10 0 0 7, 0, 4000⟩

theorem annotate_relayed :
    (∀ value ∈ relayed.headers.values forwardedFor, value.all Text.isHeaderText = true) ∧
    ∃ hosts, (annotate relayed).values forwardedFor = [hosts] ∧
      hops hosts = [Utf8.encode "1.2.3.4", Utf8.encode "10.0.0.7"] := by
  have htext : ∀ value ∈ relayed.headers.values forwardedFor,
      value.all Text.isHeaderText = true := by decide
  obtain ⟨hosts, hvalues, hhops, _⟩ := annotate_hops (r := relayed) rfl htext
  exact ⟨htext, hosts, hvalues, hhops.trans (by decide)⟩

/-- A host on a second list is lost. -/
theorem not_listed_of_two_lists :
    ¬ ∀ (r : Request) (address : Address), r.remote = some address →
      (∀ value ∈ r.headers.values forwardedFor, value.all Text.isHeaderText = true) →
      ∃ hosts, (annotate r).values forwardedFor = [hosts] ∧
        hops hosts = (r.headers.values forwardedFor).flatMap hops ++ [clientOf address] := by
  intro h
  obtain ⟨hosts, hvalues, hhops⟩ := h relayed _ rfl (by decide)
  have hsent : (annotate relayed).values forwardedFor = [Utf8.encode "1.2.3.4, 10.0.0.7"] := by
    decide
  cases hvalues.symm.trans hsent
  exact absurd hhops (by decide)

end Metadata

end RestGateway
