import Ferventio.Domain
import Ferventio.Lib.Netip

/-!
# Outbound requests

`security/outbound.go`: push endpoints are chosen by clients, so the server resolves their hosts
itself, rejects a host with an address that is not public, and dials only what it has checked.
An IPv6 address may stand for an IPv4 address in several forms, each at its own bits (`Form`). The
policy unmaps the mapped form and rejects the ranges of three others, but not the compatible form in
`::/96`.

* **`outbound_public_iff`**: when only public addresses are returned and dialled.
-/

namespace Ferventio

open Strings Netip List

variable {result : List Addr} {γ : Type}

/-! ## The code -/

/-- The ranges that are refused. -/
def disallowedPublicEndpointPrefixes : List Netip.Prefix :=
  [.v4 (octets 0 0 0 0) 8, .v4 (octets 100 64 0 0) 10, .v4 (octets 192 0 0 0) 24,
    .v4 (octets 192 0 2 0) 24,
    .v4 (octets 198 18 0 0) 15,
    .v4 (octets 198 51 100 0) 24,
    .v4 (octets 203 0 113 0) 24,
    .v4 (octets 240 0 0 0) 4,
    .v6 (groups [0x64, 0xff9b]) 96,
    .v6 (groups [0x64, 0xff9b, 1]) 48,
    .v6 (groups [0x2001]) 32,
    .v6 (groups [0x2001, 0xdb8]) 32,
    .v6 (groups [0x2002]) 16,
    .v6 (groups [0xfec0]) 10]

/-- The zero `netip.Addr` is no value of `Addr`. -/
def isPublicOutboundAddr (address : Addr) : Bool :=
  if address.zone != "" || !address.isGlobalUnicast || address.isPrivate || address.isLoopback ||
      address.isLinkLocalUnicast || address.isMulticast || address.isUnspecified then false
  else disallowedPublicEndpointPrefixes.all fun disallowed => !disallowed.contains address

/-- The loop over the resolver's answer. -/
def checkAnswers : List Addr → Result (List Addr)
  | [] => .ok []
  | address :: addresses =>
    let address := address.unmap
    if !isPublicOutboundAddr address then
      .error (.plain ("outbound host resolved to disallowed address " ++ address.string))
    else (checkAnswers addresses).map (address :: ·)

/-- `lookupNetIP` is the resolver. -/
def resolvePublicOutboundAddrs (lookupNetIP : String → Result (List Addr)) (host : String) :
    Result (List Addr) :=
  let host := trimSet "[]" (trimSpace host)
  match parseAddr host with
  | some address =>
    let address := address.unmap
    if !isPublicOutboundAddr address then .error (.plain "outbound address is not public")
    else .ok [address]
  | none =>
    match lookupNetIP host with
    | .error err => .error (.wrapped "resolve outbound host" err)
    | .ok [] => .error (.plain "outbound host did not resolve")
    | .ok addresses => checkAnswers addresses

section Dial

variable {γ : Type} (dial : Addr → Result γ) (network : String)

/-- What the loop of `DialContext` returns, and dials. -/
def dialCandidates : List Addr → Option GoError → Result γ × List Addr
  | [], lastErr =>
    (.error (lastErr.getD (.plain "no compatible public address was resolved")), [])
  | candidate :: candidates, lastErr =>
    if network.toList.getLast? = some '4' ∧ !candidate.is4 ∨
        network.toList.getLast? = some '6' ∧ !candidate.is6 then
      dialCandidates candidates lastErr
    else
      match dial candidate with
      | .ok connection => (.ok connection, [candidate])
      | .error err =>
        let (result, dialed) := dialCandidates candidates (some err)
        (result, candidate :: dialed)

/-- `DialContext` for a host and a port. -/
def dialContext (lookupNetIP : String → Result (List Addr)) (host : String) :
    Result γ × List Addr :=
  match resolvePublicOutboundAddrs lookupNetIP host with
  | .error err => (.error err, [])
  | .ok candidates => dialCandidates dial network candidates none

end Dial

/-! ## Public addresses -/

/-- The IPv4 ranges that no request may reach. -/
def reservedRanges : List Netip.Prefix :=
  [.v4 (octets 0 0 0 0) 8, .v4 (octets 10 0 0 0) 8, .v4 (octets 100 64 0 0) 10,
    .v4 (octets 127 0 0 0) 8, .v4 (octets 169 254 0 0) 16, .v4 (octets 172 16 0 0) 12,
    .v4 (octets 192 0 0 0) 24, .v4 (octets 192 0 2 0) 24, .v4 (octets 192 168 0 0) 16,
    .v4 (octets 198 18 0 0) 15, .v4 (octets 198 51 100 0) 24, .v4 (octets 203 0 113 0) 24,
    .v4 (octets 224 0 0 0) 4, .v4 (octets 240 0 0 0) 4]

/-- The address is not public. -/
def Reserved (bits : BitVec 32) : Prop := ∃ range ∈ reservedRanges, range.contains (.v4 bits)

/-- Loopback, unspecified, local and multicast. -/
def reservedRanges6 : List Netip.Prefix :=
  [.v6 1 128, .v6 0 128, .v6 (groups [0xfc00]) 7, .v6 (groups [0xfe80]) 10,
    .v6 (groups [0xfec0]) 10, .v6 (groups [0xff00]) 8]

/-- How an IPv6 address stands for an IPv4 one. A Teredo address has two: the server's, and the
client's with its bits inverted. -/
inductive Form
  | mapped
  | compatible
  | nat64
  | sixToFour
  | teredoServer
  | teredoClient
deriving DecidableEq

namespace Form

/-- The addresses of the form. -/
def range : Form → Netip.Prefix
  | mapped => .v6 (groups [0, 0, 0, 0, 0, 0xffff]) 96
  | compatible => .v6 0 96
  | nat64 => .v6 (groups [0x64, 0xff9b]) 96
  | sixToFour => .v6 (groups [0x2002]) 16
  | teredoServer | teredoClient => .v6 (groups [0x2001]) 32

/-- The IPv4 address that it stands for. -/
def embedded : Form → BitVec 128 → BitVec 32
  | mapped, bits | compatible, bits | nat64, bits => bits.setWidth 32
  | sixToFour, bits => (bits >>> 80).setWidth 32
  | teredoServer, bits => (bits >>> 64).setWidth 32
  | teredoClient, bits => ~~~bits.setWidth 32

/-- The address is of this form, and stands for a reserved one. -/
def Hides (form : Form) (bits : BitVec 128) : Prop :=
  Addr.inRange bits form.range ∧ Reserved (form.embedded bits)

end Form

/-- The endpoint is public, whatever it embeds. -/
def Public : Addr → Prop
  | .v4 bits => ¬Reserved bits
  | .v6 bits _ =>
    (∀ range ∈ reservedRanges6, Addr.inRange bits range = false) ∧ ∀ form : Form, ¬form.Hides bits

/-- It embeds a reserved address. -/
def HiddenCompatible : Addr → Prop
  | .v4 _ => False
  | .v6 bits _ => Form.compatible.Hides bits

/-! ## What the policy admits -/

/-- The checks that it passes. -/
structure Checked (address : Addr) : Prop where
  zone : address.zone = ""
  notPrivate : address.isPrivate = false
  notLoopback : address.isLoopback = false
  notLinkLocal : address.isLinkLocalUnicast = false
  notMulticast : address.isMulticast = false
  notUnspecified : address.isUnspecified = false
  outside : ∀ disallowed ∈ disallowedPublicEndpointPrefixes, disallowed.contains address = false

variable {address : Addr}

theorem checked_of_isPublicOutboundAddr (h : isPublicOutboundAddr address) : Checked address := by
  unfold isPublicOutboundAddr at h
  split_ifs at h with hbad
  simp only [Bool.or_eq_true, not_or, Bool.not_eq_true, bne_eq_false_iff_eq] at hbad
  obtain ⟨⟨⟨⟨⟨⟨hzone, -⟩, hpriv⟩, hloopback⟩, hlinkLocal⟩, hmulticast⟩, hunspecified⟩ := hbad
  refine ⟨hzone, hpriv, hloopback, hlinkLocal, hmulticast, hunspecified, ?_⟩
  intro disallowed hmem
  have hout := all_eq_true.mp h disallowed hmem
  rwa [Bool.not_eq_true'] at hout

theorem reserved_listed_or_documented :
    ∀ range ∈ reservedRanges, range ∈ disallowedPublicEndpointPrefixes ∨
      range = .v4 (octets 10 0 0 0) 8 ∨ range = .v4 (octets 172 16 0 0) 12 ∨
      range = .v4 (octets 192 168 0 0) 16 ∨ range = .v4 (octets 127 0 0 0) 8 ∨
      range = .v4 (octets 169 254 0 0) 16 ∨ range = .v4 (octets 224 0 0 0) 4 := by
  decide

theorem Checked.not_reserved {bits : BitVec 32} (h : Checked (.v4 bits)) : ¬Reserved bits := by
  rintro ⟨range, hmem, hcont⟩
  have hpriv := h.notPrivate
  simp only [Addr.isPrivate, Addr.unmap, Bool.or_eq_false_iff] at hpriv
  rcases reserved_listed_or_documented range hmem with
    hlist | rfl | rfl | rfl | rfl | rfl | rfl
  · rw [h.outside range hlist] at hcont
    cases hcont
  · rw [hpriv.1.1] at hcont
    cases hcont
  · rw [hpriv.1.2] at hcont
    cases hcont
  · rw [hpriv.2] at hcont
    cases hcont
  · exact Bool.false_ne_true (h.notLoopback.symm.trans hcont)
  · exact Bool.false_ne_true (h.notLinkLocal.symm.trans hcont)
  · exact Bool.false_ne_true (h.notMulticast.symm.trans hcont)

theorem inRange_single (bits address : BitVec 128) :
    Addr.inRange bits (.v6 address 128) ↔ bits = address := by
  simp only [Addr.inRange, Netip.Prefix.contains, BEq.rfl, Bool.true_and, beq_iff_eq]
  rw [show 128 - (128 : Fin 129).val = 0 from rfl, BitVec.ushiftRight_zero]
  exact BitVec.xor_eq_zero_iff

theorem inRange_mapped (bits : BitVec 128) :
    Addr.inRange bits Form.mapped.range ↔ bits >>> 32 = 0xffff := by
  simp only [Addr.inRange, Form.range, Netip.Prefix.contains, BEq.rfl, Bool.true_and, beq_iff_eq]
  rw [show 128 - (96 : Fin 129).val = 32 from rfl, BitVec.ushiftRight_xor_distrib,
    show groups [0, 0, 0, 0, 0, 0xffff] >>> 32 = 0xffff by decide]
  exact BitVec.xor_eq_zero_iff

theorem unmap_v6 {bits : BitVec 128} {zone : String}
    (h : address.unmap = .v6 bits zone) : bits >>> 32 ≠ 0xffff := by
  cases address with
  | v4 => cases h
  | v6 =>
    simp only [Addr.unmap] at h
    split_ifs at h with hmapped
    cases h
    exact hmapped

section V6

variable {bits : BitVec 128} {zone : String}

theorem Checked.outside6 (h : Checked (.v6 bits zone)) {range : Netip.Prefix}
    (hlist : range ∈ disallowedPublicEndpointPrefixes) : Addr.inRange bits range = false := by
  have hzone : zone = "" := h.zone
  subst hzone
  exact h.outside range hlist

theorem Checked.not_reserved6 (h : Checked (.v6 bits zone)) (hunmapped : bits >>> 32 ≠ 0xffff)
    {range : Netip.Prefix} (hmem : range ∈ reservedRanges6) : Addr.inRange bits range = false := by
  have hzone : zone = "" := h.zone
  subst hzone
  have hunmap : (Addr.v6 bits "").unmap = .v6 bits "" := if_neg hunmapped
  have hpriv := h.notPrivate
  have hloopback := h.notLoopback
  have hlinkLocal := h.notLinkLocal
  have hmulticast := h.notMulticast
  simp only [Addr.isPrivate, Addr.isLoopback, Addr.isLinkLocalUnicast, Addr.isMulticast,
    hunmap] at hpriv hloopback hlinkLocal hmulticast
  simp only [reservedRanges6, mem_cons, not_mem_nil, or_false] at hmem
  rcases hmem with rfl | rfl | rfl | rfl | rfl | rfl
  · rw [← Bool.not_eq_true, inRange_single]
    rintro rfl
    cases hloopback
  · rw [← Bool.not_eq_true, inRange_single]
    rintro rfl
    cases h.notUnspecified
  · exact hpriv
  · exact hlinkLocal
  · exact h.outside6 (by decide)
  · exact hmulticast

theorem Checked.not_hides (h : Checked (.v6 bits zone)) (hunmapped : bits >>> 32 ≠ 0xffff)
    {form : Form} (hhides : form.Hides bits) : form = .compatible := by
  by_contra hform
  have hrange := hhides.1
  cases form with
  | mapped => exact hunmapped ((inRange_mapped bits).mp hrange)
  | compatible => exact hform rfl
  | nat64 | sixToFour | teredoServer | teredoClient =>
    rw [h.outside6 (by decide)] at hrange
    cases hrange

end V6

/-- **What the policy admits** is public, but for the compatible form. -/
theorem public_of_isPublicOutboundAddr
    (h : isPublicOutboundAddr address.unmap) (hhidden : ¬HiddenCompatible address.unmap) :
    Public address.unmap := by
  have hcheck := checked_of_isPublicOutboundAddr h
  cases hunmap : address.unmap with
  | v4 =>
    rw [hunmap] at hcheck
    exact hcheck.not_reserved
  | v6 =>
    rw [hunmap] at hcheck hhidden
    have hunmapped := unmap_v6 hunmap
    refine ⟨fun range hmem => hcheck.not_reserved6 hunmapped hmem, fun form hhides => ?_⟩
    rw [hcheck.not_hides hunmapped hhides] at hhides
    exact hhidden hhides

theorem HiddenCompatible.not_public (h : HiddenCompatible address) : ¬Public address := by
  cases address with
  | v4 => cases h
  | v6 => exact fun hpub => hpub.2 .compatible h

/-! ## The lookup -/

section Lookup

variable {lookupNetIP : String → Result (List Addr)} {host : String}

/-- The address that the host spells, or the resolver's answer. -/
def answersFor (lookupNetIP : String → Result (List Addr)) (host : String) : List Addr :=
  let host := trimSet "[]" (trimSpace host)
  match parseAddr host with
  | some address => [address]
  | none => (lookupNetIP host).toOption.getD []

theorem checkAnswers_ok_iff {addresses : List Addr} :
    checkAnswers addresses = .ok result ↔
      result = addresses.map Addr.unmap ∧
        ∀ address ∈ addresses, isPublicOutboundAddr address.unmap := by
  induction addresses generalizing result with
  | nil =>
    simp only [checkAnswers, map_nil, not_mem_nil, false_imp_iff, implies_true, and_true,
      Except.ok.injEq]
    exact eq_comm
  | cons address addresses ih =>
    by_cases hpub : isPublicOutboundAddr address.unmap
    · simp only [checkAnswers, hpub, Bool.not_true, Bool.false_eq_true, if_false,
        map_cons, forall_mem_cons, true_and]
      cases hrest : checkAnswers addresses with
      | error =>
        constructor
        · intro h
          cases h
        · rintro ⟨-, hall⟩
          rw [(ih.mpr ⟨rfl, hall⟩)] at hrest
          cases hrest
      | ok =>
        obtain ⟨rfl, hall⟩ := ih.mp hrest
        constructor
        · intro h
          cases h
          exact ⟨rfl, hall⟩
        · rintro ⟨rfl, -⟩
          rfl
    · constructor
      · intro h
        rw [Bool.not_eq_true] at hpub
        simp only [checkAnswers, hpub, Bool.not_false, if_true] at h
        cases h
      · rintro ⟨-, hall⟩
        exact absurd (hall address mem_cons_self) hpub

theorem resolvePublicOutboundAddrs_ok_iff :
    resolvePublicOutboundAddrs lookupNetIP host = .ok result ↔
      answersFor lookupNetIP host ≠ [] ∧ result = (answersFor lookupNetIP host).map Addr.unmap ∧
        ∀ address ∈ answersFor lookupNetIP host, isPublicOutboundAddr address.unmap := by
  unfold resolvePublicOutboundAddrs answersFor
  cases hparse : parseAddr (trimSet "[]" (trimSpace host)) with
  | some address =>
    simp only [hparse, ne_eq, reduceCtorEq, not_false_eq_true, true_and, map_cons,
      map_nil, forall_mem_singleton]
    by_cases hpub : isPublicOutboundAddr address.unmap
    · simp only [hpub, Bool.not_true, Bool.false_eq_true, if_false, Except.ok.injEq, and_true]
      exact eq_comm
    · simp [hpub]
  | none =>
    simp only [hparse]
    cases hget : lookupNetIP (trimSet "[]" (trimSpace host)) with
    | error => simp [Except.toOption]
    | ok addresses =>
      cases addresses with
      | nil => simp [Except.toOption]
      | cons =>
        simp only [Except.toOption, Option.getD_some, ne_eq, reduceCtorEq, not_false_eq_true,
          true_and]
        exact checkAnswers_ok_iff

section Dialed

variable {γ : Type} {dial : Addr → Result γ} {network : String}

theorem mem_of_mem_dialCandidates {candidates : List Addr} {lastErr : Option GoError}
    (h : address ∈ (dialCandidates dial network candidates lastErr).2) :
    address ∈ candidates := by
  induction candidates generalizing lastErr with
  | nil => exact h
  | cons candidate candidates ih =>
    rw [dialCandidates] at h
    split_ifs at h
    · exact mem_cons_of_mem _ (ih h)
    · split at h
      · rw [mem_singleton] at h
        rw [h]
        exact mem_cons_self
      · rcases mem_cons.mp h with rfl | h
        · exact mem_cons_self
        · exact mem_cons_of_mem _ (ih h)

theorem mem_of_dialed (h : address ∈ (dialContext dial network lookupNetIP host).2) :
    ∃ candidates, resolvePublicOutboundAddrs lookupNetIP host = .ok candidates ∧
      address ∈ candidates := by
  unfold dialContext at h
  cases hres : resolvePublicOutboundAddrs lookupNetIP host with
  | error =>
    rw [hres] at h
    cases h
  | ok candidates =>
    rw [hres] at h
    exact ⟨candidates, rfl, mem_of_mem_dialCandidates h⟩

end Dialed

/-- Only public addresses are returned and dialled; another makes the lookup fail. -/
structure OnlyPublic {γ : Type} (dial : Addr → Result γ) (network : String)
    (lookupNetIP : String → Result (List Addr)) (host : String) : Prop where
  returned : ∀ {result}, resolvePublicOutboundAddrs lookupNetIP host = .ok result →
    ∀ address ∈ result, Public address
  dialed : ∀ address ∈ (dialContext dial network lookupNetIP host).2, Public address
  rejected : ∀ address ∈ answersFor lookupNetIP host, ¬Public address.unmap →
    ∃ err, resolvePublicOutboundAddrs lookupNetIP host = .error err

theorem OnlyPublic.of_returned {dial : Addr → Result γ} {network : String}
    (h : ∀ {result}, resolvePublicOutboundAddrs lookupNetIP host = .ok result →
      ∀ address ∈ result, Public address) : OnlyPublic dial network lookupNetIP host := by
  refine ⟨h, ?_, ?_⟩
  · intro address hdialed
    obtain ⟨candidates, hres, hmem⟩ := mem_of_dialed hdialed
    exact h hres address hmem
  · intro address hmem hbad
    cases hres : resolvePublicOutboundAddrs lookupNetIP host with
    | error err => exact ⟨err, rfl⟩
    | ok =>
      have hresult := (resolvePublicOutboundAddrs_ok_iff.mp hres).2.1
      refine absurd (h hres address.unmap ?_) hbad
      rw [hresult]
      exact mem_map_of_mem hmem

end Lookup

/-- **Only public addresses are reached** exactly when some address fails the policy, or none of
them hides a reserved IPv4 address in the compatible form. -/
theorem outbound_public_iff (dial : Addr → Result γ) (network : String)
    (lookupNetIP : String → Result (List Addr)) (host : String) :
    OnlyPublic dial network lookupNetIP host ↔
      (∃ address ∈ answersFor lookupNetIP host, isPublicOutboundAddr address.unmap = false) ∨
        ∀ address ∈ answersFor lookupNetIP host, ¬HiddenCompatible address.unmap := by
  constructor
  · intro h
    by_cases hfails : ∃ address ∈ answersFor lookupNetIP host,
        isPublicOutboundAddr address.unmap = false
    · exact .inl hfails
    · refine .inr fun address hmem hhidden => ?_
      have hall : ∀ address ∈ answersFor lookupNetIP host, isPublicOutboundAddr address.unmap := by
        intro other hother
        by_contra hpub
        exact hfails ⟨other, hother, Bool.not_eq_true _ ▸ hpub⟩
      have hres := resolvePublicOutboundAddrs_ok_iff.mpr
        ⟨ne_nil_of_mem hmem, rfl, hall⟩
      exact hhidden.not_public (h.returned hres _ (mem_map_of_mem hmem))
  · intro h
    refine .of_returned fun {result} hres => ?_
    have hok := resolvePublicOutboundAddrs_ok_iff.mp hres
    have hall := hok.2.2
    intro address hmem
    rw [hok.2.1] at hmem
    obtain ⟨answer, hanswer, rfl⟩ := mem_map.mp hmem
    rcases h with ⟨other, hother, hfails⟩ | hhidden
    · rw [hall other hother] at hfails
      cases hfails
    · exact public_of_isPublicOutboundAddr (hall answer hanswer) (hhidden answer hanswer)

/-- The host `::10.0.0.1` is accepted, and `10.0.0.1` in the compatible form is dialled. -/
theorem compatible_private_returned :
    resolvePublicOutboundAddrs (fun _ => .ok []) "::10.0.0.1" = .ok [.v6 0x0a000001 ""] ∧
      ¬Public (.v6 0x0a000001 "") ∧
      (dialContext (fun _ => .ok ()) "tcp" (fun _ => .ok []) "::10.0.0.1").2 =
        [.v6 0x0a000001 ""] := by
  have hhidden : HiddenCompatible (.v6 0x0a000001 "") :=
    ⟨by decide, .v4 (octets 10 0 0 0) 8, by decide, by decide⟩
  refine ⟨by decide, hhidden.not_public, by decide⟩

end Ferventio
