import Mathlib.Data.String.Basic
import Ferventio.EventSub.Entitlement
import Ferventio.Lib.Canonical

/-!
# The desired subscriptions are a canonical union

`desiredEventSubSubscriptions` collects what the registrations request in a map that is keyed by
`eventSubSpecKey`, a text in which nothing is escaped: the channel of a condition is chosen by the
client and may hold the separator. The last separator still tells where the moderator begins, as
long as user IDs have none.

* **`desired_canonical_union`**: the result strictly increases in the key, is this union, and does
  not depend on any order.
-/

namespace Ferventio

open Strings List

variable {spec : EventSubSubscriptionSpec} {reg : Registration} {uid' uid cid cid' : String}
  {req : SubscriptionRequest}

/-! ## The key tells the subscription -/

namespace WebhookType

theorem keyTail_inj (T : WebhookType) (hu : '|' ∉ uid.toList) (hu' : '|' ∉ uid'.toList)
    (h : cid ++ T.keyTail uid = cid' ++ T.keyTail uid') :
    cid = cid' ∧ T.condition uid cid = T.condition uid' cid' := by
  have hfield : '|' ∉ "moderator_user_id=".toList := by decide
  -- Only the types with two fields in their condition have a tail.
  have hmoderator (heq : cid ++ keyPart ("moderator_user_id", uid) =
      cid' ++ keyPart ("moderator_user_id", uid')) :
      cid = cid' ∧ uid = uid' := by
    have hlist := congrArg String.toList heq
    simp only [keyPart, String.toList_append, append_assoc] at hlist
    have hbar : "|".toList = ['|'] := by decide
    have hsplit : "moderator_user_id".toList ++ ("=".toList ++ uid.toList) =
        "moderator_user_id=".toList ++ uid.toList := rfl
    have hsplit' : "moderator_user_id".toList ++ ("=".toList ++ uid'.toList) =
        "moderator_user_id=".toList ++ uid'.toList := rfl
    rw [hbar, singleton_append, singleton_append, hsplit, hsplit'] at hlist
    obtain ⟨hcid, htail⟩ := append_cons_inj (fun hmem => (mem_append.mp hmem).elim hfield hu)
      (fun hmem => (mem_append.mp hmem).elim hfield hu') hlist
    exact ⟨String.toList_injective hcid, String.toList_injective (append_cancel_left htail)⟩
  cases T
  case automodHold | moderate =>
    obtain ⟨rfl, rfl⟩ := hmoderator h
    exact ⟨rfl, rfl⟩
  all_goals
    simp only [keyTail, String.append_empty] at h
    subst h
    exact ⟨rfl, rfl⟩

/-- **The key is injective** on the requests of users without a separator in their ID. -/
theorem spec_eq_of_key_eq (cfg : ServerConfig) {T T' : WebhookType}
    (hu : '|' ∉ uid.toList) (hu' : '|' ∉ uid'.toList)
    (h : ((T.request uid cid).spec cfg).key = ((T'.request uid' cid').spec cfg).key) :
    (T.request uid cid).spec cfg = (T'.request uid' cid').spec cfg := by
  rw [key_request, key_request] at h
  obtain rfl : T = T' := type_eq_of_key_eq h
  simp only [String.append_right_inj] at h
  obtain ⟨-, hcondition⟩ := T.keyTail_inj (not_mem_trimSpace hu) (not_mem_trimSpace hu') h
  simp only [SubscriptionRequest.spec, request, condition_map_trimSpace, hcondition]

end WebhookType

/-! ## The union -/

section Union

variable {cfg : ServerConfig} {regs : List Registration}

theorem exists_type_of_requestedBy (h : req ∈ requestedBy reg) :
    ∃ (T : WebhookType) (cid : String), req = T.request reg.userID cid := by
  obtain ⟨cid, -, -, hreq⟩ := mem_requestedBy_iff.mp h
  obtain ⟨T, hT, -⟩ := mem_requestedForChannel_iff.mp hreq
  exact ⟨T, _, hT⟩

theorem mem_desired_iff_requested (hbars : ∀ r ∈ regs, '|' ∉ r.userID.toList) :
    spec ∈ desiredEventSubSubscriptions cfg regs ↔
      ∃ reg ∈ regs, ∃ req ∈ requestedBy reg, req.complete ∧ spec = req.spec cfg := by
  constructor
  · exact requested_of_mem_desired
  · rintro ⟨reg, hreg, req, hreq, hcomp, rfl⟩
    obtain ⟨spec, hspec, hkey⟩ : ∃ spec ∈ desiredEventSubSubscriptions cfg regs,
        spec.key = (req.spec cfg).key :=
      mem_desired_key_iff.mpr ⟨reg, hreg, req, hreq, hcomp, rfl⟩
    -- The row under the key may come from another request, but it is the same subscription.
    obtain ⟨other, hother, req', hreq', -, rfl⟩ := requested_of_mem_desired hspec
    obtain ⟨T, cid, rfl⟩ := exists_type_of_requestedBy hreq
    obtain ⟨T', cid', rfl⟩ := exists_type_of_requestedBy hreq'
    rw [← WebhookType.spec_eq_of_key_eq cfg (hbars other hother) (hbars reg hreg) hkey]
    exact hspec

theorem mem_desired_union_iff (hbars : ∀ r ∈ regs, '|' ∉ r.userID.toList) :
    spec ∈ desiredEventSubSubscriptions cfg regs ↔
      ∃ reg ∈ regs, spec ∈ desiredEventSubSubscriptions cfg [reg] := by
  rw [mem_desired_iff_requested hbars]
  refine exists_congr fun reg => and_congr_right fun hreg => ?_
  rw [mem_desired_iff_requested (by simpa using hbars reg hreg)]
  simp only [mem_singleton, exists_eq_left]

variable (cfg regs) in
theorem unique_keys_nodup :
    ((Table.rows ((regs.flatMap requestedBy).foldl (appendSpec cfg) ∅)).map
      EventSubSubscriptionSpec.key).Nodup := by
  have hkeys : ((desiredEventSubSubscriptions cfg regs).map (·.key)).Nodup := desired_keys_nodup
  exact (((perm_insertionSort _ _).map _).nodup_iff).mp hkeys

variable (cfg regs) in
theorem desired_increasing :
    Canonical.Increasing EventSubSubscriptionSpec.key (desiredEventSubSubscriptions cfg regs) :=
  Canonical.increasing_insertionSort (unique_keys_nodup cfg regs)

theorem condition_walk (h : req ∈ requestedBy reg) {condition : List (String × String)}
    (hperm : condition.Perm req.condition) :
    SubscriptionRequest.complete { req with condition } = req.complete ∧
      (SubscriptionRequest.spec cfg { req with condition }).key = (req.spec cfg).key := by
  obtain ⟨T, cid, rfl⟩ := exists_type_of_requestedBy h
  refine ⟨hperm.all_eq, ?_⟩
  have hfields : (((T.request reg.userID cid).spec cfg).condition.map Prod.fst).Nodup := by
    cases T <;> simp [WebhookType.request, SubscriptionRequest.spec, WebhookType.condition]
  have hsort := Canonical.eq_insertionSort_of_perm hfields
    ((perm_insertionSort (fun a b : String × String => a.1 ≤ b.1) _).trans
      (hperm.map fun part => (part.1, trimSpace part.2)))
    (Canonical.sorted_insertionSort Prod.fst _)
  simp only [EventSubSubscriptionSpec.key, eventSubSpecKey]
  exact congrArg (fun parts : List (String × String) => _ ++ String.join (parts.map keyPart)) hsort

end Union

/-- **What the desired subscriptions are.** -/
structure CanonicalUnion (cfg : ServerConfig) (registrations : List Registration) : Prop where
  /-- The result strictly increases in the key, -/
  increasing : (desiredEventSubSubscriptions cfg registrations).Pairwise fun a b => a.key < b.key
  /-- has what is desired for one of the registrations alone, -/
  union : ∀ spec, spec ∈ desiredEventSubSubscriptions cfg registrations ↔
    ∃ reg ∈ registrations, spec ∈ desiredEventSubSubscriptions cfg [reg]
  /-- is the same for every list of the same registrations, -/
  reordered : ∀ registrations', (∀ r, r ∈ registrations' ↔ r ∈ registrations) →
    desiredEventSubSubscriptions cfg registrations' = desiredEventSubSubscriptions cfg registrations
  /-- and however the map of the collected subscriptions is walked and its rows are sorted, -/
  walked : ∀ result : List EventSubSubscriptionSpec,
    result.Perm (Table.rows ((registrations.flatMap requestedBy).foldl (appendSpec cfg) ∅)) →
    result.Pairwise (fun a b => a.key ≤ b.key) →
    result = desiredEventSubSubscriptions cfg registrations
  /-- and however the map of a condition is walked. -/
  condition_walked : ∀ reg ∈ registrations, ∀ request ∈ requestedBy reg,
    ∀ condition : List (String × String), condition.Perm request.condition →
      SubscriptionRequest.complete { request with condition } = request.complete ∧
        (SubscriptionRequest.spec cfg { request with condition }).key = (request.spec cfg).key
  /-- Different subscriptions of the registrations have different keys. -/
  distinct : ∀ reg ∈ registrations, ∀ reg' ∈ registrations,
    ∀ spec ∈ desiredEventSubSubscriptions cfg [reg],
    ∀ spec' ∈ desiredEventSubSubscriptions cfg [reg'], spec.key = spec'.key → spec = spec'

/-- **Canonical union.** User IDs must not have the separator of the keys; channel IDs may be
anything. -/
theorem desired_canonical_union (cfg : ServerConfig) (registrations : List Registration)
    (hbars : ∀ r ∈ registrations, '|' ∉ r.userID.toList) : CanonicalUnion cfg registrations where
  increasing := desired_increasing cfg registrations
  union := fun _ => mem_desired_union_iff hbars
  reordered := by
    intro registrations' hsame
    refine (desired_increasing cfg registrations').ext (desired_increasing cfg registrations)
      fun spec => ?_
    have hbars' : ∀ r ∈ registrations', '|' ∉ r.userID.toList :=
      fun r hr => hbars r ((hsame r).mp hr)
    rw [mem_desired_union_iff hbars', mem_desired_union_iff hbars]
    simp only [hsame]
  walked := fun _ hperm hsorted =>
    Canonical.eq_insertionSort_of_perm (unique_keys_nodup cfg registrations) hperm hsorted
  condition_walked := fun _ _ _ hreq _ hperm => condition_walk hreq hperm
  distinct := by
    intro reg hregistration reg' hregistration' spec hspec spec' hspec' hkey
    have hmem : spec ∈ desiredEventSubSubscriptions cfg registrations :=
      (mem_desired_union_iff hbars).mpr ⟨reg, hregistration, hspec⟩
    have hmem' : spec' ∈ desiredEventSubSubscriptions cfg registrations :=
      (mem_desired_union_iff hbars).mpr ⟨reg', hregistration', hspec'⟩
    exact inj_on_of_nodup_map desired_keys_nodup hmem hmem' hkey

/-- A channel ID that looks like the rest of a key. -/
def barChannelModerators : List Registration :=
  ["1", "2"].map fun userID =>
    { installationID := userID, userID, channelIDs := ["3|moderator_user_id=4"],
      moderatorChannelIDs := ["3|moderator_user_id=4"], notificationRules := ["automod_hold"] }

theorem barChannelModerators_union : CanonicalUnion {} barChannelModerators :=
  desired_canonical_union {} barChannelModerators (by decide)

end Ferventio
