import Mathlib.Data.Prod.Lex
import Mathlib.Data.String.Basic
import Ferventio.EventSub.Subscriptions
import Ferventio.Lib.Assignment
import Ferventio.Lib.Canonical

/-!
# The channels of the chat sessions

A user's session with Twitch's chat is limited to 100 channels, and a channel is followed by one of
the users who watch it. `assignUserChatChannels` gathers the watchers of each channel, deals with
the channels in the order of their number of watchers, and gives each to the watcher with the fewest
channels. The watchers are kept in maps, which Go walks in an order of its choice.

* **`chat_assignment_valid`**: the assignment is valid, maximal and independent of all orders.
-/

namespace Ferventio

open Canonical Strings Table List

variable {uid cid : String}

/-! ## The code -/

/-- The limit of a user's channels. -/
def maxUserChatChannels : Nat := 100

/-- The rules about chat messages. -/
def chatRules : List String := ["mention", "reply", "highlight", "selected_user"]

/-- An order in which a map is walked. -/
structure MapWalk where
  walk : List String → List String
  perm : ∀ keys, (walk keys).Perm keys

/-- The orders in which the maps of one call are walked. -/
structure ChatWalks where
  channels : MapWalk
  candidates : String → MapWalk
  users : MapWalk

/-- A map to lists, or to sets, which are lists without repetition. -/
abbrev ListMap := Table String (List String)

/-- The list under a key. -/
def entry (t : ListMap) (key : String) : List String := (t.lookup key).getD []

/-- One more user watches a channel. -/
def addWatcher (watchers : ListMap) (channelID userID : String) : ListMap :=
  watchers.insert channelID ((entry watchers channelID).insert userID)

/-- The first loop of `assignUserChatChannels`. -/
def watchersOf (registrations : List Registration) : ListMap :=
  registrations.foldl (fun watchers registration =>
    let userID := trimSpace registration.userID
    if userID = "" then watchers
    else registration.channelIDs.foldl (fun watchers rawChannelID =>
      let channelID := trimSpace rawChannelID
      if channelID = "" || !anyRuleForChannel registration channelID chatRules then watchers
      else addWatcher watchers channelID userID) watchers) ∅

/-- The length of an entry, then the key. -/
def entryRank (t : ListMap) (key : String) : ℕ ×ₗ String :=
  toLex ((entry t key).length, key)

/-- The first candidate with room gets the channel. -/
def assignChannel (walks : ChatWalks) (watchers assigned : ListMap) (channelID : String) :
    ListMap :=
  let candidates := ((walks.candidates channelID).walk (entry watchers channelID)).insertionSort
    fun a b => entryRank assigned a ≤ entryRank assigned b
  match candidates.find? fun userID =>
      !decide (maxUserChatChannels ≤ (entry assigned userID).length)
  with
  | some userID => assigned.insert userID (entry assigned userID ++ [channelID])
  | none => assigned

/-- The channels in the order of assignment. -/
def sortedChannels (walks : ChatWalks) (watchers : ListMap) : List String :=
  (walks.channels.walk watchers.keys).insertionSort fun a b =>
    entryRank watchers a ≤ entryRank watchers b

/-- The second loop. -/
def assignChannels (walks : ChatWalks) (watchers : ListMap) : ListMap :=
  (sortedChannels walks watchers).foldl (assignChannel walks watchers) ∅

/-- The last loop sorts the channels of every user. -/
def sortEntries (walk : MapWalk) (assigned : ListMap) : ListMap :=
  (walk.walk assigned.keys).foldl (fun assigned userID =>
    assigned.insert userID ((entry assigned userID).insertionSort (· ≤ ·))) assigned

/-- The channels that each user is to read. -/
def assignUserChatChannels (walks : ChatWalks) (registrations : List Registration) (_ : Bool) :
    ListMap :=
  sortEntries walks.users (assignChannels walks (watchersOf registrations))

/-! ## The watchers -/

/-- The user has a registration with a chat rule for the channel. -/
def Watches (registrations : List Registration) (channelID uid : String) : Prop :=
  channelID ≠ "" ∧ uid ≠ "" ∧ ∃ reg ∈ registrations,
    trimSpace reg.userID = uid ∧
    channelID ∈ reg.channelIDs.map trimSpace ∧
    anyRuleForChannel reg channelID chatRules

@[simp] theorem entry_empty (key : String) : entry ∅ key = [] := rfl

@[simp] theorem entry_insert (t : ListMap) (key key' : String) (row : List String) :
    entry (t.insert key row) key' = if key' = key then row else entry t key' := by
  rw [entry, lookup_insert_eq]
  split_ifs
  · rfl
  · rfl

/-- The map holds the pairs. -/
structure Watchers (pairs : List (String × String)) (t : ListMap) : Prop where
  mem_iff : ∀ {channelID uid}, uid ∈ entry t channelID ↔ (channelID, uid) ∈ pairs
  nodup : ∀ channelID, (entry t channelID).Nodup
  watched : ∀ {channelID}, channelID ∈ t.keys → entry t channelID ≠ []

theorem Watchers.add {pairs : List (String × String)} {t : ListMap}
    (h : Watchers pairs t) (cid uid : String) :
    Watchers (pairs ++ [(cid, uid)]) (addWatcher t cid uid) := by
  refine ⟨fun {cid' uid'} => ?_, fun cid' => ?_, fun {cid'} hmem => ?_⟩
  · rw [addWatcher, entry_insert, mem_append, mem_singleton, Prod.mk.injEq, ← h.mem_iff]
    split_ifs with hcid
    · rw [hcid, mem_insert_iff, or_comm, eq_self, true_and]
    · rw [iff_false_intro hcid, false_and, or_false]
  · rw [addWatcher, entry_insert]
    split_ifs
    · exact (h.nodup cid).insert
    · exact h.nodup cid'
  · rw [addWatcher, entry_insert]
    split_ifs with hcid
    · exact ne_nil_of_mem mem_insert_self
    · rw [addWatcher, mem_keys_iff, lookup_insert_eq, if_neg hcid, ← mem_keys_iff] at hmem
      exact h.watched hmem

/-- Who watches what. -/
def watchPairs (registrations : List Registration) : List (String × String) :=
  registrations.flatMap fun registration =>
    if trimSpace registration.userID = "" then []
    else registration.channelIDs.filterMap fun rawChannelID =>
      if trimSpace rawChannelID = "" ||
          !anyRuleForChannel registration (trimSpace rawChannelID) chatRules then none
      else some (trimSpace rawChannelID, trimSpace registration.userID)

theorem watchersOf_eq (regs : List Registration) :
    watchersOf regs = (watchPairs regs).foldl (fun t pair => addWatcher t pair.1 pair.2) ∅ := by
  rw [watchPairs, foldl_flatMap, watchersOf]
  congr 1
  funext watchers reg
  dsimp only
  split_ifs with huser
  · rfl
  · rw [foldl_filterMap]
    congr 1
    funext watchers rawChannelID
    split_ifs
    · rfl
    · rfl

theorem mem_watchPairs_iff {regs : List Registration} :
    (cid, uid) ∈ watchPairs regs ↔ Watches regs cid uid := by
  simp only [watchPairs, mem_flatMap, Watches]
  constructor
  · rintro ⟨reg, hreg, hmem⟩
    split_ifs at hmem with huser
    · cases hmem
    · obtain ⟨rawChannelID, hraw, hpair⟩ := mem_filterMap.mp hmem
      split_ifs at hpair with hcid
      cases hpair
      simp only [Bool.or_eq_true, decide_eq_true_eq, Bool.not_eq_true', not_or,
        Bool.not_eq_false] at hcid
      exact ⟨hcid.1, huser, reg, hreg, rfl, mem_map_of_mem hraw, hcid.2⟩
  · rintro ⟨hcid, huser, reg, hreg, rfl, hlist, hrule⟩
    obtain ⟨rawChannelID, hraw, rfl⟩ := mem_map.mp hlist
    refine ⟨reg, hreg, ?_⟩
    rw [if_neg huser, mem_filterMap]
    refine ⟨rawChannelID, hraw, if_neg ?_⟩
    simp only [Bool.or_eq_true, decide_eq_true_eq, hrule, Bool.not_true, Bool.false_eq_true,
      or_false, hcid, not_false_eq_true]

theorem watchers_foldl (pairs : List (String × String)) :
    Watchers pairs (pairs.foldl (fun t pair => addWatcher t pair.1 pair.2) ∅) := by
  induction pairs using List.reverseRecOn with
  | nil => exact ⟨by simp, by simp, nofun⟩
  | append_singleton pairs pair ih =>
    rw [foldl_append]
    exact ih.add pair.1 pair.2

theorem watchers_watchersOf (regs : List Registration) :
    Watchers (watchPairs regs) (watchersOf regs) := by
  rw [watchersOf_eq]
  exact watchers_foldl _

/-! ## The greedy loop -/

section Loop

variable {walks walks' : ChatWalks} {pairs pairs' : List (String × String)}
  {watchers watchers' assigned : ListMap}

theorem entryRank_injective (t : ListMap) : Function.Injective (entryRank t) := by
  intro a b h
  exact congrArg Prod.snd (toLex.injective h)

theorem assignChannel_gives (h : Watchers pairs watchers) (assigned : ListMap) (cid : String) :
    Assignment.Gives maxUserChatChannels (fun cid uid => (cid, uid) ∈ pairs)
      cid (entry assigned) (entry (assignChannel walks watchers assigned cid)) := by
  have hcandidate : ∀ uid, uid ∈ ((walks.candidates cid).walk
      (entry watchers cid)).insertionSort (fun a b => entryRank assigned a ≤
        entryRank assigned b) ↔ (cid, uid) ∈ pairs := by
    intro uid
    rw [mem_insertionSort, ((walks.candidates cid).perm _).mem_iff, h.mem_iff]
  unfold assignChannel
  dsimp only
  split
  · rename_i uid hfound
    have hroom := List.find?_some hfound
    have hupd : entry (assigned.insert uid (entry assigned uid ++ [cid])) =
        Function.update (entry assigned) uid (entry assigned uid ++ [cid]) := by
      funext uid'
      rw [entry_insert, Function.update_apply]
    rw [hupd]
    refine .given uid ((hcandidate uid).mp (mem_of_find?_eq_some hfound)) ?_
    simpa using hroom
  · rename_i hnone
    refine .full fun uid huser => ?_
    have hfull := List.find?_eq_none.mp hnone uid ((hcandidate uid).mpr huser)
    simpa using hfull

theorem sortedChannels_nodup : (sortedChannels walks watchers).Nodup := by
  rw [sortedChannels, (perm_insertionSort _ _).nodup_iff, (walks.channels.perm _).nodup_iff]
  exact AList.keys_nodup watchers

theorem Watchers.mem_keys_iff (h : Watchers pairs watchers) :
    cid ∈ watchers.keys ↔ ∃ uid, (cid, uid) ∈ pairs := by
  simp only [← h.mem_iff]
  constructor
  · intro hmem
    exact exists_mem_of_ne_nil _ (h.watched hmem)
  · rintro ⟨uid, huser⟩
    rw [Table.mem_keys_iff]
    intro hnone
    rw [entry, hnone] at huser
    cases huser

theorem mem_sortedChannels_iff (h : Watchers pairs watchers) :
    cid ∈ sortedChannels walks watchers ↔ ∃ uid, (cid, uid) ∈ pairs := by
  rw [sortedChannels, mem_insertionSort, (walks.channels.perm _).mem_iff, h.mem_keys_iff]

/-- **The loop depends only on who watches what.** -/
theorem assignChannels_congr (h : Watchers pairs watchers) (h' : Watchers pairs' watchers')
    (hpairs : ∀ pair, pair ∈ pairs ↔ pair ∈ pairs') :
    assignChannels walks watchers = assignChannels walks' watchers' := by
  have hmem : ∀ cid uid, uid ∈ entry watchers cid ↔ uid ∈ entry watchers' cid := by
    intro cid uid
    rw [h.mem_iff, h'.mem_iff, hpairs]
  have hrank : entryRank watchers = entryRank watchers' := by
    funext cid
    have hperm := (perm_ext_iff_of_nodup (h.nodup cid) (h'.nodup cid)).mpr
      (hmem cid)
    rw [entryRank, entryRank, hperm.length_eq]
  have hstep : assignChannel walks watchers = assignChannel walks' watchers' := by
    funext assigned cid
    have hcandidates := insertionSort_congr (entryRank_injective assigned)
      (((walks.candidates cid).perm _).nodup_iff.mpr (h.nodup cid))
      (((walks'.candidates cid).perm _).nodup_iff.mpr (h'.nodup cid)) fun uid => by
        rw [((walks.candidates cid).perm _).mem_iff, ((walks'.candidates cid).perm _).mem_iff, hmem]
    rw [assignChannel, assignChannel, hcandidates]
  have hchannels := insertionSort_congr (entryRank_injective watchers)
    ((walks.channels.perm _).nodup_iff.mpr (AList.keys_nodup watchers))
    ((walks'.channels.perm _).nodup_iff.mpr (AList.keys_nodup watchers')) fun cid => by
      rw [(walks.channels.perm _).mem_iff, (walks'.channels.perm _).mem_iff, h.mem_keys_iff,
        h'.mem_keys_iff]
      simp only [hpairs]
  rw [assignChannels, assignChannels, sortedChannels, sortedChannels, hchannels, hrank, hstep]

/-! ## The last loop -/

theorem lookup_foldl_sort {keys : List String} {t : ListMap}
    (hnodup : keys.Nodup) (hkeys : ∀ key ∈ keys, key ∈ t.keys) :
    (keys.foldl (fun t key => t.insert key ((entry t key).insertionSort (· ≤ ·))) t).lookup
        uid = if uid ∈ keys then (t.lookup uid).map (·.insertionSort (· ≤ ·))
      else t.lookup uid := by
  induction keys generalizing t with
  | nil => rfl
  | cons key keys ih =>
    rw [nodup_cons] at hnodup
    have hrest : ∀ key' ∈ keys, key' ∈ (t.insert key
        ((entry t key).insertionSort (· ≤ ·))).keys := by
      intro key' hkey'
      rw [mem_keys_iff, lookup_insert_eq]
      split_ifs
      · exact Option.some_ne_none _
      · exact mem_keys_iff.mp (hkeys key' (mem_cons_of_mem _ hkey'))
    rw [foldl_cons, ih hnodup.2 hrest, lookup_insert_eq]
    by_cases hkey : uid = key
    · subst hkey
      obtain ⟨row, hrow⟩ := Option.ne_none_iff_exists'.mp
        (mem_keys_iff.mp (hkeys uid mem_cons_self))
      rw [if_neg hnodup.1, if_pos rfl, if_pos mem_cons_self, entry, hrow]
      rfl
    · simp only [if_neg hkey, mem_cons, or_iff_right hkey]

theorem lookup_sortEntries (walk : MapWalk) (t : ListMap) (uid : String) :
    (sortEntries walk t).lookup uid = (t.lookup uid).map (·.insertionSort (· ≤ ·)) := by
  rw [sortEntries, lookup_foldl_sort ((walk.perm _).nodup_iff.mpr (AList.keys_nodup t))
    fun key => (walk.perm _).mem_iff.mp]
  split_ifs with hkey
  · rfl
  · rw [(walk.perm _).mem_iff, mem_keys_iff, not_not] at hkey
    rw [hkey]
    rfl

theorem entry_sortEntries (walk : MapWalk) (t : ListMap) (uid : String) :
    entry (sortEntries walk t) uid = (entry t uid).insertionSort (· ≤ ·) := by
  rw [entry, entry, lookup_sortEntries]
  cases t.lookup uid with
  | none => rfl
  | some row => rfl

end Loop

/-! ## The assignment -/

/-- **A valid and maximal assignment**: a channel has one user, who watches it; a user has at most
100 channels, in increasing order; and all watchers of a channel that nobody got have 100. -/
structure ValidAssignment (registrations : List Registration) (assigned : ListMap) : Prop where
  watched : ∀ {channelID uid}, channelID ∈ entry assigned uid →
    Watches registrations channelID uid
  once : ∀ {channelID uid uid'}, channelID ∈ entry assigned uid →
    channelID ∈ entry assigned uid' → uid = uid'
  bounded : ∀ uid, (entry assigned uid).length ≤ maxUserChatChannels
  sorted : ∀ uid, Increasing id (entry assigned uid)
  maximal : ∀ {channelID}, (∃ uid, Watches registrations channelID uid) →
    (∀ uid, channelID ∉ entry assigned uid) →
      ∀ uid, Watches registrations channelID uid → (entry assigned uid).length = maxUserChatChannels

/-- **The chat channels.** The assignment is valid and maximal, and depends neither on the order or
repetition of the registrations nor on how the maps are walked. -/
theorem chat_assignment_valid (walks : ChatWalks) (registrations : List Registration)
    (automatic : Bool) :
    ValidAssignment registrations (assignUserChatChannels walks registrations automatic) ∧
      ∀ (walks' : ChatWalks) (registrations' : List Registration) (automatic' : Bool),
        (∀ reg, reg ∈ registrations ↔ reg ∈ registrations') →
        ∀ uid, (assignUserChatChannels walks registrations automatic).lookup uid =
          (assignUserChatChannels walks' registrations' automatic').lookup uid := by
  have hwatchers := watchers_watchersOf registrations
  constructor
  · have hgreedy : Assignment.Maximal maxUserChatChannels
        (fun channelID uid => (channelID, uid) ∈ watchPairs registrations)
        (sortedChannels walks (watchersOf registrations))
        (entry (assignChannels walks (watchersOf registrations))) :=
      Assignment.maximal_foldl sortedChannels_nodup (assignChannel_gives hwatchers) entry_empty
    have hsort : ∀ uid, entry (assignUserChatChannels walks registrations automatic) uid =
        (entry (assignChannels walks (watchersOf registrations)) uid).insertionSort (· ≤ ·) :=
      entry_sortEntries walks.users _
    have hmaximal := hgreedy.perm fun uid =>
      (List.Perm.of_eq (hsort uid)).trans (perm_insertionSort _ _)
    refine ⟨fun hmem => mem_watchPairs_iff.mp (hmaximal.owned hmem).2, hmaximal.once,
      hmaximal.bounded, fun uid => ?_, ?_⟩
    · have hnodup := hgreedy.nodup uid
      rw [← map_id (entry _ uid)] at hnodup
      rw [hsort]
      exact increasing_insertionSort hnodup
    · rintro channelID ⟨watcher, hwatcher⟩ hnobody uid huser
      have hchan : channelID ∈ sortedChannels walks (watchersOf registrations) :=
        (mem_sortedChannels_iff hwatchers).mpr ⟨watcher, mem_watchPairs_iff.mpr hwatcher⟩
      rcases hmaximal.maximal hchan with ⟨owner, howner⟩ | hfull
      · exact absurd howner (hnobody owner)
      · exact hfull uid (mem_watchPairs_iff.mpr huser)
  · intro walks' registrations' automatic' hsame uid
    have hpairs : ∀ pair, pair ∈ watchPairs registrations ↔ pair ∈ watchPairs registrations' := by
      rintro ⟨channelID, uid⟩
      simp only [mem_watchPairs_iff, Watches, hsame]
    rw [assignUserChatChannels, assignUserChatChannels, lookup_sortEntries, lookup_sortEntries,
      assignChannels_congr hwatchers (watchers_watchersOf registrations') hpairs]

/-- The reversed order. -/
def MapWalk.backwards : MapWalk := ⟨List.reverse, reverse_perm⟩

/-- User 7 is the only one who watches channel 2, so channel 1 goes to user 8. -/
example :
    let assigned := assignUserChatChannels ⟨.backwards, fun _ => .backwards, .backwards⟩
      [{ installationID := "a", userID := "7", channelIDs := ["1", " 2"] },
        { installationID := "b", userID := "8", channelIDs := ["1"] }] false
    entry assigned "7" = ["2"] ∧ entry assigned "8" = ["1"] := by
  decide +kernel

end Ferventio
