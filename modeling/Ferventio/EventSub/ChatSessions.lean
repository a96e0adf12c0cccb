import Ferventio.EventSub.ChatChannels

/-!
# The chat sessions

The manager keeps one connection with Twitch's chat for each user who was assigned channels. Every
ten seconds `reconcile` compares the sessions with the assignment: it cancels those whose channels
changed, as a hash of their names tells, and starts those that are missing. A session runs in a
goroutine of its own until its context is cancelled.

* **`chat_sessions_cover`**: the running sessions are those of the assignment.
* **`no_chat_session_after_stop`**: after `stopAll` none is running.
-/

namespace Ferventio

open Strings Table List

/-! ## The code -/

/-- A running session. -/
structure ChatSession where
  signature : String
  /-- The goroutine that `cancel` ends. -/
  goroutine : Nat

/-- With the goroutines that were started and not cancelled. -/
structure ChatManager where
  sessions : Table String ChatSession := ∅
  goroutines : Table Nat (String × List String) := ∅
  next : Nat := 0

/-- Cancel a session. -/
def ChatManager.stop (m : ChatManager) (userID : String) (session : ChatSession) : ChatManager :=
  { m with sessions := m.sessions.erase userID
           goroutines := m.goroutines.erase session.goroutine }

/-- The text that is hashed. -/
def joinChannels (channels : List String) : List Char :=
  ['\x00'].intercalate (channels.map (·.toList))

section Code

-- `sha256.Sum256`, in hexadecimal digits
variable (hash : List Char → String)

/-- What a session was started for. -/
def userChatSessionSignature (channels : List String) : String := hash (joinChannels channels)

/-- Start a session. -/
def ChatManager.start (m : ChatManager) (userID : String) (channels : List String) :
    ChatManager where
  sessions := m.sessions.insert userID ⟨userChatSessionSignature hash channels, m.next⟩
  goroutines := m.goroutines.insert m.next (userID, channels)
  next := m.next + 1

/-- The variables of `reconcile`. -/
structure ChatRound where
  desired : ListMap
  manager : ChatManager
  started : Nat := 0
  stopped : Nat := 0

/-- The first loop of `reconcile`. -/
def checkSession (r : ChatRound) (userID : String) : ChatRound :=
  match r.manager.sessions.lookup userID with
  | none => r
  | some session =>
    if some session.signature = (r.desired.lookup userID).map (userChatSessionSignature hash) then
      { r with desired := r.desired.erase userID }
    else { r with manager := r.manager.stop userID session, stopped := r.stopped + 1 }

/-- The second loop. -/
def startSession (r : ChatRound) (userID : String) : ChatRound :=
  if entry r.desired userID = [] then r
  else { r with manager := r.manager.start hash userID (entry r.desired userID)
                started := r.started + 1 }

/-- Cancel all sessions. -/
def ChatManager.stopAll (walk : MapWalk) (m : ChatManager) : Nat × ChatManager :=
  (m.sessions.count, (walk.walk m.sessions.keys).foldl (fun m userID =>
    (m.sessions.lookup userID).elim m (m.stop userID)) m)

/-- One tick, with the orders in which maps are walked. -/
structure ChatTick where
  enabled : Bool
  registrations : List Registration
  walks : ChatWalks
  sessions : MapWalk
  desired : MapWalk

/-- The channels of a round. -/
def ChatTick.assigned (tick : ChatTick) : ListMap :=
  assignUserChatChannels tick.walks tick.registrations false

/-- One round. -/
def ChatManager.reconcile (tick : ChatTick) (m : ChatManager) : (Nat × Nat) × ChatManager :=
  if tick.enabled then
    let checked := (tick.sessions.walk m.sessions.keys).foldl (checkSession hash)
      ⟨tick.assigned, m, 0, 0⟩
    let round := (tick.desired.walk checked.desired.keys).foldl (startSession hash) checked
    ((round.started, round.stopped), round.manager)
  else ((0, (m.stopAll tick.sessions).1), (m.stopAll tick.sessions).2)

/-- The rounds of `RunUserChatEventSub`. -/
def runTicks (ticks : List ChatTick) : ChatManager :=
  ticks.foldl (fun m tick => (m.reconcile hash tick).2) {}

end Code

/-! ## Signatures -/

/-- Names that the separator keeps apart. -/
def Plain (channels : List String) : Prop := ∀ c ∈ channels, c ≠ "" ∧ '\x00' ∉ c.toList

theorem joinChannels_inj {l l' : List String} (h : Plain l) (h' : Plain l') (hl : l ≠ [])
    (hjoin : joinChannels l = joinChannels l') : l = l' := by
  have hsplit : ∀ {l : List String}, Plain l → l ≠ [] →
      (joinChannels l).splitOn '\x00' = l.map (·.toList) := by
    intro l h hl
    refine splitOn_intercalate _ ?_ (by simpa using hl)
    simpa using fun c hc => (h c hc).2
  have hl' : l' ≠ [] := by
    rintro rfl
    have hnil : l.map (·.toList) = [[]] := by
      rw [← hsplit h hl, hjoin]
      rfl
    obtain ⟨c, rfl⟩ := length_eq_one_iff.mp (by simpa using congrArg length hnil : l.length = 1)
    exact (h c mem_cons_self).1 (by simpa using hnil)
  have hmap := congrArg (splitOn '\x00') hjoin
  rw [hsplit h hl, hsplit h' hl'] at hmap
  exact map_injective_iff.mpr (fun _ _ => String.toList_inj.mp) hmap

/-- Channels are named without the separator of the signature. -/
def ChatTick.Separated (tick : ChatTick) : Prop :=
  ∀ reg ∈ tick.registrations, ∀ c ∈ reg.channelIDs, '\x00' ∉ c.toList

theorem plain_assigned {tick : ChatTick} (h : tick.Separated) (uid : String) :
    Plain (entry tick.assigned uid) := by
  intro cid hmem
  have hgreedy : Assignment.Maximal maxUserChatChannels
      (fun cid uid => (cid, uid) ∈ watchPairs tick.registrations) _
      (entry (assignChannels tick.walks (watchersOf tick.registrations))) :=
    Assignment.maximal_foldl sortedChannels_nodup
      (assignChannel_gives (watchers_watchersOf _)) entry_empty
  rw [ChatTick.assigned, assignUserChatChannels, entry_sortEntries, mem_insertionSort] at hmem
  obtain ⟨hne, -, reg, hreg, -, hcid, -⟩ := mem_watchPairs_iff.mp (hgreedy.owned hmem).2
  obtain ⟨raw, hraw, rfl⟩ := mem_map.mp hcid
  exact ⟨hne, not_mem_trimSpace (h reg hreg raw hraw)⟩

section Rounds

variable {hash : List Char → String} {P : List String → Prop} {m : ChatManager} {uid : String}

/-! ## The goroutines and the map -/

/-- The goroutines are those of the map, with channels that `P` allows. -/
structure ChatManager.Sound (hash : List Char → String) (P : List String → Prop)
    (m : ChatManager) : Prop where
  listed : ∀ {i uid channels}, m.goroutines.lookup i = some (uid, channels) →
    m.sessions.lookup uid = some ⟨userChatSessionSignature hash channels, i⟩ ∧
      P channels ∧ channels ≠ []
  running : ∀ {uid sess}, m.sessions.lookup uid = some sess →
    ∃ channels, m.goroutines.lookup sess.goroutine = some (uid, channels)
  fresh : ∀ i, m.next ≤ i → m.goroutines.lookup i = none

theorem ChatManager.Sound.stop (h : m.Sound hash P) {sess : ChatSession}
    (hsess : m.sessions.lookup uid = some sess) : (m.stop uid sess).Sound hash P := by
  refine ⟨?_, ?_, fun i hi => ?_⟩
  · intro i uid' channels hrun
    rw [ChatManager.stop, lookup_erase_eq] at hrun
    split_ifs at hrun with hi
    refine ⟨?_, (h.listed hrun).2⟩
    have hold := (h.listed hrun).1
    rw [ChatManager.stop, lookup_erase_eq, if_neg, hold]
    rintro rfl
    rw [hsess, Option.some.injEq] at hold
    exact hi (by rw [hold])
  · intro uid' sess' hget
    rw [ChatManager.stop, lookup_erase_eq] at hget
    split_ifs at hget with huid
    obtain ⟨channels, hrun⟩ := h.running hget
    obtain ⟨channels', hrun'⟩ := h.running hsess
    refine ⟨channels, ?_⟩
    rw [ChatManager.stop, lookup_erase_eq, if_neg, hrun]
    intro heq
    rw [heq, hrun', Option.some.injEq, Prod.mk.injEq] at hrun
    exact huid hrun.1.symm
  · rw [ChatManager.stop, lookup_erase_eq, h.fresh i hi, ite_self]

theorem ChatManager.Sound.start (h : m.Sound hash P) (hfree : m.sessions.lookup uid = none)
    {channels : List String} (hallowed : P channels) (hne : channels ≠ []) :
    (m.start hash uid channels).Sound hash P := by
  refine ⟨?_, ?_, fun i hi => ?_⟩
  · intro i uid' channels' hrun
    rw [ChatManager.start, lookup_insert_eq] at hrun ⊢
    split_ifs at hrun with hi
    · cases hrun
      exact ⟨by rw [if_pos rfl, hi], hallowed, hne⟩
    · have huid : uid' ≠ uid := by
        rintro rfl
        cases hfree.symm.trans (h.listed hrun).1
      rw [if_neg huid]
      exact h.listed hrun
  · intro uid' sess hget
    rw [ChatManager.start, lookup_insert_eq] at hget
    simp only [ChatManager.start, lookup_insert_eq]
    split_ifs at hget with huid
    · cases hget
      exact ⟨channels, by rw [if_pos rfl, huid]⟩
    · obtain ⟨channels', hrun⟩ := h.running hget
      rw [if_neg, hrun]
      · exact ⟨channels', rfl⟩
      · intro hnext
        cases hrun.symm.trans (h.fresh _ hnext.ge)
  · rw [ChatManager.start, lookup_insert_eq, if_neg (Nat.ne_of_gt hi)]
    exact h.fresh i (Nat.le_of_succ_le hi)

/-! ## Loops over the keys of a map -/

/-- A loop over the keys of a map, each of which changes only what belongs to it. -/
theorem foldl_walk {α β ν : Type} {f : β → String → β} {I : β → Prop} {V : β → String → ν}
    {g : ν → ν} {t : Table String α} (walk : MapWalk) {b : β}
    (hview : ∀ b k u, V (f b k) u = if u = k then g (V b k) else V b u)
    (hI : ∀ b' k, I b' → V b' k = V b k → I (f b' k)) (hb : I b)
    (habsent : ∀ u, t.lookup u = none → g (V b u) = V b u) :
    I ((walk.walk t.keys).foldl f b) ∧ ∀ u, V ((walk.walk t.keys).foldl f b) u = g (V b u) := by
  suffices ∀ (ks : List String) b', ks.Nodup → I b' → (∀ u ∈ ks, V b' u = V b u) →
      I (ks.foldl f b') ∧ ∀ u, V (ks.foldl f b') u = if u ∈ ks then g (V b u) else V b' u by
    obtain ⟨hend, hviews⟩ := this _ b ((walk.perm _).nodup_iff.mpr (AList.keys_nodup t)) hb
      fun _ _ => rfl
    refine ⟨hend, fun u => (hviews u).trans ?_⟩
    split_ifs with hkey
    · rfl
    · rw [(walk.perm _).mem_iff, mem_keys_iff, not_not] at hkey
      exact (habsent u hkey).symm
  intro ks
  induction ks with
  | nil => exact fun b' _ hb' _ => ⟨hb', fun u => rfl⟩
  | cons k ks ih =>
    intro b' hnodup hb' hv
    obtain ⟨hk, hks⟩ := nodup_cons.mp hnodup
    have hother : ∀ {u}, u ≠ k → V (f b' k) u = V b' u := fun hu => by rw [hview, if_neg hu]
    obtain ⟨hend, hviews⟩ := ih _ hks (hI b' k hb' (hv k mem_cons_self)) fun u hu => by
      rw [hother (ne_of_mem_of_not_mem hu hk), hv u (mem_cons_of_mem _ hu)]
    refine ⟨hend, fun u => (hviews u).trans ?_⟩
    by_cases hu : u = k
    · rw [hu, if_neg hk, if_pos mem_cons_self, hview, if_pos rfl, hv k mem_cons_self]
    · simp only [mem_cons, hu, false_or, hother hu]

theorem ChatManager.Sound.stopAll (h : m.Sound hash P) (walk : MapWalk) :
    (m.stopAll walk).2.Sound hash P ∧ ∀ uid, (m.stopAll walk).2.sessions.lookup uid = none := by
  refine foldl_walk (I := fun m => m.Sound hash P)
    (V := fun (m : ChatManager) u => m.sessions.lookup u) (g := fun _ => none) walk
    (fun m k u => ?_) (fun m k hm _ => ?_) h fun u hu => hu.symm
  · cases hs : m.sessions.lookup k with
    | none =>
      split_ifs with hu
      · exact hu ▸ hs
      · rfl
    | some s => simp only [Option.elim_some, ChatManager.stop, lookup_erase_eq]
  · cases hs : m.sessions.lookup k with
    | none => exact hm
    | some s => exact hm.stop hs

/-! ## One round -/

/-- The signature of a user's session, and the channels asked for. -/
abbrev UserView := Option String × Option (List String)

/-- What a round knows of a user. -/
def ChatRound.view (r : ChatRound) (uid : String) : UserView :=
  ((r.manager.sessions.lookup uid).map (·.signature), r.desired.lookup uid)

/-- The check of one user. -/
def checkView (hash : List Char → String) (v : UserView) : UserView :=
  if v.1 = none then v
  else if v.1 = v.2.map (userChatSessionSignature hash) then (v.1, none) else (none, v.2)

/-- The start for one user. -/
def startView (hash : List Char → String) (v : UserView) : UserView :=
  if v.2.getD [] = [] then v else (v.2.map (userChatSessionSignature hash), v.2)

theorem checkView_asked {v : UserView} (h : (checkView hash v).2.getD [] ≠ []) :
    checkView hash v = (none, v.2) := by
  rw [checkView] at h ⊢
  split_ifs at h ⊢ with hnone hsame
  · exact Prod.ext hnone rfl
  · exact absurd rfl h
  · rfl

theorem startView_checkView (hash : List Char → String) (v : UserView) :
    (startView hash (checkView hash v)).1 = v.2.map (userChatSessionSignature hash) ∨
      (startView hash (checkView hash v)).1 = none ∧ v.2.getD [] = [] := by
  by_cases hasked : (checkView hash v).2.getD [] = []
  · rw [startView, if_pos hasked]
    rw [checkView] at hasked ⊢
    split_ifs at hasked ⊢ with hnone hsame
    · exact .inr ⟨hnone, hasked⟩
    · exact .inl hsame
    · exact .inr ⟨rfl, hasked⟩
  · rw [startView, if_neg hasked, checkView_asked hasked]
    exact .inl rfl

theorem view_checkSession (r : ChatRound) (k u : String) :
    (checkSession hash r k).view u = if u = k then checkView hash (r.view k) else r.view u := by
  rw [checkSession, checkView]
  by_cases hu : u = k
  · subst hu
    cases hs : r.manager.sessions.lookup u with
    | none => simp [ChatRound.view, hs]
    | some s =>
      by_cases hsame : some s.signature = (r.desired.lookup u).map (userChatSessionSignature hash)
      · simp [ChatRound.view, hs, ← hsame]
      · simp [ChatRound.view, ChatManager.stop, hs, hsame]
  · split
    · simp [hu]
    · split_ifs
      · simp [ChatRound.view, hu]
      · simp [ChatRound.view, ChatManager.stop, hu]

theorem view_startSession (r : ChatRound) (k u : String) :
    (startSession hash r k).view u = if u = k then startView hash (r.view k) else r.view u := by
  rw [startSession, startView]
  by_cases hu : u = k
  · subst hu
    cases hd : r.desired.lookup u with
    | none => simp [ChatRound.view, entry, hd]
    | some c => by_cases hc : c = [] <;> simp [ChatRound.view, ChatManager.start, entry, hd, hc]
  · split_ifs
    · rfl
    · simp [ChatRound.view, ChatManager.start, hu]

theorem checkSession_sound {r : ChatRound} (h : r.manager.Sound hash P) (k : String) :
    (checkSession hash r k).manager.Sound hash P := by
  rw [checkSession]
  split
  · exact h
  · rename_i sess hsess
    split_ifs
    · exact h
    · exact h.stop hsess

theorem ChatManager.Sound.reconcile {tick : ChatTick} (h : m.Sound hash P)
    (hallowed : ∀ uid, P (entry tick.assigned uid)) (htick : tick.enabled) :
    (m.reconcile hash tick).2.Sound hash P ∧ ∀ uid,
      ((m.reconcile hash tick).2.sessions.lookup uid).map (·.signature) =
        (tick.assigned.lookup uid).map (userChatSessionSignature hash) ∨
      (m.reconcile hash tick).2.sessions.lookup uid = none ∧ entry tick.assigned uid = [] := by
  obtain ⟨hcheck, hviews⟩ := foldl_walk (I := fun r => r.manager.Sound hash P)
    (V := ChatRound.view) (b := ⟨tick.assigned, m, 0, 0⟩)
    (t := m.sessions) tick.sessions view_checkSession
    (fun r k hr _ => checkSession_sound hr k) h fun u hu => by simp [checkView, ChatRound.view, hu]
  rw [ChatManager.reconcile, if_pos htick]
  generalize (tick.sessions.walk m.sessions.keys).foldl (checkSession hash)
    ⟨tick.assigned, m, 0, 0⟩ = checked at hcheck hviews ⊢
  have hstart : ∀ r k, r.manager.Sound hash P → r.view k = checked.view k →
      (startSession hash r k).manager.Sound hash P := by
    intro r k hr hview
    rw [startSession]
    split_ifs with hnil
    · exact hr
    · rw [hviews k] at hview
      obtain ⟨hs, hd⟩ := Prod.ext_iff.mp (hview.trans (checkView_asked (hview ▸ hnil)))
      have hentry : entry r.desired k = entry tick.assigned k := congrArg (·.getD []) hd
      exact hr.start (Option.map_eq_none_iff.mp hs) (hentry ▸ hallowed k) hnil
  obtain ⟨hstarted, hviews'⟩ := foldl_walk (V := ChatRound.view) (t := checked.desired) tick.desired
    view_startSession hstart hcheck fun u hu => by simp [startView, ChatRound.view, hu]
  refine ⟨hstarted, fun uid => ?_⟩
  have hview := congrArg Prod.fst (hviews' uid)
  rw [hviews uid] at hview
  rcases startView_checkView hash (ChatRound.view ⟨tick.assigned, m, 0, 0⟩ uid) with
    hasked | ⟨hnone, hnil⟩
  · exact .inl (hview.trans hasked)
  · exact .inr ⟨Option.map_eq_none_iff.mp (hview.trans hnone), hnil⟩

/-! ## All rounds -/

theorem runTicks_sound (hash : List Char → String) {ticks : List ChatTick}
    (h : ∀ tick ∈ ticks, ∀ uid, P (entry tick.assigned uid)) :
    (runTicks hash ticks).Sound hash P := by
  refine foldlRecOn ticks _ ⟨by simp, by simp, by simp⟩ fun m hm tick htick => ?_
  cases hon : tick.enabled with
  | true => exact (hm.reconcile (h tick htick) hon).1
  | false =>
    rw [ChatManager.reconcile, hon]
    exact (hm.stopAll tick.sessions).1

/-- **The sessions are those of the assignment** of the last round, one for each user, whatever the
orders of the maps. -/
theorem chat_sessions_cover {hash : List Char → String} (hhash : Function.Injective hash)
    (ticks : List ChatTick) (tick : ChatTick) (hticks : ∀ t ∈ ticks ++ [tick], t.Separated)
    (hon : tick.enabled) :
    (∀ uid channels,
      (∃ i, (runTicks hash (ticks ++ [tick])).goroutines.lookup i = some (uid, channels)) ↔
        channels ≠ [] ∧ entry tick.assigned uid = channels) ∧
    ∀ i j uid channels channels',
      (runTicks hash (ticks ++ [tick])).goroutines.lookup i = some (uid, channels) →
      (runTicks hash (ticks ++ [tick])).goroutines.lookup j = some (uid, channels') → i = j := by
  have hplain := plain_assigned (hticks tick (by simp))
  have hrun : runTicks hash (ticks ++ [tick]) = ((runTicks hash ticks).reconcile hash tick).2 := by
    rw [runTicks, foldl_append]
    rfl
  obtain ⟨hsound, hlast⟩ := (runTicks_sound hash fun t ht =>
    plain_assigned (hticks t (mem_append_left _ ht))).reconcile hplain hon
  rw [← hrun] at hsound hlast
  generalize runTicks hash (ticks ++ [tick]) = m at hsound hlast ⊢
  have hassigned : ∀ {i uid channels}, m.goroutines.lookup i = some (uid, channels) →
      entry tick.assigned uid = channels := by
    intro i uid channels hi
    obtain ⟨hlist, hch, hne⟩ := hsound.listed hi
    rcases hlast uid with hview | ⟨hnone, -⟩
    · rw [hlist] at hview
      obtain ⟨channels', hchannels', hsig⟩ := Option.map_eq_some_iff.mp hview.symm
      have hentry : entry tick.assigned uid = channels' := by rw [entry, hchannels']; rfl
      rw [hentry]
      exact (joinChannels_inj hch (hentry ▸ hplain uid) hne (hhash hsig.symm)).symm
    · cases hnone.symm.trans hlist
  refine ⟨fun uid channels => ⟨?_, ?_⟩, fun i j uid channels channels' hi hj => ?_⟩
  · rintro ⟨i, hi⟩
    exact ⟨(hsound.listed hi).2.2, hassigned hi⟩
  · rintro ⟨hne, rfl⟩
    cases hs : m.sessions.lookup uid with
    | none =>
      rcases hlast uid with hview | ⟨-, hnil⟩
      · rw [hs, eq_comm, Option.map_none, Option.map_eq_none_iff] at hview
        exact absurd (by rw [entry, hview]; rfl) hne
      · exact absurd hnil hne
    | some s =>
      obtain ⟨channels, hruns⟩ := hsound.running hs
      exact ⟨_, hassigned hruns ▸ hruns⟩
  · have hsame := (hsound.listed hi).1.symm.trans (hsound.listed hj).1
    rw [Option.some.injEq, ChatSession.mk.injEq] at hsame
    exact hsame.2

/-- User 7 watches channel 1. -/
def oneWatcher : ChatTick where
  enabled := true
  registrations := [{ installationID := "a", userID := "7", channelIDs := ["1"] }]
  walks := ⟨.backwards, fun _ => .backwards, .backwards⟩
  sessions := .backwards
  desired := .backwards

theorem oneWatcher_covered :
    ∃ i, (runTicks String.ofList [oneWatcher]).goroutines.lookup i = some ("7", ["1"]) :=
  ((chat_sessions_cover (fun _ _ => String.ofList_injective) [] oneWatcher
    (by simp [ChatTick.Separated, oneWatcher]) rfl).1 "7" ["1"]).mpr (by decide +kernel)

/-- **After `stopAll` no session is running**, whatever happened before. -/
theorem no_chat_session_after_stop (ticks : List ChatTick) (walk : MapWalk) (i : Nat) :
    ((runTicks hash ticks).stopAll walk).2.goroutines.lookup i = none := by
  obtain ⟨hsound, hnone⟩ :=
    (runTicks_sound (P := fun _ => True) hash fun _ _ _ => trivial).stopAll walk
  rw [Option.eq_none_iff_forall_ne_some]
  rintro ⟨uid, channels⟩ hi
  cases (hnone uid).symm.trans (hsound.listed hi).1

end Rounds

end Ferventio
