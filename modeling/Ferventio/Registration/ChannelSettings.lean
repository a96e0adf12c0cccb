import Ferventio.Registration.Handlers

/-!
# Per-channel settings and the order of a map

The settings of a request are maps, and Go walks a map in any order. Keys that differ only in case
or in the white space around them name one channel, and the one that comes last decides on its
setting.

* **`channel_settings_order_iff`**: the order does not matter exactly when they agree.
-/

namespace Ferventio

open Strings List Table

section Keep

variable {β : Type} {settings : List (String × β)} {ids : List String} {t : Table String β}
  {id : String} {value : β}

/-- The loop of `collectChannels` over what it keeps. -/
def keepSettings : List (String × β) → Table String β → Table String β
  | [], t => t
  | (id, value) :: settings, t =>
    if count (t.insert id value) ≥ 100 then t.insert id value
    else keepSettings settings (t.insert id value)

/-- Settings for one channel have one value. -/
def Agreeing (settings : List (String × β)) : Prop :=
  ∀ s ∈ settings, ∀ s' ∈ settings, s.1 = s'.1 → s.2 = s'.2

theorem lookup_keepSettings_ne (h : ∀ s ∈ settings, s.1 ≠ id) :
    (keepSettings settings t).lookup id = t.lookup id := by
  induction settings generalizing t with
  | nil => rfl
  | cons s settings ih =>
    have hother : AList.lookup id (t.insert s.1 s.2) = t.lookup id := by
      rw [lookup_insert_eq, if_neg (h s mem_cons_self).symm]
    rw [keepSettings]
    split_ifs
    · exact hother
    · rw [ih fun s' hs' => h s' (mem_cons_of_mem s hs'), hother]

theorem lookup_ne_none_of_count (hkeys : ∀ k, t.lookup k ≠ none → k ∈ ids)
    (hcount : ids.length ≤ t.count) (hid : id ∈ ids) : t.lookup id ≠ none := by
  have hsub : t.keys.Subperm ids :=
    subperm_of_subset t.keys_nodup fun k hk => hkeys k (mem_keys_iff.mp hk)
  have hperm := hsub.perm_of_length_le (hcount.trans_eq (length_map _).symm)
  exact mem_keys_iff.mp (hperm.mem_iff.mpr hid)

/-- **What is kept when the settings for a channel agree.** From 100 channels on the rest is
dropped. -/
theorem lookup_keepSettings (hids : ids.length ≤ 100) (hmem : ∀ s ∈ settings, s.1 ∈ ids)
    (hagree : Agreeing settings)
    (ht : ∀ k v, t.lookup k = some v → k ∈ ids ∧ ∀ s ∈ settings, k = s.1 → v = s.2) :
    (keepSettings settings t).lookup id = some value ↔
      t.lookup id = some value ∨ (id, value) ∈ settings := by
  induction settings generalizing t with
  | nil => simp [keepSettings]
  | cons s settings ih =>
    obtain ⟨first, picked⟩ := s
    have hfirst := hagree _ mem_cons_self
    have hins : ∀ k v, AList.lookup k (t.insert first picked) = some v →
        k ∈ ids ∧ ∀ s ∈ settings, k = s.1 → v = s.2 := by
      intro k v hk
      rw [lookup_insert_eq] at hk
      split_ifs at hk with heq
      · cases hk
        subst heq
        exact ⟨hmem _ mem_cons_self, fun s hs => hfirst s (mem_cons_of_mem _ hs)⟩
      · exact ⟨(ht k v hk).1, fun s hs => (ht k v hk).2 s (mem_cons_of_mem _ hs)⟩
    have hwritten : AList.lookup id (t.insert first picked) = some value ↔
        t.lookup id = some value ∨ (id, value) = (first, picked) := by
      rw [lookup_insert_eq, Prod.mk.injEq]
      split_ifs with heq
      · have hold : t.lookup id = some value → picked = value :=
          fun h => ((ht id value h).2 _ mem_cons_self heq).symm
        rw [Option.some.injEq, eq_comm (a := value)]
        exact ⟨fun h => .inr ⟨heq, h⟩, fun h => h.elim hold And.right⟩
      · exact ⟨.inl, fun h => h.resolve_right fun h => heq h.1⟩
    rw [keepSettings, mem_cons, ← or_assoc, ← hwritten]
    split_ifs with hfull
    · refine ⟨.inl, fun h => h.elim (fun h => h) fun hlater => ?_⟩
      have hpresent := lookup_ne_none_of_count
        (fun k hk => (hins k _ (Option.ne_none_iff_exists'.mp hk).choose_spec).1)
        (hids.trans hfull) (hmem _ (mem_cons_of_mem _ hlater))
      obtain ⟨kept, hkept⟩ := Option.ne_none_iff_exists'.mp hpresent
      rw [hkept, (hins _ _ hkept).2 _ hlater rfl]
    · exact ih (fun s hs => hmem s (mem_cons_of_mem _ hs)) (fun s hs s' hs' =>
        hagree s (mem_cons_of_mem _ hs) s' (mem_cons_of_mem _ hs')) hins

theorem keepSettings_last {own rest : List (String × β)} (ht : ∀ k, t.lookup k ≠ none → k ∈ [id])
    (hown : ∀ s ∈ own, s.1 = id) (hrest : ∀ s ∈ rest, s.1 ≠ id) :
    (keepSettings (own ++ (id, value) :: rest) t).lookup id = some value := by
  -- the table has one row at most, so the loop is not left early
  have hins : ∀ {t : Table String β} (value : β), (∀ k, t.lookup k ≠ none → k ∈ [id]) →
      (∀ k, AList.lookup k (t.insert id value) ≠ none → k ∈ [id]) ∧
        ¬count (t.insert id value) ≥ 100 := by
    intro t value ht
    have hkeys : ∀ k, AList.lookup k (t.insert id value) ≠ none → k ∈ [id] := by
      intro k hk
      rw [lookup_insert_eq] at hk
      split_ifs at hk with heq
      · exact mem_singleton.mpr heq
      · exact ht k hk
    have hcount : count (t.insert id value) ≤ 1 := count_le_dedup hkeys
    exact ⟨hkeys, by omega⟩
  induction own generalizing t with
  | nil =>
    rw [nil_append, keepSettings, if_neg (hins value ht).2, lookup_keepSettings_ne hrest,
      lookup_insert_eq, if_pos rfl]
  | cons s own ih =>
    obtain ⟨first, picked⟩ := s
    obtain rfl : first = id := hown _ mem_cons_self
    rw [cons_append, keepSettings, if_neg (hins picked ht).2]
    exact ih (hins picked ht).1 fun s hs => hown s (mem_cons_of_mem _ hs)

end Keep

/-! ## Every order -/

section Order

variable {α β : Type} {toLower : String → String} {allowed : Table String String}
  {pick : α → Option β} {ids : List String} {t : Table String β}

/-- What an entry of the map is kept as. -/
def settingFor (toLower : String → String) (allowed : Table String String) (pick : α → Option β)
    (e : Row String α) : Option (String × β) :=
  (allowed.lookup (toLower (trimSpace e.1))).bind fun channelID => (pick e.2).map (channelID, ·)

theorem collectChannels_eq (entries : List (Row String α)) :
    collectChannels toLower allowed pick entries t =
      keepSettings (entries.filterMap (settingFor toLower allowed pick)) t := by
  induction entries generalizing t with
  | nil => rfl
  | cons e entries ih =>
    rw [collectChannels, filterMap_cons, settingFor]
    cases allowed.lookup (toLower (trimSpace e.1)) with
    | none => exact ih
    | some id =>
      cases pick e.2 with
      | none => exact ih
      | some value =>
        show (if _ then _ else _) = keepSettings ((id, value) :: _) t
        rw [keepSettings, ih]

/-- The settings of the named channels. -/
def settingsOf (toLower : String → String) (ids : List String) (pick : α → Option β)
    (value : Table String α) : List (String × β) :=
  value.entries.filterMap (settingFor toLower (allowedChannels toLower ids) pick)

/-- The order of the walk does not matter, and keys are among `ids`. -/
def OrderFree (f : Table String α → Table String β) (ids : List String) (value : Table String α) :
    Prop :=
  (∀ value' : Table String α, value'.entries.Perm value.entries →
    ∀ id, (f value').lookup id = (f value).lookup id) ∧
  ∀ id, (f value).lookup id ≠ none → id ∈ ids

theorem allowedChannels_mem (htrim : ∀ id ∈ ids, trimSpace id = id) {k id : String}
    (h : (allowedChannels toLower ids).lookup k = some id) : id ∈ ids := by
  unfold allowedChannels at h
  induction ids using List.reverseRecOn with
  | nil => cases h
  | append_singleton ids last ih =>
    have hfront := fun h => mem_append_left [last] (ih (fun id hid =>
      htrim id (mem_append_left _ hid)) h)
    have hlast : last ∈ ids ++ [last] := mem_append_right ids mem_cons_self
    rw [foldl_append, foldl_cons, foldl_nil] at h
    dsimp only at h
    split_ifs at h
    · rw [lookup_insert_eq] at h
      split_ifs at h
      · cases h
        rwa [htrim last hlast]
      · exact hfront h
    · exact hfront h

theorem settingsOf_mem (htrim : ∀ id ∈ ids, trimSpace id = id) {value : Table String α}
    {s : String × β} (hs : s ∈ settingsOf toLower ids pick value) : s.1 ∈ ids := by
  obtain ⟨e, -, he⟩ := mem_filterMap.mp hs
  obtain ⟨id, hid, hvalue⟩ := Option.bind_eq_some_iff.mp he
  obtain ⟨picked, -, rfl⟩ := Option.map_eq_some_iff.mp hvalue
  exact allowedChannels_mem htrim hid

/-- A setting decides in an order that brings it behind the others for its channel. -/
theorem exists_order_last {value : Table String α} {s : String × β}
    (hs : s ∈ settingsOf toLower ids pick value) :
    ∃ value' : Table String α, value'.entries.Perm value.entries ∧
      (keepSettings (settingsOf toLower ids pick value') ∅).lookup s.1 = some s.2 := by
  obtain ⟨e, hmem, he⟩ := mem_filterMap.mp hs
  let setting := settingFor toLower (allowedChannels toLower ids) pick
  let own : (Row String α) → Bool := fun e => (setting e).all (·.1 == s.1)
  have howned : own e = true := by simp [own, setting, he]
  obtain ⟨before, after, hsplit⟩ := append_of_mem (mem_filter.mpr ⟨hmem, howned⟩)
  let rest := value.entries.filter (!own ·)
  have hmoved : (e :: (before ++ after)).Perm (value.entries.filter own) := by
    rw [hsplit]
    exact perm_middle.symm
  have hperm : (before ++ after ++ e :: rest).Perm value.entries :=
    perm_middle.trans ((hmoved.append_right rest).trans (filter_append_perm _ _))
  refine ⟨⟨_, (perm_nodupKeys hperm).mpr value.nodupKeys⟩, hperm, ?_⟩
  rw [settingsOf, filterMap_append, filterMap_cons_some he]
  refine keepSettings_last (fun k hk => absurd rfl hk) (fun s' hs' => ?_) fun s' hs' => ?_
  · obtain ⟨e', he', hs'⟩ := mem_filterMap.mp hs'
    have hown := (mem_filter.mp (hmoved.mem_iff.mp (mem_cons_of_mem e he'))).2
    simpa [own, setting, hs'] using hown
  · obtain ⟨e', he', hs'⟩ := mem_filterMap.mp hs'
    have hother := (mem_filter.mp he').2
    simpa [own, setting, hs'] using hother

theorem orderFree_iff (htrim : ∀ id ∈ ids, trimSpace id = id) (hlen : ids.length ≤ 100)
    (value : Table String α) :
    OrderFree (fun value => collectChannels toLower (allowedChannels toLower ids) pick value.entries
      ∅) ids value ↔ Agreeing (settingsOf toLower ids pick value) := by
  simp only [OrderFree, collectChannels_eq]
  constructor
  · rintro ⟨horder, -⟩ s hs s' hs' heq
    obtain ⟨value1, hperm1, hlast1⟩ := exists_order_last hs
    obtain ⟨value2, hperm2, hlast2⟩ := exists_order_last hs'
    have hsame := (horder value1 hperm1 s.1).trans (horder value2 hperm2 s.1).symm
    rw [← heq] at hlast2
    exact Option.some.inj (hlast1.symm.trans (hsame.trans hlast2))
  · intro hagree
    refine ⟨fun value' hperm id => Option.ext fun setting => ?_, fun id hid => ?_⟩
    · have hmem : ∀ s, s ∈ settingsOf toLower ids pick value' ↔
          s ∈ settingsOf toLower ids pick value := fun s => (hperm.filterMap _).mem_iff
      have hagree' : Agreeing (settingsOf toLower ids pick value') :=
        fun s hs s' hs' => hagree s ((hmem s).mp hs) s' ((hmem s').mp hs')
      have hkept : ∀ value, Agreeing (settingsOf toLower ids pick value) →
          ((keepSettings (settingsOf toLower ids pick value) ∅).lookup id = some setting ↔
            (id, setting) ∈ settingsOf toLower ids pick value) := by
        intro value hagree
        refine (lookup_keepSettings hlen (fun s hs => settingsOf_mem htrim hs) hagree ?_).trans
          (or_iff_right nofun)
        exact fun _ _ h => nomatch h
      exact (hkept value' hagree').trans ((hmem _).trans (hkept value hagree).symm)
    · by_contra hother
      refine hid (lookup_keepSettings_ne fun s hs heq => hother ?_)
      exact heq ▸ settingsOf_mem htrim hs

end Order

theorem normalizeLimitedStrings_go {toLower : String → String} {maxLength : Nat}
    (values : List String) (room : Nat) (seen : List String) :
    (normalizeLimitedStrings.go toLower maxLength (room + 1) seen values).length ≤ room + 1 ∧
      ∀ id ∈ normalizeLimitedStrings.go toLower maxLength (room + 1) seen values,
        trimSpace id = id := by
  induction values generalizing room seen with
  | nil => exact ⟨Nat.zero_le _, nofun⟩
  | cons value values ih =>
    unfold normalizeLimitedStrings.go
    dsimp only
    split_ifs
    · exact ih room seen
    · cases room with
      | zero =>
        refine ⟨le_rfl, fun id hid => ?_⟩
        rw [mem_singleton.mp hid]
        exact trimSpace_trimSpace value
      | succ room =>
        obtain ⟨hlen, htrim⟩ := ih room (toLower (trimSpace value) :: seen)
        refine ⟨Nat.succ_le_succ hlen, fun id hid => ?_⟩
        rcases mem_cons.mp hid with rfl | hid
        · exact trimSpace_trimSpace value
        · exact htrim id hid

/-- **When the settings do not depend on the order of a map**: those for one channel are the same,
rules after their normalisation and times if they are positive. -/
theorem channel_settings_order_iff (toLower : String → String) (values : List String)
    (maxLength : Nat) (rules : Table String (List String)) (mutedUntil : Table String Int) :
    let ids := normalizeLimitedStrings toLower values 100 maxLength
    OrderFree (normalizeNotificationChannelRules toLower · ids) ids rules ∧
        OrderFree (normalizeNotificationChannelMutedUntilEpochMillis toLower · ids) ids mutedUntil ↔
      Agreeing (settingsOf toLower ids
          (fun rules => some (normalizeLimitedStrings toLower rules 32 64)) rules) ∧
        Agreeing (settingsOf toLower ids (fun time : Int => if time ≤ 0 then none else some time)
          mutedUntil) := by
  obtain ⟨hlen, htrim⟩ := normalizeLimitedStrings_go values 99 []
  exact and_congr (orderFree_iff htrim hlen rules) (orderFree_iff htrim hlen mutedUntil)

/-- Two times for one channel, in the two orders of the map. -/
theorem muted_until_depends_on_order :
    let lower := fun s : String => String.ofList (s.toList.map Char.toLower)
    let ids := normalizeLimitedStrings lower ["a"] 100 64
    ∃ value value' : Table String Int, value'.entries.Perm value.entries ∧
      (normalizeNotificationChannelMutedUntilEpochMillis lower value ids).lookup "a" = some 1 ∧
      (normalizeNotificationChannelMutedUntilEpochMillis lower value' ids).lookup "a" = some 2 :=
  ⟨AList.insert "A" 2 (AList.insert "a" 1 ∅), AList.insert "a" 1 (AList.insert "A" 2 ∅),
    List.Perm.swap .., by decide +kernel, by decide +kernel⟩

end Ferventio
