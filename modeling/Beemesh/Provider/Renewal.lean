import Beemesh.Provider.Sightings

/-!
# Renewal

A provider that is seen again has a later time in its entry, but the entry expires when it would
have: the expiry is told from the time at which it was made. A provider that is seen for longer than
the time to live is therefore cleaned up, and left out of answers, however late it was last seen.

## Main definitions

* `Visible`: the list of a manifest has an entry of the peer that is not expired
* `LiveVisible`: whoever was seen within the time to live is kept and returned
* `Announced`: the list has an entry of the peer that was announced in time
* `KeepsLive`: a part of a call leaves whoever was seen in time an entry that was announced in time

## Main results

* `visible_iff_announced`: the entries of the visible ones were announced in time
* `visible_seeAgain`: seeing a provider again does not make it visible
* `liveVisible_iff`: kept and returned are the visible ones
* `live_always_visible_iff`: the runs throughout which those that were seen are visible
* `renewed_not_visible`: a provider that is cleaned up right after it was seen
-/

namespace Beemesh

/-- The list has an entry of the peer that is not expired. -/
def Visible (now : ℕ) (providers : List ProviderInfo) (peer : String) : Prop :=
  peer ∈ (validProviders now providers).map ProviderInfo.peerId

/-- The time is at most the time to live back. -/
def Recent (config : ProviderConfig) (now time : ℕ) : Prop :=
  time ≤ now ∧ now ≤ time + config.defaultTtlSeconds.toNat * nanosPerSecond

/-- A provider that was last seen within the time to live, and was not taken out by the limit, is
one that a cleanup keeps, and one of those that a discovery has from the cache. -/
def LiveVisible (config : ProviderConfig) (w : Watch) : Prop :=
  ∀ m peer x, w.seen m peer = some x → Recent config w.state.now x.entry.lastSeen →
    peer ∈ ((cleanupExpiredProviders w.state.remote w.state.now).of m).map ProviderInfo.peerId ∧
      ∃ answer, cachedProviders w.state.remote w.state.now m = some answer ∧
        peer ∈ answer.map ProviderInfo.peerId

/-- The list has an entry of the peer that was announced no more than its time to live ago, in full
seconds, whenever it was seen. -/
def Announced (now : ℕ) (providers : List ProviderInfo) (peer : String) : Prop :=
  ∃ e ∈ providers, e.peerId = peer ∧ e.announcedAt ≤ now ∧
    now < e.announcedAt + (e.ttlSeconds.toNat + 1) * nanosPerSecond

/-- A part of a call leaves a provider that was last seen within the time to live an entry that was
announced within it: the clock does not leave the entry behind, a provider that is seen again was
announced in time, and a list that is stored has such an entry. -/
def KeepsLive (config : ProviderConfig) (w : Watch) : DiscoveryAction → Prop
  | .clock now => ∀ m peer x, w.seen m peer = some x → Recent config now x.entry.lastSeen →
    Announced now (w.state.remote.of m) peer
  | .record c => ∀ info, w.state.calls c = .started info →
    info.peerId ∈ (w.state.remote.of info.manifestId).map ProviderInfo.peerId →
      Announced w.state.now (w.state.remote.of info.manifestId) info.peerId
  | .store q => ∀ providers, (w.state.queries q).phase = .received providers →
    ∀ peer x, w.seen (w.state.queries q).manifestId peer = some x →
      Recent config w.state.now x.entry.lastSeen → Announced w.state.now providers peer
  | _ => True

/-! ## Entries that are not expired -/

section Visible

variable {config : ProviderConfig} {now : ℕ} {providers : List ProviderInfo} {peer : String}

theorem visible_iff : Visible now providers peer ↔
    ∃ e ∈ providers, e.peerId = peer ∧ e.isExpired now = false := by
  simp only [Visible, validProviders, List.mem_map, List.mem_filter, Bool.not_eq_true']
  grind

/-- Expiry is told from the time of the announcement. -/
theorem isExpired_eq_false_iff (e : ProviderInfo) (now : ℕ) : e.isExpired now = false ↔
    e.announcedAt ≤ now ∧ now < e.announcedAt + (e.ttlSeconds.toNat + 1) * nanosPerSecond := by
  unfold ProviderInfo.isExpired
  split_ifs with hpast
  · rw [decide_eq_false_iff_not, Nat.not_lt, Nat.div_le_iff_le_mul_add_pred (by decide),
      and_iff_right hpast, Nat.mul_comm, Nat.add_mul, Nat.one_mul]
    have hpos : 0 < nanosPerSecond := by decide
    omega
  · exact iff_of_false nofun fun h => hpast h.1

/-- **Who is visible** was announced in time. -/
theorem visible_iff_announced : Visible now providers peer ↔ Announced now providers peer := by
  rw [visible_iff, Announced]
  simp only [isExpired_eq_false_iff]

/-- **Seeing a provider again** does not change who is visible: its entry expires when it would
have. -/
theorem visible_seeAgain (now' : ℕ) (peer' : String) :
    Visible now (seeAgain now' peer' providers) peer ↔ Visible now providers peer := by
  -- Neither the peer of an entry nor its expiry looks at the time it was seen last.
  have hmap : (seeAgain now' peer' providers).map (fun e => (e.peerId, e.isExpired now)) =
      providers.map fun e => (e.peerId, e.isExpired now) := map_seeAgain (fun _ => rfl) peer' _
  have hmem (l : List ProviderInfo) :
      Visible now l peer ↔ (peer, false) ∈ l.map fun e => (e.peerId, e.isExpired now) := by
    rw [visible_iff, List.mem_map]
    simp only [Prod.mk.injEq]
  rw [hmem, hmem, hmap]

/-- An entry that was made when it was last seen is not expired within the time to live. -/
theorem isExpired_of_recent {e : ProviderInfo} (hannounced : e.announcedAt = e.lastSeen)
    (httl : e.ttlSeconds = config.defaultTtlSeconds) (h : Recent config now e.lastSeen) :
    e.isExpired now = false := by
  obtain ⟨hpast, hlive⟩ := h
  have hpos : 0 < nanosPerSecond := by decide
  rw [isExpired_eq_false_iff, hannounced, httl, Nat.add_mul, Nat.one_mul]
  exact ⟨hpast, by omega⟩

/-- **Kept and returned** are the visible ones. -/
theorem liveVisible_iff {w : Watch} : LiveVisible config w ↔
    ∀ m peer x, w.seen m peer = some x → Recent config w.state.now x.entry.lastSeen →
      Visible w.state.now (w.state.remote.of m) peer := by
  refine forall₅_congr fun m peer x hx hrecent => ?_
  rw [of_cleanupExpiredProviders]
  -- There is an answer from the cache since one of its entries is not expired.
  refine and_iff_left_of_imp fun hvisible => ?_
  refine ⟨_, cachedProviders_eq_some_iff.mpr ⟨?_, rfl⟩, hvisible⟩
  intro hnil
  rw [hnil] at hvisible
  exact nomatch hvisible

end Visible

/-! ## What a step keeps -/

/-- What a call has made and not recorded yet was made when it was seen. -/
def Discovery.Fresh (config : ProviderConfig) (s : Discovery) : Prop :=
  ∀ c info, s.calls c = .started info →
    info.announcedAt = info.lastSeen ∧ info.ttlSeconds = config.defaultTtlSeconds

section Fresh

variable {config : ProviderConfig} {s : Discovery}

theorem Discovery.Fresh.setCall (h : s.Fresh config) (c : ℕ) {call : FoundCall}
    (hcall : ∀ info, call = .started info →
      info.announcedAt = info.lastSeen ∧ info.ttlSeconds = config.defaultTtlSeconds) :
    (s.setCall c call).Fresh config := by
  intro c' info
  change Function.update s.calls c call c' = .started info → _
  rcases eq_or_ne c' c with rfl | hne
  · rw [Function.update_self]
    exact hcall info
  · rw [Function.update_of_ne hne]
    exact h c' info

theorem Discovery.Fresh.step (h : s.Fresh config) (a : DiscoveryAction) :
    (discoveryStep config s a).Fresh config := by
  have hpart := discoveryStep_part config s a
  generalize discoveryStep config s a = s' at hpart
  cases hpart with
  | found m peer hcall =>
    refine h.setCall _ ?_
    rintro info ⟨⟩
    exact ⟨rfl, rfl⟩
  | @record c info hcall => exact h.setCall c nofun
  | @take c m hcall hlock =>
    have hidle : (s.setCall c .idle).Fresh config := h.setCall c nofun
    intro c' info
    rw [Discovery.calls_takeSenders]
    exact hidle c' info
  | notify =>
    intro c' info
    rw [Discovery.calls_notify]
    exact h c' info
  | _ => exact h

end Fresh

/-- Whoever was seen within the time to live is visible. -/
structure Watch.Live (config : ProviderConfig) (w : Watch) : Prop where
  visible : ∀ m peer x, w.seen m peer = some x → Recent config w.state.now x.entry.lastSeen →
    Visible w.state.now (w.state.remote.of m) peer
  fresh : w.state.Fresh config

namespace Watch

variable {config : ProviderConfig} {w : Watch}

theorem Live.start (config : ProviderConfig) (now : ℕ) : (start now).Live config where
  visible := nofun
  fresh := nofun

/-- Recording a provider that is new, or not expired, makes it visible, and leaves the others
visible that it does not take out. -/
theorem Live.visible_recorded (h : w.Live config) {c : ℕ} {info : ProviderInfo}
    (hcall : w.state.calls c = .started info)
    (hguard : info.peerId ∈ (w.state.remote.of info.manifestId).map ProviderInfo.peerId →
      Visible w.state.now (w.state.remote.of info.manifestId) info.peerId)
    {m peer : String} {x : SeenEntry}
    (hx : noteSighting config w.state info w.seen m peer = some x)
    (hrecent : Recent config w.state.now x.entry.lastSeen) :
    Visible w.state.now ((recordFound config w.state.remote w.state.now info).of m) peer := by
  rw [of_recordFound]
  rcases noteSighting_cases hx with ⟨hm, hseen⟩ | ⟨rfl, rfl, rfl⟩ | ⟨rfl, hpeer, hstays, hseen⟩
  · rw [if_neg hm]
    exact h.visible m peer x hseen hrecent
  · rw [if_pos rfl]
    -- A provider that is seen again is as visible as it was; one that is new is not expired.
    by_cases hknown : info.peerId ∈ (w.state.remote.of info.manifestId).map ProviderInfo.peerId
    · rw [recordProvider, if_pos (any_peerId_iff.mpr hknown), visible_seeAgain]
      exact hguard hknown
    · obtain ⟨hannounced, httl⟩ := h.fresh c info hcall
      have hmem := sightedEntry_mem config w.state.now info (w.state.remote.of info.manifestId)
      dsimp only at hrecent
      rw [sightedEntry_of_notMem hknown] at hmem hrecent
      exact visible_iff.mpr ⟨info, hmem, rfl, isExpired_of_recent hannounced httl hrecent⟩
  · obtain ⟨e, he, rfl, hlive⟩ := visible_iff.mp (h.visible _ peer x hseen hrecent)
    rw [if_pos rfl]
    exact visible_iff.mpr ⟨e, mem_recordProvider he hpeer hstays, rfl, hlive⟩

/-- **A part of a call that keeps the live ones** leaves whoever was seen within the time to live
visible. -/
theorem Live.step (h : w.Live config) {a : DiscoveryAction} (hguard : KeepsLive config w a) :
    (watchStep config w a).Live config := by
  refine ⟨?_, h.fresh.step a⟩
  intro m peer x hx hrecent
  obtain ⟨x, hseen, rfl⟩ := of_seen_watchStep hx
  have hchange := cacheChange config w.state a
  unfold seenAfter at hseen
  rw [state_watchStep] at hrecent ⊢
  change Recent config _ x.entry.lastSeen at hrecent
  clear hx
  generalize (discoveryStep config w.state a).now = now' at hchange hrecent ⊢
  generalize (discoveryStep config w.state a).remote = remote' at hchange ⊢
  cases hchange with
  | kept hrecorded =>
    rw [hrecorded] at hseen
    exact h.visible m peer x hseen hrecent
  | clock => exact visible_iff_announced.mpr (hguard m peer x hseen hrecent)
  | recorded hcall =>
    simp only [recordedInfo, hcall] at hseen
    have hannounced := fun hknown => visible_iff_announced.mpr (hguard _ hcall hknown)
    exact h.visible_recorded hcall hannounced hseen hrecent
  | cleaned =>
    obtain ⟨e, he, hpeer, hlive⟩ := visible_iff.mp (h.visible m peer x hseen hrecent)
    rw [of_cleanupExpiredProviders]
    exact visible_iff.mpr ⟨e, List.mem_filter.mpr ⟨he, by rw [hlive, Bool.not_false]⟩, hpeer, hlive⟩
  | @stored q providers hphase =>
    rw [of_insert]
    split_ifs with hm
    · subst hm
      exact visible_iff_announced.mpr (hguard providers hphase peer x hseen hrecent)
    · exact h.visible m peer x hseen hrecent

/-- A part of a call that leaves one of the live behind takes it out of sight. -/
theorem not_liveVisible_step {a : DiscoveryAction} (hguard : ¬ KeepsLive config w a) :
    ¬ LiveVisible config (watchStep config w a) := by
  rw [liveVisible_iff]
  intro hlive
  apply hguard
  cases a with
  | clock now =>
    intro m peer x hx hrecent
    have hvisible := hlive m peer _ (seen_watchStep (a := .clock now) hx) hrecent
    exact visible_iff_announced.mp hvisible
  | record c =>
    intro info hcall hknown
    have hx : seenAfter config w (.record c) info.manifestId info.peerId =
        some ⟨sightedEntry w.state.now info (w.state.remote.of info.manifestId), false⟩ := by
      simp [seenAfter, recordedInfo, hcall, noteSighting]
    have hafter : discoveryStep config w.state (.record c) =
        { w.state.setCall c (.recorded info.manifestId) with
          remote := recordFound config w.state.remote w.state.now info } := by
      rw [discoveryStep, hcall]
    have hvisible := hlive _ _ _ (seen_watchStep hx)
    rw [state_watchStep, hafter] at hvisible
    dsimp only [SeenEntry.expire] at hvisible
    -- It is seen now, and no more visible than before.
    rw [lastSeen_sightedEntry_of_mem hknown, of_recordFound, if_pos rfl, recordProvider,
      if_pos (any_peerId_iff.mpr hknown), visible_seeAgain] at hvisible
    exact visible_iff_announced.mp (hvisible ⟨Nat.le_refl _, Nat.le_add_right _ _⟩)
  | store q =>
    intro providers hphase peer x hx hrecent
    have hafter : discoveryStep config w.state (.store q) =
        { w.state.setPhase q (.returned (.ok providers) w.state.now) with
          remote := w.state.remote.insert (w.state.queries q).manifestId providers } := by
      rw [discoveryStep, hphase]
    have hvisible := hlive _ peer _ (seen_watchStep (a := .store q) hx)
    rw [state_watchStep, hafter] at hvisible
    dsimp only [SeenEntry.expire] at hvisible
    rw [of_insert, if_pos rfl] at hvisible
    exact visible_iff_announced.mp (hvisible hrecent)
  | _ => trivial

end Watch

/-- **The runs throughout which live providers are visible**: those each of whose parts leaves the
providers that were seen within the time to live, and not taken out by the limit, an entry that was
announced within it. -/
theorem live_always_visible_iff (config : ProviderConfig) (now : ℕ) (acts : List DiscoveryAction) :
    Run.Always (watchStep config) (LiveVisible config) (Watch.start now) acts ↔
      Run.Guarded (watchStep config) (KeepsLive config) (Watch.start now) acts := by
  have hp (w : Watch) (hw : w.Live config) : LiveVisible config w := liveVisible_iff.mpr hw.visible
  have hstep (w : Watch) (a : DiscoveryAction) (hw : w.Live config)
      (hguard : KeepsLive config w a) : (watchStep config w a).Live config := hw.step hguard
  have hbreak (w : Watch) (a : DiscoveryAction) (_ : True) (_ : w.Live config)
      (hguard : ¬ KeepsLive config w a) : ¬ LiveVisible config (watchStep config w a) :=
    Watch.not_liveVisible_step hguard
  exact Run.always_iff_guarded hp hstep hbreak (fun _ _ => trivial) (Watch.Live.start config now)

/-- **A provider that is cleaned up right after it was seen**: it was found first one time to live
and a second ago, and again a second ago. -/
theorem renewed_not_visible :
    ¬ ∀ (config : ProviderConfig) (now : ℕ) (acts : List DiscoveryAction),
      LiveVisible config (Run.run (watchStep config) (Watch.start now) acts) := by
  intro h
  have hvisible := h .default 0 [.found 0 "web" "a", .record 0, .take 0, .clock 3600000000000,
    .found 0 "web" "a", .record 0, .take 0, .clock 3601000000000] "web" "a"
    ⟨⟨"a", "web", 0, 3600000000000, 3600, ∅⟩, true⟩ (by rfl) ⟨by decide, by decide⟩
  exact absurd hvisible.1 (by decide)

end Beemesh
