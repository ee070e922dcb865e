import Beemesh.Provider.Queries

/-!
# The bookkeeping of the discovery queries

Every way out of a query that the DHT answers takes the senders of its manifest together with the
query. Where the call that started the query gives up, only the query is taken, and the senders stay
behind without one.

## Main definitions

* `Queries.Consistent`: the tables of the queries and of the senders fit together
* `Queries.StarterWaits`: the call that started a query does not give up

## Main results

* `Queries.Consistent.step`: what keeps the tables together
* `consistent_iff`: the runs throughout which the tables fit together
* `senders_left_behind`: senders without a query
-/

namespace Beemesh

namespace Queries

/-- There are senders only for active queries, not more queries than are allowed, and every call
that waits and has been sent nothing has its sender with its manifest. -/
structure Consistent (s : Queries) : Prop where
  active : ∀ m ∈ s.manager.pendingChannels, m ∈ s.manager.activeQueries
  bounded : s.manager.activeQueries.keys.length ≤ s.manager.config.maxConcurrentQueries
  waiting : ∀ c query starts, (s.calls c).phase = .waiting query starts →
    (s.calls c).inbox = [] → c ∈ s.manager.senders query.manifestId

/-- A call that has started its query is not given up while nothing is in its channel. -/
def StarterWaits (s : Queries) (a : Queries.Action) : Prop :=
  ∀ c now query, a = .timeout c now → (s.calls c).phase = .waiting query true →
    (s.calls c).inbox ≠ []

variable {s s' : Queries}

/-- What leaves both tables as they are, and no other call waiting. -/
theorem Consistent.congr (h : Consistent s)
    (hpending : s'.manager.pendingChannels = s.manager.pendingChannels)
    (hactive : s'.manager.activeQueries = s.manager.activeQueries)
    (hconfig : s'.manager.config = s.manager.config)
    (hcalls : ∀ c query starts, (s'.calls c).phase = .waiting query starts →
      s'.calls c = s.calls c) : Consistent s' where
  active := by
    rw [hpending, hactive]
    exact h.active
  bounded := by
    rw [hactive, hconfig]
    exact h.bounded
  waiting c query starts hphase hinbox := by
    have hcall := hcalls c query starts hphase
    rw [hcall] at hphase hinbox
    rw [DiscoveryManager.senders, hpending]
    exact h.waiting c query starts hphase hinbox

/-- A call that does not wait any longer. -/
theorem Consistent.settle (h : Consistent s) {c : ℕ} {call : DiscoverCall} {dm : DiscoveryManager}
    (hcall : ∀ query starts, call.phase ≠ .waiting query starts)
    (hpending : dm.pendingChannels = s.manager.pendingChannels)
    (hactive : dm.activeQueries = s.manager.activeQueries)
    (hconfig : dm.config = s.manager.config) :
    Consistent { s.setCall c call with manager := dm } := by
  refine h.congr hpending hactive hconfig ?_
  intro c' query starts hphase
  change ((s.setCall c call).calls c').phase = _ at hphase
  change (s.setCall c call).calls c' = _
  rcases eq_or_ne c' c with rfl | hne
  · rw [calls_setCall_self] at hphase
    exact absurd hphase (hcall query starts)
  · rw [calls_setCall_of_ne s hne]

/-- A call leaves its sender, for a query that is active. -/
theorem Consistent.leave (h : Consistent s) {c : ℕ} {query : DiscoveryQuery} {starts : Bool}
    {dm : DiscoveryManager} (hpending : dm.pendingChannels = s.manager.pendingChannels)
    (hactive : query.manifestId ∈ dm.activeQueries)
    (hkept : ∀ m ∈ s.manager.activeQueries, m ∈ dm.activeQueries)
    (hbounded : dm.activeQueries.keys.length ≤ dm.config.maxConcurrentQueries) :
    Consistent { s.setPhase c (.waiting query starts) with
      manager := dm.leaveSender query.manifestId c } where
  active m hm := by
    change m ∈ dm.pendingChannels.insert query.manifestId _ at hm
    rw [AList.mem_insert, hpending] at hm
    rcases hm with rfl | hm
    · exact hactive
    · exact hkept m (h.active m hm)
  bounded := hbounded
  waiting c' query' starts' hphase hinbox := by
    change ((s.setPhase c (.waiting query starts)).calls c').phase = _ at hphase
    change ((s.setPhase c (.waiting query starts)).calls c').inbox = _ at hinbox
    change c' ∈ (dm.leaveSender query.manifestId c).senders query'.manifestId
    rw [DiscoveryManager.senders_leaveSender]
    rcases eq_or_ne c' c with rfl | hne
    · -- It waits for this query, with which it has left its sender.
      rw [setPhase, calls_setCall_self] at hphase
      cases hphase
      rw [if_pos rfl]
      exact List.mem_append_right _ List.mem_cons_self
    · rw [setPhase, calls_setCall_of_ne s hne] at hphase hinbox
      have hmem := h.waiting c' query' starts' hphase hinbox
      rw [DiscoveryManager.senders, ← hpending, ← DiscoveryManager.senders] at hmem
      split_ifs with hm
      · exact List.mem_append_left _ (hm ▸ hmem)
      · exact hmem

/-- A query ends, and its senders are sent a result. -/
theorem Consistent.finish (h : Consistent s) {dm : DiscoveryManager} (m : String)
    (result : DiscoveryResult) (hpending : dm.pendingChannels = s.manager.pendingChannels)
    (hactive : dm.activeQueries = s.manager.activeQueries)
    (hconfig : dm.config = s.manager.config) :
    Consistent (s.deliver (dm.finish m) (s.manager.senders m) result) where
  active m' hm' := by
    change m' ∈ dm.pendingChannels.erase m at hm'
    change m' ∈ dm.activeQueries.erase m
    rw [AList.mem_erase, hpending] at hm'
    rw [AList.mem_erase, hactive]
    exact ⟨hm'.1, h.active m' hm'.2⟩
  bounded := by
    change (dm.activeQueries.erase m).keys.length ≤ dm.config.maxConcurrentQueries
    rw [hactive, hconfig, AList.keys_erase]
    exact List.length_erase_le.trans h.bounded
  waiting c query starts hphase hinbox := by
    obtain ⟨hsame, -, hnil⟩ := sendAll_spec result (s.manager.senders m) s.calls c
    change (sendAll result (s.manager.senders m) s.calls c).phase = _ at hphase
    change c ∈ (dm.finish m).senders query.manifestId
    rw [hsame] at hphase
    obtain ⟨hempty, hsent⟩ := hnil hinbox
    have hmem := h.waiting c query starts hphase hempty
    rw [DiscoveryManager.senders_finish]
    -- A sender of the manifest would have been sent the result.
    split_ifs with hm
    · exact absurd hphase (hsent (hm ▸ hmem) query starts)
    · rwa [DiscoveryManager.senders, hpending, ← DiscoveryManager.senders]

/-- A call whose sender is gone does not wait. -/
theorem Consistent.not_senderGone (h : Consistent s) {c : ℕ} {query : DiscoveryQuery}
    {starts : Bool} (hphase : (s.calls c).phase = .waiting query starts)
    (hinbox : (s.calls c).inbox = []) : ¬ s.SenderGone c := by
  intro hgone
  obtain ⟨senders, hlookup, hmem⟩ :=
    DiscoveryManager.mem_senders_iff.mp (h.waiting c query starts hphase hinbox)
  exact hgone ⟨query.manifestId, senders⟩ (AList.mem_entries_iff.mpr hlookup) hmem

/-- **What keeps the tables together**: all that happens, as long as no call gives up a query that
it has started. -/
theorem Consistent.step (h : Consistent s) {a : Queries.Action} (hguard : StarterWaits s a) :
    Consistent (Queries.step s a) := by
  have hchange := step_change s a
  generalize Queries.step s a = s' at hchange
  cases hchange with
  | nothing => exact h
  | hit => exact h.settle nofun rfl rfl rfl
  | join hphase hactive => exact h.leave rfl hactive (fun _ => id) h.bounded
  | reject => exact h.settle nofun rfl rfl rfl
  | @start c query now hphase hactive hroom =>
    refine h.leave rfl ?_ ?_ ?_
    · exact (AList.mem_insert _).mpr (.inl rfl)
    · exact fun m hm => (AList.mem_insert _).mpr (.inr hm)
    · -- The query is a new one, and there was room for it.
      change (s.manager.activeQueries.insert query.manifestId query).keys.length ≤ _
      rw [AList.keys_insert, List.erase_of_not_mem (by simpa [AList.mem_keys] using hactive)]
      exact hroom
  | @receive c query starts now result inbox hphase hinbox =>
    rw [takeResult]
    split_ifs
    · exact h.settle nofun rfl rfl rfl
    · exact h.settle nofun rfl rfl rfl
  | closed now hphase hinbox hgone => exact absurd hgone (h.not_senderGone hphase hinbox)
  | @timeout c query starts now hphase hinbox =>
    cases starts with
    | true => exact absurd hinbox (hguard c now query rfl hphase)
    | false => exact h.settle nofun rfl rfl rfl
  | drop => exact h.settle nofun rfl rfl rfl
  | @found m peers queryDuration now query hactive filtered hfiltered =>
    split_ifs
    · exact h.finish m _ rfl rfl rfl
    · exact h.finish m _ rfl rfl rfl
  | error m message now => exact h.finish m _ rfl rfl rfl
  | cleanup now => exact h.congr rfl rfl rfl fun _ _ _ _ => rfl

/-- **A call gives up the query that it has started**: its sender stays. -/
theorem Consistent.not_step (h : Consistent s) {a : Queries.Action} (hguard : ¬ StarterWaits s a) :
    ¬ Consistent (Queries.step s a) := by
  intro hafter
  refine hguard ?_
  rintro c now query rfl hphase hinbox
  have hstep : Queries.step s (.timeout c now) =
      s.giveUp c query true now "Discovery timeout" .timeout true := by
    rw [Queries.step, hphase, hinbox]
  -- The senders of the manifest are still there, and its query is not.
  have hpending : query.manifestId ∈ (Queries.step s (.timeout c now)).manager.pendingChannels := by
    rw [hstep]
    exact DiscoveryManager.mem_pendingChannels_of_mem_senders
      (h.waiting c query true hphase hinbox)
  have hactive := hafter.active query.manifestId hpending
  rw [hstep] at hactive
  change query.manifestId ∈ s.manager.activeQueries.erase query.manifestId at hactive
  exact (AList.mem_erase.mp hactive).1 rfl

theorem consistent_start (config : DiscoveryConfig) : Consistent (start config) where
  active := nofun
  bounded := Nat.zero_le _
  waiting := nofun

end Queries

/-- **The runs throughout which the tables fit together**: those in which no call gives up a query
that it has started. -/
theorem consistent_iff (config : DiscoveryConfig) (acts : List Queries.Action) :
    Run.Always Queries.step Queries.Consistent (Queries.start config) acts ↔
      Run.Guarded Queries.step Queries.StarterWaits (Queries.start config) acts := by
  have hp (s : Queries) (hs : Queries.Consistent s) : Queries.Consistent s := hs
  have hstep (s : Queries) (a : Queries.Action) (hs : Queries.Consistent s)
      (hguard : Queries.StarterWaits s a) : Queries.Consistent (Queries.step s a) := hs.step hguard
  have hbreak (s : Queries) (a : Queries.Action) (_ : True) (hs : Queries.Consistent s)
      (hguard : ¬ Queries.StarterWaits s a) : ¬ Queries.Consistent (Queries.step s a) :=
    hs.not_step hguard
  exact Run.always_iff_guarded hp hstep hbreak (fun _ _ => trivial)
    (Queries.consistent_start config)

/-- **Senders without a query**: those of a call whose time is up. -/
theorem senders_left_behind :
    ¬ ∀ (config : DiscoveryConfig) (acts : List Queries.Action),
      Queries.Consistent (Run.run Queries.step (Queries.start config) acts) := by
  intro h
  have hafter := h .default [.discover 0 (DiscoveryQuery.new 0 "web") 0, .timeout 0 30000000000]
  exact absurd (hafter.active "web" (by decide)) (by decide)

end Beemesh
