import Beemesh.Provider.Queries

/-!
# Discovery results and the limits of their queries

Every list that a call of `discover_providers` returns was once made for a query: the one that was
active when the DHT answered. Calls that join that query, or find the list in the cache, get it as it
is, whatever their own limits are; and how many providers are wanted at least is not looked at at
all. Beside the manager goes what was found for each list that is cached or in a channel.

## Main definitions

* `Satisfies`: a list of providers is what a query asks for
* `Finding`, `Finding.Suits`: what the DHT found for a query, and whether another one is served by it
* `Queries.AnswersSuit`: what was returned as a success is what was asked for
* `Sourced`, `Sourced.step`: the manager, with what its lists were made of
* `Sourced.Served`: a call that is given a list is served by what it was made of
* `Sourced.Traced`: every list is the one that was made of its finding

## Main results

* `Finding.satisfies_iff`: a query is served if its limits agree with those the list was made for
* `answersSuit_iff`: the runs throughout which the answers are what was asked for
* `cached_answer_too_small`: an answer from the cache that is not
-/

namespace Beemesh

/-- The list has as many providers as the query asks for, all different, and none of them is expired
unless it asks for these. -/
structure Satisfies (query : DiscoveryQuery) (providers : List ProviderInfo) (time : ℕ) : Prop where
  enough : query.minProviders ≤ providers.length
  bounded : providers.length ≤ query.maxProviders
  distinct : (providers.map ProviderInfo.peerId).Nodup
  live : query.includeExpired = false → ∀ p ∈ providers, p.isExpired time = false

/-! ## What was found -/

/-- Peers that the DHT has found while a query was active. -/
structure Finding where
  manifestId : String
  query : DiscoveryQuery
  peers : List String
  time : ℕ

namespace Finding

/-- The list that is made of it. -/
def providers (f : Finding) : List ProviderInfo :=
  filterProviders f.query f.time (foundInfos f.time f.manifestId f.peers)

/-- How many different peers were found, up to what the query wanted. -/
def count (f : Finding) : ℕ := min f.peers.toFinset.card f.query.maxProviders

/-- The lifetime of what was found is not over. -/
def Lives (f : Finding) (now : ℕ) : Prop :=
  f.time ≤ now ∧ (now - f.time) / nanosPerSecond ≤ foundTtlSeconds.toNat

/-- Another query is served by what was found. -/
structure Suits (f : Finding) (query : DiscoveryQuery) (now : ℕ) : Prop where
  enough : query.minProviders ≤ f.count
  bounded : f.count ≤ query.maxProviders
  live : query.includeExpired = true ∨ f.count = 0 ∨ f.Lives now

variable {f : Finding} {p : ProviderInfo}

/-- When it is found nothing is expired. -/
theorem admissible_foundInfos (query : DiscoveryQuery) (now : ℕ) (manifestId : String)
    (peers : List String) :
    admissible query now (foundInfos now manifestId peers) =
      foundInfos now manifestId peers := by
  rw [admissible]
  split_ifs
  · rw [List.filter_eq_self]
    intro p hp
    obtain ⟨peer, -, rfl⟩ := List.mem_map.mp hp
    simp [ProviderInfo.isExpired]
  · rfl

theorem map_peerId_foundInfos (now : ℕ) (manifestId : String) (peers : List String) :
    (foundInfos now manifestId peers).map ProviderInfo.peerId = peers := by
  rw [foundInfos, List.map_map]
  exact List.map_id peers

theorem mem_providers (hp : p ∈ f.providers) :
    p.announcedAt = f.time ∧ p.ttlSeconds = foundTtlSeconds := by
  have hadmitted := List.mem_of_find?_eq_some (mem_filterProviders hp)
  rw [admissible_foundInfos] at hadmitted
  obtain ⟨peer, -, rfl⟩ := List.mem_map.mp hadmitted
  exact ⟨rfl, rfl⟩

theorem isExpired_eq_false_iff (hp : p ∈ f.providers) {now : ℕ} :
    p.isExpired now = false ↔ f.Lives now := by
  obtain ⟨htime, httl⟩ := mem_providers hp
  rw [ProviderInfo.isExpired, htime, httl, Lives]
  split_ifs with hle
  · rw [decide_eq_false_iff_not, not_lt, and_iff_right hle]
  · exact iff_of_false nofun fun h => hle h.1

/-- All different peers are ranked. -/
theorem length_rankedFirsts_foundInfos (now : ℕ) (manifestId : String) (peers : List String) :
    (rankedFirsts (foundInfos now manifestId peers)).length = peers.toFinset.card := by
  have hpeers : ((rankedFirsts (foundInfos now manifestId peers)).map
      ProviderInfo.peerId).toFinset = peers.toFinset := by
    ext peer
    rw [List.mem_toFinset, List.mem_toFinset, ((perm_rankedFirsts _).map _).mem_iff,
      List.mem_map_retainNew, and_iff_right List.not_mem_nil, map_peerId_foundInfos]
  rw [← hpeers, List.toFinset_card_of_nodup (nodup_rankedFirsts _), List.length_map]

theorem length_providers (f : Finding) : f.providers.length = f.count := by
  rw [providers, filterProviders_eq_take, List.length_take, admissible_foundInfos,
    length_rankedFirsts_foundInfos, count, min_comm]

theorem nodup_providers (f : Finding) : (f.providers.map ProviderInfo.peerId).Nodup := by
  rw [providers, filterProviders_eq_take]
  exact (nodup_rankedFirsts _).sublist ((List.take_sublist _ _).map _)

/-- **A query is served** by a list that was made for another one exactly if what was found is as
much as it asks for, and still alive. -/
theorem satisfies_iff (f : Finding) (query : DiscoveryQuery) (now : ℕ) :
    Satisfies query f.providers now ↔ f.Suits query now := by
  have hlength := f.length_providers
  constructor
  · intro h
    refine ⟨hlength ▸ h.enough, hlength ▸ h.bounded, ?_⟩
    cases hexpired : query.includeExpired with
    | true => exact .inl rfl
    | false =>
      right
      -- If there is a provider at all, it tells whether what was found is alive.
      cases hproviders : f.providers with
      | nil =>
        rw [hproviders] at hlength
        exact .inl hlength.symm
      | cons p providers =>
        have hp : p ∈ f.providers := hproviders ▸ List.mem_cons_self
        exact .inr ((isExpired_eq_false_iff hp).mp (h.live hexpired p hp))
  · intro h
    refine ⟨hlength ▸ h.enough, hlength ▸ h.bounded, f.nodup_providers, ?_⟩
    intro hexpired p hp
    rw [isExpired_eq_false_iff hp]
    rcases h.live with hinclude | hnone | hlives
    · exact absurd (hinclude.symm.trans hexpired) (by decide)
    · rw [← hlength] at hnone
      exact absurd hp (List.eq_nil_of_length_eq_zero hnone ▸ List.not_mem_nil)
    · exact hlives

end Finding

namespace Queries

/-- Every call that has returned with success has returned what it was asked for. -/
def AnswersSuit (s : Queries) : Prop :=
  ∀ c query result time, (s.calls c).phase = .returned query (.ok result) time →
    result.success = true → Satisfies query result.providers time

end Queries

/-! ## The manager, with what its lists were made of -/

/-- The manager, with the finding of each cached list, and for each result in the channel of a call
the finding, or none for a failure. -/
structure Sourced where
  state : Queries
  cached : String → Option Finding
  sent : ℕ → List (Option Finding)

namespace Sourced

open Queries

def start (config : DiscoveryConfig) : Sourced := ⟨.start config, fun _ => none, fun _ => []⟩

/-- What the results that are sent are made of. -/
def source (s : Sourced) : Action → Option Finding
  | .found m peers _ now =>
    (s.state.manager.activeQueries.lookup m).map fun query => ⟨m, query, peers, now⟩
  | _ => none

/-- The list that is cached, and what it is made of. -/
def caches (s : Sourced) : Action → Option (String × Finding)
  | .found m peers queryDuration now =>
    ((s.source (.found m peers queryDuration now)).filter fun f => !f.providers.isEmpty).map
      fun f => (m, f)
  | .receive c _ =>
    match (s.state.calls c).phase, s.sent c with
    | .waiting query true, some f :: _ =>
      if f.providers.isEmpty then none else some (query.manifestId, f)
    | _, _ => none
  | _ => none

/-- What leaves a channel leaves it in front, and what is sent stands behind. -/
def step (s : Sourced) (a : Action) : Sourced where
  state := s.state.step a
  cached := match s.caches a with
    | some (m, f) => Function.update s.cached m (some f)
    | none => s.cached
  sent c :=
    let before := (s.state.calls c).inbox.length
    let after := ((s.state.step a).calls c).inbox.length
    (s.sent c).drop (before - after) ++ List.replicate (after - before) (s.source a)

/-- A call that is given a list, by the cache or in its channel, is served by what the list was made
of. -/
def Served (s : Sourced) : Action → Prop
  | .discover c query now => (s.state.calls c).phase = .idle →
      ∀ cached ∈ s.state.manager.getCachedProviders now query.manifestId,
        ∃ f ∈ s.cached query.manifestId, f.Suits query now
  | .receive c now => ∀ query starts result inbox,
      (s.state.calls c).phase = .waiting query starts →
      (s.state.calls c).inbox = result :: inbox → result.success = true →
        ∃ f : Finding, (s.sent c).head? = some (some f) ∧ f.Suits query now
  | _ => True

end Sourced

/-- The result was made of the finding, or is a failure. -/
def DiscoveryResult.Of (result : DiscoveryResult) : Option Finding → Prop
  | some f => result.success = true ∧ result.providers = f.providers
  | none => result.success = false

/-- Every list that is cached, or in a channel, is the one that was made of its finding. -/
structure Sourced.Traced (s : Sourced) : Prop where
  cached : ∀ m providers time, s.state.manager.providerCache.lookup m = some (providers, time) →
    providers ≠ [] ∧ ∃ f ∈ s.cached m, providers = f.providers
  sent : ∀ c, (s.state.calls c).inbox.Forall₂ DiscoveryResult.Of (s.sent c)

namespace Sourced

open Queries

variable {s : Sourced}

theorem Traced.start (config : DiscoveryConfig) : (start config).Traced where
  cached := nofun
  sent _ := .nil

/-! ## Where the lists come from -/

/-- What can become of the channel of a call. -/
inductive ChannelChange (s : Sourced) (a : Action) (inbox : List DiscoveryResult) :
    List DiscoveryResult → Prop
  | kept : ChannelChange s a inbox inbox
  | left {result : DiscoveryResult} {rest : List DiscoveryResult} (h : inbox = result :: rest) :
    ChannelChange s a inbox rest
  | sent (k : ℕ) {result : DiscoveryResult} (h : result.Of (s.source a)) :
    ChannelChange s a inbox (inbox ++ List.replicate k result)

/-- **What becomes of a channel**: one of the cases. -/
theorem channel_step (s : Sourced) (a : Action) (c : ℕ) :
    ChannelChange s a (s.state.calls c).inbox ((s.state.step a).calls c).inbox := by
  have hchange := s.state.step_change a
  generalize s.state.step a = s' at hchange
  -- A call is changed at most, which has nothing new in its channel.
  have hcall {c' : ℕ} {call : DiscoverCall}
      (h : ChannelChange s a (s.state.calls c').inbox call.inbox) :
      ChannelChange s a (s.state.calls c).inbox ((s.state.setCall c' call).calls c).inbox := by
    rcases eq_or_ne c c' with rfl | hne
    · rwa [calls_setCall_self]
    · rw [calls_setCall_of_ne s.state hne]
      exact .kept
  cases hchange with
  | nothing => exact .kept
  | hit => exact hcall .kept
  | join => exact hcall .kept
  | reject => exact hcall .kept
  | start => exact hcall .kept
  | receive now hphase hinbox => exact hcall (.left hinbox)
  | closed now =>
    rw [giveUp]
    split_ifs
    · exact hcall .kept
    · exact hcall .kept
  | timeout now =>
    rw [giveUp]
    split_ifs
    · exact hcall .kept
    · exact hcall .kept
  | drop => exact hcall .kept
  | @found m peers queryDuration now query hactive filtered hfiltered =>
    obtain ⟨k, hk⟩ := sendAll_inbox ⟨m, filtered, true, none, queryDuration, false⟩
      (s.state.manager.senders m) s.state.calls c
    rw [deliver, hk]
    refine .sent k ?_
    rw [source, hactive]
    exact ⟨rfl, hfiltered⟩
  | error m message now =>
    obtain ⟨k, hk⟩ := sendAll_inbox (s.state.manager.handleDiscoveryError now m message).2
      (s.state.manager.senders m) s.state.calls c
    rw [deliver, hk]
    exact .sent k rfl
  | cleanup now => exact .kept

/-- **What is in a channel** stays what it was made of. -/
theorem Traced.sent_step (h : s.Traced) (a : Action) (c : ℕ) :
    ((s.step a).state.calls c).inbox.Forall₂ DiscoveryResult.Of ((s.step a).sent c) := by
  have hsent := h.sent c
  have hchange := s.channel_step a c
  change ((s.state.step a).calls c).inbox.Forall₂ DiscoveryResult.Of
    ((s.sent c).drop ((s.state.calls c).inbox.length -
      ((s.state.step a).calls c).inbox.length) ++
        List.replicate (((s.state.step a).calls c).inbox.length -
          (s.state.calls c).inbox.length) (s.source a))
  generalize (s.state.calls c).inbox = inbox at hsent hchange
  generalize ((s.state.step a).calls c).inbox = inbox' at hchange
  cases hchange with
  | kept =>
    rw [Nat.sub_self, List.drop_zero, List.replicate_zero, List.append_nil]
    exact hsent
  | left hinbox =>
    subst hinbox
    obtain ⟨origin, origins, -, hrest, horigins⟩ := List.forall₂_cons_left_iff.mp hsent
    rw [horigins, List.length_cons, Nat.add_sub_cancel_left, Nat.sub_eq_zero_of_le (Nat.le_succ _),
      List.replicate_zero, List.append_nil]
    exact hrest
  | @sent k result hof =>
    rw [List.length_append, List.length_replicate, Nat.add_sub_cancel_left,
      Nat.sub_eq_zero_of_le (Nat.le_add_right _ _), List.drop_zero]
    refine List.rel_append hsent ?_
    induction k with
    | zero => exact .nil
    | succ k ih => exact .cons hof ih

/-- The list that is cached, if one is, is the one of its finding, and else there is nothing new. -/
def CachesSpec (s : Sourced) (a : Action) : Prop :=
  match s.caches a with
  | some (m, f) => f.providers ≠ [] ∧ ∃ time, (s.state.step a).manager.providerCache =
      s.state.manager.providerCache.insert m (f.providers, time)
  | none => ∀ m v, (s.state.step a).manager.providerCache.lookup m = some v →
      s.state.manager.providerCache.lookup m = some v

/-- What is found is cached for the query that is active, unless that leaves nothing of it. -/
theorem cachesSpec_found (s : Sourced) (m : String) (peers : List String)
    (queryDuration now : ℕ) : s.CachesSpec (.found m peers queryDuration now) := by
  unfold CachesSpec
  cases hactive : s.state.manager.activeQueries.lookup m with
  | none => simp [caches, source, hactive, Queries.step, DiscoveryManager.handleProvidersFound]
  | some query =>
    let f : Finding := ⟨m, query, peers, now⟩
    have hstep : (s.state.step (.found m peers queryDuration now)).manager =
        (if f.providers ≠ [] then s.state.manager.cacheProviders now m f.providers
          else s.state.manager).finish m := by
      simp only [Queries.step, DiscoveryManager.handleProvidersFound, hactive]
      rfl
    have hcaches : s.caches (.found m peers queryDuration now) =
        if f.providers.isEmpty then none else some (m, f) := by
      simp only [caches, source, hactive, Option.map_some, Option.filter_some]
      change ((if (!f.providers.isEmpty) = true then some f else none).map _) = _
      cases f.providers.isEmpty <;> rfl
    rw [hcaches, hstep]
    by_cases hnone : f.providers = []
    · rw [if_neg (not_not.mpr hnone), if_pos (by rw [hnone]; rfl)]
      exact fun _ _ => id
    · rw [if_pos hnone, if_neg (by simpa using hnone)]
      exact ⟨hnone, now, rfl⟩

/-- The call that has started a query caches what it is sent, unless that is empty. -/
theorem Traced.cachesSpec_receive (h : s.Traced) (c now : ℕ) :
    s.CachesSpec (.receive c now) := by
  unfold CachesSpec
  cases hphase : (s.state.calls c).phase with
  | idle => simp [caches, hphase, Queries.step]
  | returned query answer time => simp [caches, hphase, Queries.step]
  | dropped => simp [caches, hphase, Queries.step]
  | waiting query starts =>
    have hsent := h.sent c
    cases hinbox : (s.state.calls c).inbox with
    | nil =>
      rw [hinbox] at hsent
      have horigins := List.forall₂_nil_left_iff.mp hsent
      simp [caches, hphase, horigins, Queries.step, hinbox]
    | cons result inbox =>
      rw [hinbox] at hsent
      obtain ⟨origin, origins, hof, -, horigins⟩ := List.forall₂_cons_left_iff.mp hsent
      have hstep : s.state.step (.receive c now) =
          s.state.takeResult c query starts now result inbox := by
        rw [Queries.step, hphase, hinbox]
      rw [hstep, takeResult]
      cases starts with
      | false =>
        simp only [caches, hphase, horigins, Bool.false_and]
        exact fun _ _ => id
      | true =>
        cases origin with
        | none =>
          have hfailure : result.success = false := hof
          simp only [caches, hphase, horigins, hfailure, Bool.and_false, Bool.false_and]
          exact fun _ _ => id
        | some f =>
          obtain ⟨hsuccess, hproviders⟩ := hof
          simp only [caches, hphase, horigins, hsuccess, hproviders, Bool.and_self, Bool.true_and]
          cases hempty : f.providers.isEmpty with
          | true => exact fun _ _ => id
          | false => exact ⟨by simpa using hempty, now, rfl⟩

/-- A call that gives up caches nothing. -/
theorem providerCache_giveUp (s : Queries) (c : ℕ) (query : DiscoveryQuery) (starts : Bool)
    (now : ℕ) (message : String) (error : QueryError) (timedOut : Bool) :
    (s.giveUp c query starts now message error timedOut).manager.providerCache =
      s.manager.providerCache := by
  rw [giveUp]
  split_ifs <;> rfl

/-- **What is cached**: the list that was made of the finding, and else nothing new. -/
theorem Traced.cachesSpec (h : s.Traced) (a : Action) : s.CachesSpec a := by
  have hchange := s.state.step_change a
  cases a with
  | found m peers queryDuration now => exact s.cachesSpec_found m peers queryDuration now
  | receive c now => exact h.cachesSpec_receive c now
  | discover c query now =>
    unfold CachesSpec
    generalize s.state.step (.discover c query now) = s' at hchange
    cases hchange with
    | _ => exact fun _ _ => id
  | closed c now =>
    unfold CachesSpec
    generalize s.state.step (.closed c now) = s' at hchange
    cases hchange with
    | nothing => exact fun _ _ => id
    | closed =>
      rw [providerCache_giveUp]
      exact fun _ _ => id
  | timeout c now =>
    unfold CachesSpec
    generalize s.state.step (.timeout c now) = s' at hchange
    cases hchange with
    | nothing => exact fun _ _ => id
    | timeout =>
      rw [providerCache_giveUp]
      exact fun _ _ => id
  | drop c =>
    unfold CachesSpec
    generalize s.state.step (.drop c) = s' at hchange
    cases hchange with
    | _ => exact fun _ _ => id
  | error m message now => exact fun _ _ => id
  | cleanup now =>
    intro m v hlookup
    change (s.state.manager.providerCache.retain _).lookup m = _ at hlookup
    rw [AList.lookup_retain, Option.filter_eq_some_iff] at hlookup
    exact hlookup.1

/-- **Every list stays the one of its finding**, whatever happens. -/
theorem Traced.step (h : s.Traced) (a : Action) : (s.step a).Traced := by
  refine ⟨?_, h.sent_step a⟩
  intro m providers time hlookup
  have hcaches := h.cachesSpec a
  unfold CachesSpec at hcaches
  change (s.state.step a).manager.providerCache.lookup m = some (providers, time) at hlookup
  rw [Sourced.step]
  cases hcache : s.caches a with
  | none =>
    rw [hcache] at hcaches
    exact h.cached m providers time (hcaches m _ hlookup)
  | some cached =>
    obtain ⟨m', f⟩ := cached
    rw [hcache] at hcaches
    obtain ⟨hne, time', hinsert⟩ := hcaches
    rw [hinsert] at hlookup
    dsimp only
    rcases eq_or_ne m m' with rfl | hother
    · rw [AList.lookup_insert, Option.some.injEq, Prod.mk.injEq] at hlookup
      obtain ⟨rfl, -⟩ := hlookup
      exact ⟨hne, f, by rw [Function.update_self]; rfl, rfl⟩
    · rw [AList.lookup_insert_ne hother] at hlookup
      rw [Function.update_of_ne hother]
      exact h.cached m providers time hlookup

/-- A cached list is the one of its finding. -/
theorem Traced.of_cached (h : s.Traced) {now : ℕ} {m : String} {cached : DiscoveryResult}
    (hcached : s.state.manager.getCachedProviders now m = some cached) :
    cached.providers ≠ [] ∧ cached.success = true ∧
      ∃ f ∈ s.cached m, cached.providers = f.providers := by
  unfold DiscoveryManager.getCachedProviders at hcached
  split at hcached
  · next providers cachedAt hlookup =>
    split_ifs at hcached
    obtain rfl := Option.some.inj hcached
    obtain ⟨hne, hfinding⟩ := h.cached m providers cachedAt hlookup
    exact ⟨hne, rfl, hfinding⟩
  · exact nomatch hcached

/-- A result with success, taken from a channel, is of its finding. -/
theorem Traced.of_sent (h : s.Traced) {c : ℕ} {result : DiscoveryResult}
    {inbox : List DiscoveryResult} (hinbox : (s.state.calls c).inbox = result :: inbox)
    (hsuccess : result.success = true) :
    ∃ f : Finding, (s.sent c).head? = some (some f) ∧ result.providers = f.providers := by
  have hsent := h.sent c
  rw [hinbox] at hsent
  obtain ⟨origin, origins, hof, -, horigins⟩ := List.forall₂_cons_left_iff.mp hsent
  cases origin with
  | none => exact absurd (hsuccess.symm.trans hof) (by decide)
  | some f => exact ⟨f, by rw [horigins, List.head?_cons], hof.2⟩

end Sourced

namespace Queries

variable {s : Queries}

/-! ## What the answers are -/

theorem AnswersSuit.setCall (h : AnswersSuit s) {c : ℕ} {call : DiscoverCall}
    {dm : DiscoveryManager}
    (hcall : ∀ query result time, call.phase = .returned query (.ok result) time →
      result.success = true → Satisfies query result.providers time) :
    AnswersSuit { s.setCall c call with manager := dm } := by
  intro c' query result time hphase
  change ((s.setCall c call).calls c').phase = _ at hphase
  rcases eq_or_ne c' c with rfl | hne
  · rw [calls_setCall_self] at hphase
    exact hcall query result time hphase
  · rw [calls_setCall_of_ne s hne] at hphase
    exact h c' query result time hphase

/-- A call that gives up has no success. -/
theorem AnswersSuit.giveUp (h : AnswersSuit s) (c : ℕ) (query : DiscoveryQuery) (starts : Bool)
    (now : ℕ) (message : String) (error : QueryError) (timedOut : Bool) :
    AnswersSuit (s.giveUp c query starts now message error timedOut) := by
  rw [Queries.giveUp]
  split_ifs
  · refine h.setCall ?_
    rintro query' result time ⟨⟩
    exact nofun
  · exact h.setCall nofun

theorem AnswersSuit.deliver (h : AnswersSuit s) (dm : DiscoveryManager) (senders : List ℕ)
    (result : DiscoveryResult) : AnswersSuit (s.deliver dm senders result) := by
  intro c query answer time hphase
  change (sendAll result senders s.calls c).phase = _ at hphase
  rw [(sendAll_spec result senders s.calls c).1] at hphase
  exact h c query answer time hphase

end Queries

namespace Sourced

open Queries

variable {s : Sourced}

/-- **A call that is served** returns what it was asked for. -/
theorem Traced.answersSuit_step (h : s.Traced) (hanswers : s.state.AnswersSuit) {a : Action}
    (hguard : s.Served a) : (s.state.step a).AnswersSuit := by
  have hchange := s.state.step_change a
  generalize s.state.step a = s' at hchange
  cases hchange with
  | nothing => exact hanswers
  | @hit c query now cached hphase hcached =>
    refine hanswers.setCall ?_
    rintro query' result time ⟨⟩ -
    -- It is the finding of the list that serves the call.
    obtain ⟨-, -, f, hf, hproviders⟩ := h.of_cached hcached
    obtain ⟨f', hf', hsuits⟩ := hguard hphase cached hcached
    obtain rfl := Option.some.inj (hf.symm.trans hf')
    rw [hproviders]
    exact (f.satisfies_iff query now).mpr hsuits
  | join => exact hanswers.setCall nofun
  | reject => exact hanswers.setCall nofun
  | start => exact hanswers.setCall nofun
  | @receive c query starts now result inbox hphase hinbox =>
    refine hanswers.setCall ?_
    rintro query' result' time ⟨⟩ hsuccess
    obtain ⟨f, hf, hproviders⟩ := h.of_sent hinbox hsuccess
    obtain ⟨f', hf', hsuits⟩ := hguard query starts result inbox hphase hinbox hsuccess
    obtain rfl := Option.some.inj (Option.some.inj (hf.symm.trans hf'))
    rw [hproviders]
    exact (f.satisfies_iff query now).mpr hsuits
  | closed now => exact hanswers.giveUp _ _ _ _ _ _ _
  | timeout now => exact hanswers.giveUp _ _ _ _ _ _ _
  | drop => exact hanswers.setCall nofun
  | found => exact hanswers.deliver _ _ _
  | error => exact hanswers.deliver _ _ _
  | cleanup => exact hanswers

/-- **A call that is not served** returns something else. -/
theorem Traced.not_answersSuit (h : s.Traced) {a : Action} (hguard : ¬ s.Served a) :
    ¬ (s.state.step a).AnswersSuit := by
  intro hanswers
  refine hguard ?_
  cases a with
  | discover c query now =>
    intro hphase cached hcached
    obtain ⟨hne, hsuccess, f, hf, hproviders⟩ := h.of_cached hcached
    -- A cached list is not empty, and is returned at once.
    have hstep : s.state.step (.discover c query now) =
        s.state.setPhase c (.returned query (.ok cached) now) := by
      have hfilter : (s.state.manager.getCachedProviders now query.manifestId).filter
          (fun cached => !cached.providers.isEmpty) = some cached :=
        Option.filter_eq_some_iff.mpr ⟨hcached, by simpa using hne⟩
      simp only [Queries.step, hphase, DiscoveryManager.discoverProviders, hfilter]
      rfl
    rw [hstep] at hanswers
    have hsatisfies := hanswers c query cached now
      (by rw [setPhase, calls_setCall_self]) hsuccess
    exact ⟨f, hf, (f.satisfies_iff query now).mp (hproviders ▸ hsatisfies)⟩
  | receive c now =>
    intro query starts result inbox hphase hinbox hsuccess
    obtain ⟨f, hf, hproviders⟩ := h.of_sent hinbox hsuccess
    have hstep : s.state.step (.receive c now) =
        s.state.takeResult c query starts now result inbox := by
      rw [Queries.step, hphase, hinbox]
    rw [hstep] at hanswers
    have hsatisfies := hanswers c query result now
      (congrArg DiscoverCall.phase (calls_setCall_self s.state c _)) hsuccess
    exact ⟨f, hf, (f.satisfies_iff query now).mp (hproviders ▸ hsatisfies)⟩
  | closed | timeout | drop | found | error | cleanup => trivial

end Sourced

/-- **The runs throughout which the answers are what was asked for**: those in which every call that
is given a list is served by what the list was made of. -/
theorem answersSuit_iff (config : DiscoveryConfig) (acts : List Queries.Action) :
    Run.Always Queries.step Queries.AnswersSuit (Queries.start config) acts ↔
      Run.Guarded Sourced.step Sourced.Served (Sourced.start config) acts := by
  have hp (s : Sourced) (hs : s.Traced ∧ s.state.AnswersSuit) : s.state.AnswersSuit := hs.2
  have hstep (s : Sourced) (a : Queries.Action) (hs : s.Traced ∧ s.state.AnswersSuit)
      (hguard : s.Served a) : (s.step a).Traced ∧ (s.step a).state.AnswersSuit :=
    ⟨hs.1.step a, hs.1.answersSuit_step hs.2 hguard⟩
  have hbreak (s : Sourced) (a : Queries.Action) (_ : True)
      (hs : s.Traced ∧ s.state.AnswersSuit) (hguard : ¬ s.Served a) :
      ¬ (s.step a).state.AnswersSuit := hs.1.not_answersSuit hguard
  have hstart : (Sourced.start config).Traced ∧ (Sourced.start config).state.AnswersSuit :=
    ⟨.start config, nofun⟩
  have himage (s : Sourced) (a : Queries.Action) : (s.step a).state = s.state.step a := rfl
  exact (Run.always_image himage (Sourced.start config) acts).symm.trans
    (Run.always_iff_guarded hp hstep hbreak (fun _ _ => trivial) hstart)

/-- A query that asks for two providers. -/
def queryForTwo : DiscoveryQuery := { DiscoveryQuery.new 0 "web" with minProviders := 2 }

/-- **An answer from the cache that is too small**: one provider is found for a caller that does not
wait any longer, and is what the next one is given, which has asked for two. -/
theorem cached_answer_too_small :
    ¬ ∀ (config : DiscoveryConfig) (acts : List Queries.Action),
      (Run.run Queries.step (Queries.start config) acts).AnswersSuit := by
  intro h
  have hkept : filterProviders (DiscoveryQuery.new 0 "web") 0 (foundInfos 0 "web" ["a"]) =
      foundInfos 0 "web" ["a"] := by
    have hfirsts : List.retainNew ProviderInfo.peerId [] (foundInfos 0 "web" ["a"]) =
        foundInfos 0 "web" ["a"] := rfl
    rw [filterProviders, Finding.admissible_foundInfos, hfirsts, sortLastSeen, foundInfos,
      List.map_singleton, List.mergeSort_singleton]
    rfl
  have hanswers := h .default [.discover 0 (DiscoveryQuery.new 0 "web") 0, .drop 0,
    .found "web" ["a"] 0 0, .discover 1 queryForTwo 0]
  have hfound (s : Queries) (hactive : s.manager.activeQueries.lookup "web" =
      some (DiscoveryQuery.new 0 "web")) : s.step (.found "web" ["a"] 0 0) =
      s.deliver ((s.manager.cacheProviders 0 "web" (foundInfos 0 "web" ["a"])).finish "web")
        (s.manager.senders "web") ⟨"web", foundInfos 0 "web" ["a"], true, none, 0, false⟩ := by
    simp only [Queries.step, DiscoveryManager.handleProvidersFound, hactive, hkept]
    rfl
  rw [Run.run_cons, Run.run_cons, Run.run_cons, hfound _ rfl] at hanswers
  have hsatisfies := hanswers 1 queryForTwo ⟨"web", foundInfos 0 "web" ["a"], true, none, 0, false⟩
    0 rfl rfl
  exact absurd hsatisfies.enough (by decide)

end Beemesh
