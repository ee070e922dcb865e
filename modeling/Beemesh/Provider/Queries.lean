import Beemesh.Lib.Run
import Beemesh.Provider.Filter

/-!
# Discovery queries

`DiscoveryManager` keeps at most one query for each manifest. The first call for a manifest starts
the query, and later ones join it; all of them leave a sender and wait. When the DHT answers, or
fails, the senders are sent the result, and the query ends. The providers of a result are cached,
and calls that find them there return at once.

A call has the manager for itself while it waits, so that others come in between only when it is
dropped. Here they may come in while it waits: these are the runs that the two tables of queries
and senders are made for, and those in which the calls that wait are dropped first are among them.

## Main definitions

* `DiscoveryConfig`, `DiscoveryResult`, `DiscoveryManager` and its functions
* `DiscoverCall`: a call of `discover_providers`, as far as it is
* `Queries`, `Queries.Action`, `Queries.step`: the manager with its calls, and what happens to it

## Main results

* `Queries.step_change`: what can happen, by case
* `sendAll_spec`: what sending a result does to a call
-/

namespace Beemesh

/-! ## The manager -/

/-- `DiscoveryConfig`. How often the cache is cleaned up says when something happens, not what. -/
structure DiscoveryConfig where
  cacheTtlSeconds : U64
  maxConcurrentQueries : ℕ
  defaultTimeoutSeconds : U64

def DiscoveryConfig.default : DiscoveryConfig := ⟨300, 20, 30⟩

/-- `DiscoveryResult`. -/
structure DiscoveryResult where
  manifestId : String
  providers : List ProviderInfo
  success : Bool
  error : Option String
  duration : ℕ
  timedOut : Bool

/-- `ProviderError`, as far as `DiscoveryManager` returns it. -/
inductive QueryError
  | networkError (message : String)
  | timeout
  deriving DecidableEq

/-- `DiscoveryManager`. A call stands for its sender. -/
structure DiscoveryManager where
  activeQueries : Table String DiscoveryQuery := ∅
  pendingChannels : Table String (List ℕ) := ∅
  providerCache : Table String (List ProviderInfo × ℕ) := ∅
  config : DiscoveryConfig

/-- The lifetime that `handle_providers_found` gives to the providers it is told of. -/
def foundTtlSeconds : U64 := 3600

/-- The providers that `handle_providers_found` makes of the peers. Its readings of the clock follow
each other, and are one. -/
def foundInfos (now : ℕ) (manifestId : String) (peers : List String) : List ProviderInfo :=
  peers.map fun peer => ⟨peer, manifestId, now, now, foundTtlSeconds, ∅⟩

namespace DiscoveryManager

/-- `get_cached_providers`. Where the clock was set back the age is zero. -/
def getCachedProviders (dm : DiscoveryManager) (now : ℕ) (manifestId : String) :
    Option DiscoveryResult :=
  match dm.providerCache.lookup manifestId with
  | some (providers, cachedAt) =>
    if now - cachedAt < dm.config.cacheTtlSeconds.toNat * nanosPerSecond then
      some ⟨manifestId, providers, true, none, 0, false⟩
    else none
  | none => none

/-- `cache_providers`. -/
def cacheProviders (dm : DiscoveryManager) (now : ℕ) (manifestId : String)
    (providers : List ProviderInfo) : DiscoveryManager :=
  { dm with providerCache := dm.providerCache.insert manifestId (providers, now) }

/-- `cleanup_query`. -/
def cleanupQuery (dm : DiscoveryManager) (manifestId : String) : DiscoveryManager :=
  { dm with activeQueries := dm.activeQueries.erase manifestId }

/-- `cleanup_expired_cache`. -/
def cleanupExpiredCache (dm : DiscoveryManager) (now : ℕ) : DiscoveryManager :=
  { dm with providerCache := dm.providerCache.retain fun _ cached =>
      now - cached.2 < dm.config.cacheTtlSeconds.toNat * nanosPerSecond }

/-- The senders of a manifest. -/
def senders (dm : DiscoveryManager) (manifestId : String) : List ℕ :=
  (dm.pendingChannels.lookup manifestId).getD []

/-- A call leaves its sender with those of the manifest. -/
def leaveSender (dm : DiscoveryManager) (manifestId : String) (c : ℕ) : DiscoveryManager :=
  { dm with pendingChannels :=
      dm.pendingChannels.insert manifestId (dm.senders manifestId ++ [c]) }

/-- The senders of a manifest are taken, and its query ends. -/
def finish (dm : DiscoveryManager) (manifestId : String) : DiscoveryManager :=
  { dm with pendingChannels := dm.pendingChannels.erase manifestId }.cleanupQuery manifestId

/-- `handle_providers_found`: the manager, and the result for the senders of the manifest. -/
def handleProvidersFound (dm : DiscoveryManager) (now : ℕ) (manifestId : String)
    (peers : List String) (queryDuration : ℕ) : DiscoveryManager × Option DiscoveryResult :=
  match dm.activeQueries.lookup manifestId with
  | none => (dm, none)
  | some query =>
    let filtered := filterProviders query now (foundInfos now manifestId peers)
    let dm := if filtered ≠ [] then dm.cacheProviders now manifestId filtered else dm
    (dm.finish manifestId, some ⟨manifestId, filtered, true, none, queryDuration, false⟩)

/-- `handle_discovery_error`, in the same way. -/
def handleDiscoveryError (dm : DiscoveryManager) (now : ℕ) (manifestId error : String) :
    DiscoveryManager × DiscoveryResult :=
  let queryDuration := ((dm.activeQueries.lookup manifestId).map fun query =>
    now - query.startedAt).getD 0
  (dm.finish manifestId, ⟨manifestId, [], false, some error, queryDuration, false⟩)

/-- How long a call waits. -/
def timeout (dm : DiscoveryManager) : ℕ := dm.config.defaultTimeoutSeconds.toNat * nanosPerSecond

end DiscoveryManager

/-! ## Calls -/

/-- How far a call of `discover_providers` is. -/
inductive DiscoverPhase
  | idle
  /-- It waits for a result, of the query that it has started or of one that was active. -/
  | waiting (query : DiscoveryQuery) (starts : Bool)
  | returned (query : DiscoveryQuery) (answer : Except QueryError DiscoveryResult) (time : ℕ)
  | dropped

/-- A call of `discover_providers`, with its channel. -/
structure DiscoverCall where
  inbox : List DiscoveryResult := []
  phase : DiscoverPhase := .idle

/-- A result is sent to a call. One that does not wait has no receiver. -/
def DiscoverCall.send (call : DiscoverCall) (result : DiscoveryResult) : DiscoverCall :=
  match call.phase with
  | .waiting .. => { call with inbox := call.inbox ++ [result] }
  | _ => call

/-- The calls, after a result was sent to some of them. -/
def sendAll (result : DiscoveryResult) (senders : List ℕ) (calls : ℕ → DiscoverCall) :
    ℕ → DiscoverCall :=
  senders.foldl (fun calls c => Function.update calls c ((calls c).send result)) calls

/-- `discover_providers`, until it returns or waits. -/
def DiscoveryManager.discoverProviders (dm : DiscoveryManager) (now : ℕ) (c : ℕ)
    (query : DiscoveryQuery) : DiscoveryManager × DiscoverPhase :=
  match (dm.getCachedProviders now query.manifestId).filter fun cached =>
      !cached.providers.isEmpty with
  | some cached => (dm, .returned query (.ok cached) now)
  | none =>
    if query.manifestId ∈ dm.activeQueries then
      (dm.leaveSender query.manifestId c, .waiting query false)
    else if dm.config.maxConcurrentQueries ≤ dm.activeQueries.keys.length then
      (dm, .returned query (.error (.networkError "Too many concurrent queries")) now)
    else
      -- The query in the DHT is started here.
      ({ dm with activeQueries := dm.activeQueries.insert query.manifestId query }.leaveSender
        query.manifestId c, .waiting query true)

/-- The manager, and its calls by number. -/
structure Queries where
  manager : DiscoveryManager
  calls : ℕ → DiscoverCall := fun _ => {}

def Queries.start (config : DiscoveryConfig) : Queries := { manager := { config := config } }

namespace Queries

def setCall (s : Queries) (c : ℕ) (call : DiscoverCall) : Queries :=
  { s with calls := Function.update s.calls c call }

def setPhase (s : Queries) (c : ℕ) (phase : DiscoverPhase) : Queries :=
  s.setCall c { s.calls c with phase := phase }

/-- The manager is changed, and a result sent to calls. -/
def deliver (s : Queries) (dm : DiscoveryManager) (senders : List ℕ) (result : DiscoveryResult) :
    Queries where
  manager := dm
  calls := sendAll result senders s.calls

/-- The sender of a call is nowhere any more. -/
def SenderGone (s : Queries) (c : ℕ) : Prop := ∀ e ∈ s.manager.pendingChannels.entries, c ∉ e.2

instance (s : Queries) (c : ℕ) : Decidable (s.SenderGone c) :=
  inferInstanceAs (Decidable (∀ e ∈ s.manager.pendingChannels.entries, c ∉ e.2))

/-! ## What happens -/

inductive Action
  | discover (c : ℕ) (query : DiscoveryQuery) (now : ℕ)
  | receive (c : ℕ) (now : ℕ)
  /-- The channel is closed: it is empty, and without a sender. -/
  | closed (c : ℕ) (now : ℕ)
  /-- The time is up, and the channel is empty. -/
  | timeout (c : ℕ) (now : ℕ)
  /-- The caller does not wait any longer. -/
  | drop (c : ℕ)
  | found (manifestId : String) (peers : List String) (queryDuration now : ℕ)
  | error (manifestId message : String) (now : ℕ)
  | cleanup (now : ℕ)

/-- The end of a call whose time is up, or whose channel is closed. The one that has started the
query ends it, but leaves the senders where they are. -/
def giveUp (s : Queries) (c : ℕ) (query : DiscoveryQuery) (starts : Bool) (now : ℕ)
    (message : String) (error : QueryError) (timedOut : Bool) : Queries :=
  if starts then
    { s.setPhase c (.returned query
        (.ok ⟨query.manifestId, [], false, some message, s.manager.timeout, timedOut⟩) now) with
      manager := s.manager.cleanupQuery query.manifestId }
  else s.setPhase c (.returned query (.error error) now)

/-- A call takes a result from its channel. The one that has started the query caches it. -/
def takeResult (s : Queries) (c : ℕ) (query : DiscoveryQuery) (starts : Bool) (now : ℕ)
    (result : DiscoveryResult) (inbox : List DiscoveryResult) : Queries :=
  { s.setCall c ⟨inbox, .returned query (.ok result) now⟩ with
    manager := if starts && result.success && !result.providers.isEmpty then
        s.manager.cacheProviders now query.manifestId result.providers
      else s.manager }

/-- What cannot happen to a call does nothing. -/
def step (s : Queries) : Action → Queries
  | .discover c query now =>
    match (s.calls c).phase with
    | .idle =>
      let (dm, phase) := s.manager.discoverProviders now c query
      { s.setPhase c phase with manager := dm }
    | _ => s
  | .receive c now =>
    match (s.calls c).phase, (s.calls c).inbox with
    | .waiting query starts, result :: inbox => s.takeResult c query starts now result inbox
    | _, _ => s
  | .closed c now =>
    match (s.calls c).phase, (s.calls c).inbox with
    | .waiting query starts, [] =>
      if s.SenderGone c then
        s.giveUp c query starts now "Discovery channel closed"
          (.networkError "Query channel closed") false
      else s
    | _, _ => s
  | .timeout c now =>
    match (s.calls c).phase, (s.calls c).inbox with
    | .waiting query starts, [] =>
      s.giveUp c query starts now "Discovery timeout" .timeout true
    | _, _ => s
  | .drop c =>
    match (s.calls c).phase with
    | .waiting .. => s.setPhase c .dropped
    | _ => s
  | .found manifestId peers queryDuration now =>
    match s.manager.handleProvidersFound now manifestId peers queryDuration with
    | (dm, some result) => s.deliver dm (s.manager.senders manifestId) result
    | (_, none) => s
  | .error manifestId message now =>
    let (dm, result) := s.manager.handleDiscoveryError now manifestId message
    s.deliver dm (s.manager.senders manifestId) result
  | .cleanup now => { s with manager := s.manager.cleanupExpiredCache now }

/-- What can happen, by case. -/
inductive Change (s : Queries) : Action → Queries → Prop
  | nothing (a : Action) : Change s a s
  | hit {c : ℕ} {query : DiscoveryQuery} {now : ℕ} {cached : DiscoveryResult}
    (hphase : (s.calls c).phase = .idle)
    (hcached : s.manager.getCachedProviders now query.manifestId = some cached) :
    Change s (.discover c query now) (s.setPhase c (.returned query (.ok cached) now))
  | join {c : ℕ} {query : DiscoveryQuery} {now : ℕ} (hphase : (s.calls c).phase = .idle)
    (hactive : query.manifestId ∈ s.manager.activeQueries) :
    Change s (.discover c query now) { s.setPhase c (.waiting query false) with
      manager := s.manager.leaveSender query.manifestId c }
  | reject {c : ℕ} {query : DiscoveryQuery} {now : ℕ} (hphase : (s.calls c).phase = .idle) :
    Change s (.discover c query now) (s.setPhase c (.returned query
      (.error (.networkError "Too many concurrent queries")) now))
  | start {c : ℕ} {query : DiscoveryQuery} {now : ℕ} (hphase : (s.calls c).phase = .idle)
    (hactive : query.manifestId ∉ s.manager.activeQueries)
    (hroom : s.manager.activeQueries.keys.length < s.manager.config.maxConcurrentQueries) :
    Change s (.discover c query now) { s.setPhase c (.waiting query true) with
      manager := { s.manager with
        activeQueries := s.manager.activeQueries.insert query.manifestId query }.leaveSender
          query.manifestId c }
  | receive {c : ℕ} {query : DiscoveryQuery} {starts : Bool} (now : ℕ) {result : DiscoveryResult}
    {inbox : List DiscoveryResult} (hphase : (s.calls c).phase = .waiting query starts)
    (hinbox : (s.calls c).inbox = result :: inbox) :
    Change s (.receive c now) (s.takeResult c query starts now result inbox)
  | closed {c : ℕ} {query : DiscoveryQuery} {starts : Bool} (now : ℕ)
    (hphase : (s.calls c).phase = .waiting query starts) (hinbox : (s.calls c).inbox = [])
    (hgone : s.SenderGone c) :
    Change s (.closed c now) (s.giveUp c query starts now "Discovery channel closed"
      (.networkError "Query channel closed") false)
  | timeout {c : ℕ} {query : DiscoveryQuery} {starts : Bool} (now : ℕ)
    (hphase : (s.calls c).phase = .waiting query starts) (hinbox : (s.calls c).inbox = []) :
    Change s (.timeout c now) (s.giveUp c query starts now "Discovery timeout" .timeout true)
  | drop {c : ℕ} {query : DiscoveryQuery} {starts : Bool}
    (hphase : (s.calls c).phase = .waiting query starts) :
    Change s (.drop c) (s.setPhase c .dropped)
  | found {manifestId : String} (peers : List String) (queryDuration now : ℕ)
    {query : DiscoveryQuery} (hactive : s.manager.activeQueries.lookup manifestId = some query)
    {filtered : List ProviderInfo}
    (hfiltered : filtered = filterProviders query now (foundInfos now manifestId peers)) :
    Change s (.found manifestId peers queryDuration now)
      (s.deliver ((if filtered ≠ [] then s.manager.cacheProviders now manifestId filtered
          else s.manager).finish manifestId) (s.manager.senders manifestId)
        ⟨manifestId, filtered, true, none, queryDuration, false⟩)
  | error (manifestId message : String) (now : ℕ) :
    Change s (.error manifestId message now)
      (s.deliver (s.manager.handleDiscoveryError now manifestId message).1
        (s.manager.senders manifestId) (s.manager.handleDiscoveryError now manifestId message).2)
  | cleanup (now : ℕ) : Change s (.cleanup now)
      { s with manager := s.manager.cleanupExpiredCache now }

/-- **What can happen**: one of the cases, or nothing. -/
theorem step_change (s : Queries) (a : Action) : Change s a (step s a) := by
  cases a with
  | discover c query now =>
    rw [step]
    split
    · next hphase =>
      simp only [DiscoveryManager.discoverProviders]
      split
      · next cached hcached =>
        exact .hit hphase (Option.filter_eq_some_iff.mp hcached).1
      · split_ifs with hactive hfull
        · exact .join hphase hactive
        · exact .reject hphase
        · exact .start hphase hactive (not_le.mp hfull)
    · exact .nothing _
  | receive c now =>
    rw [step]
    split
    · next query starts result inbox hphase hinbox => exact .receive now hphase hinbox
    · exact .nothing _
  | closed c now =>
    rw [step]
    split
    · next query starts hphase hinbox =>
      split_ifs with hgone
      · exact .closed now hphase hinbox hgone
      · exact .nothing _
    · exact .nothing _
  | timeout c now =>
    rw [step]
    split
    · next query starts hphase hinbox => exact .timeout now hphase hinbox
    · exact .nothing _
  | drop c =>
    rw [step]
    split
    · next query starts hphase => exact .drop hphase
    · exact .nothing _
  | found manifestId peers queryDuration now =>
    rw [step, DiscoveryManager.handleProvidersFound]
    cases hactive : s.manager.activeQueries.lookup manifestId with
    | none =>
      -- What is found for no query is not delivered.
      exact .nothing _
    | some query => exact .found peers queryDuration now hactive rfl
  | error manifestId message now => exact .error manifestId message now
  | cleanup now => exact .cleanup now

/-! ## Senders and results -/

theorem calls_setCall_self (s : Queries) (c : ℕ) (call : DiscoverCall) :
    (s.setCall c call).calls c = call :=
  Function.update_self ..

theorem calls_setCall_of_ne (s : Queries) {c c' : ℕ} (hne : c ≠ c') (call : DiscoverCall) :
    (s.setCall c' call).calls c = s.calls c :=
  Function.update_of_ne hne ..

end Queries

namespace DiscoveryManager

theorem mem_senders_iff {dm : DiscoveryManager} {m : String} {c : ℕ} :
    c ∈ dm.senders m ↔ ∃ senders, dm.pendingChannels.lookup m = some senders ∧ c ∈ senders := by
  rw [senders]
  cases dm.pendingChannels.lookup m with
  | none => simp
  | some senders => simp

theorem mem_pendingChannels_of_mem_senders {dm : DiscoveryManager} {m : String} {c : ℕ}
    (hc : c ∈ dm.senders m) : m ∈ dm.pendingChannels := by
  obtain ⟨senders, hlookup, -⟩ := mem_senders_iff.mp hc
  exact AList.lookup_isSome.mp (Option.isSome_iff_exists.mpr ⟨senders, hlookup⟩)

theorem senders_leaveSender (dm : DiscoveryManager) (m m' : String) (c : ℕ) :
    (dm.leaveSender m c).senders m' = if m' = m then dm.senders m ++ [c] else dm.senders m' := by
  rw [senders, leaveSender]
  split_ifs with hm
  · rw [hm, AList.lookup_insert, Option.getD_some]
  · rw [AList.lookup_insert_ne hm, ← senders]

theorem senders_finish (dm : DiscoveryManager) (m m' : String) :
    (dm.finish m).senders m' = if m' = m then [] else dm.senders m' := by
  rw [senders, finish, cleanupQuery]
  split_ifs with hm
  · rw [hm, AList.lookup_erase, Option.getD_none]
  · rw [AList.lookup_erase_ne hm, ← senders]

end DiscoveryManager

theorem DiscoverCall.send_spec (call : DiscoverCall) (result : DiscoveryResult) :
    (call.send result).phase = call.phase ∧
      ((call.send result).inbox = call.inbox ++ [result] ∨
        (call.send result).inbox = call.inbox ∧ ∀ query starts, call.phase ≠ .waiting query starts)
    := by
  unfold DiscoverCall.send
  split
  · exact ⟨rfl, .inl rfl⟩
  · next hphase => exact ⟨rfl, .inr ⟨rfl, hphase⟩⟩

/-- **Sending a result** leaves a call as far as it is. A call in whose channel there is nothing
afterwards has been sent nothing, or does not wait. -/
theorem sendAll_spec (result : DiscoveryResult) (senders : List ℕ) (calls : ℕ → DiscoverCall)
    (c : ℕ) :
    (sendAll result senders calls c).phase = (calls c).phase ∧
      (∀ r ∈ (sendAll result senders calls c).inbox, r ∈ (calls c).inbox ∨ r = result) ∧
      ((sendAll result senders calls c).inbox = [] → (calls c).inbox = [] ∧
        (c ∈ senders → ∀ query starts, (calls c).phase ≠ .waiting query starts)) := by
  induction senders generalizing calls with
  | nil => exact ⟨rfl, fun _ => .inl, fun h => ⟨h, nofun⟩⟩
  | cons c' senders ih =>
    obtain ⟨hphase, hinbox, hnil⟩ := ih (Function.update calls c' ((calls c').send result))
    rw [sendAll, List.foldl_cons, ← sendAll]
    rcases eq_or_ne c c' with rfl | hne
    · -- The result is sent to the call itself, once now and perhaps again.
      rw [Function.update_self] at hphase hinbox hnil
      obtain ⟨hsend, hsent⟩ := (calls c).send_spec result
      rw [hsend] at hphase hnil
      refine ⟨hphase, ?_, ?_⟩
      · intro r hr
        rcases hinbox r hr with hr | rfl
        · rcases hsent with heq | ⟨heq, -⟩
          · rw [heq, List.mem_append, List.mem_singleton] at hr
            exact hr
          · exact .inl (heq ▸ hr)
        · exact .inr rfl
      · intro hempty
        obtain ⟨hempty, -⟩ := hnil hempty
        rcases hsent with heq | ⟨heq, hother⟩
        · rw [heq] at hempty
          exact absurd hempty (List.append_ne_nil_of_right_ne_nil _ (List.cons_ne_nil _ _))
        · exact ⟨heq ▸ hempty, fun _ => hother⟩
    · rw [Function.update_of_ne hne] at hphase hinbox hnil
      refine ⟨hphase, hinbox, fun hempty => ?_⟩
      obtain ⟨hempty, hother⟩ := hnil hempty
      exact ⟨hempty, fun hmem => hother ((List.mem_cons.mp hmem).resolve_left hne)⟩

/-- What is sent to a call comes behind what is in its channel, and may come more than once. -/
theorem sendAll_inbox (result : DiscoveryResult) (senders : List ℕ) (calls : ℕ → DiscoverCall)
    (c : ℕ) :
    ∃ k, (sendAll result senders calls c).inbox =
      (calls c).inbox ++ List.replicate k result := by
  induction senders generalizing calls with
  | nil => exact ⟨0, by rw [List.replicate_zero, List.append_nil]; rfl⟩
  | cons c' senders ih =>
    obtain ⟨k, hk⟩ := ih (Function.update calls c' ((calls c').send result))
    rw [sendAll, List.foldl_cons, ← sendAll, hk]
    rcases eq_or_ne c c' with rfl | hne
    · rw [Function.update_self]
      rcases ((calls c).send_spec result).2 with hsent | ⟨hsent, -⟩
      · exact ⟨k + 1, by rw [hsent, List.append_assoc, List.replicate_succ, List.singleton_append]⟩
      · exact ⟨k, by rw [hsent]⟩
    · rw [Function.update_of_ne hne]
      exact ⟨k, rfl⟩

end Beemesh
