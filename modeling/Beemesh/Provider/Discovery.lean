import Beemesh.Lib.Run
import Beemesh.Provider.Remote

/-!
# Discovery, call by call

The calls of `ProviderManager` that deal with remote providers, in any order of their parts. A part
is what a call does under one lock. `handle_provider_found` records the provider under the lock of
the remote providers; then, under the lock of the pending queries, it takes the senders of the
manifest, and sends them its list. `discover_providers` answers from the cache, or leaves a sender
and waits; the list that it is sent it stores as the list of the manifest, and returns.

## Main definitions

* `FoundCall`, `ProviderQuery`: calls of the two functions, as far as they are
* `Discovery`, `DiscoveryAction`, `discoveryStep`: the manager with its calls, and their parts
* `Discovery.handleProviderFound`: a call without interruption
* `Discovery.Addressed`: every sender is that of a query for its manifest
* `ProviderQuery.OnItsWay`: a list that was sent, and is not stored yet
* `Discovery.Shaped`: every list has the shape, those on their way included

## Main results

* `deliver_spec`: what sending a list does to the queries
* `Discovery.run_handleProviderFound`: the parts of a call, in one go
* `Discovery.Addressed.onItsWay_step`: a list on its way was so before, or is that of the manifest
* `provider_cache_shape`: the cache keeps its shape, in any order of the parts
-/

namespace Beemesh

/-! ## Calls -/

/-- A call of `handle_provider_found`, before its parts. -/
inductive FoundCall
  | idle
  /-- It has made the provider, and waits for the lock of the remote providers. -/
  | started (info : ProviderInfo)
  /-- It has recorded the provider, and waits for the lock of the pending queries. -/
  | recorded (manifestId : String)

/-- `ProviderError`, as far as a discovery returns it. -/
inductive DiscoveryError
  | timeout
  deriving DecidableEq

def DiscoveryError.display : DiscoveryError → String
  | timeout => "Timeout waiting for providers"

/-- How far a call of `discover_providers` is. -/
inductive QueryPhase
  | idle
  /-- It has found nothing in the cache. -/
  | missed
  /-- It has left its sender, and waits. -/
  | waiting
  | received (providers : List ProviderInfo)
  | returned (result : Except DiscoveryError (List ProviderInfo)) (time : ℕ)

/-- A call of `discover_providers`, with its channel. -/
structure ProviderQuery where
  manifestId : String
  inbox : List (List ProviderInfo)
  phase : QueryPhase

def ProviderQuery.push (query : ProviderQuery) (providers : List ProviderInfo) : ProviderQuery :=
  { query with inbox := query.inbox ++ [providers] }

def ProviderQuery.setPhase (query : ProviderQuery) (phase : QueryPhase) : ProviderQuery :=
  { query with phase := phase }

/-- The remote side of `ProviderManager`, and its calls by number. The number of a query stands for
its sender. -/
structure Discovery where
  now : ℕ
  remote : RemoteProviders := ∅
  pending : Table String (List ℕ) := ∅
  calls : ℕ → FoundCall := fun _ => .idle
  /-- Who holds the lock of the pending queries, to send the list of a manifest to the senders. -/
  notifying : Option (String × List ℕ) := none
  queries : ℕ → ProviderQuery := fun _ => ⟨"", [], .idle⟩

def Discovery.start (now : ℕ) : Discovery := { now := now }

/-- The queries, after a list was sent to one of them. A query that has returned has no receiver. -/
def sendTo (providers : List ProviderInfo) (queries : ℕ → ProviderQuery) (q : ℕ) :
    ℕ → ProviderQuery :=
  match (queries q).phase with
  | .waiting => Function.update queries q ((queries q).push providers)
  | _ => queries

namespace Discovery

def setCall (s : Discovery) (c : ℕ) (call : FoundCall) : Discovery :=
  { s with calls := Function.update s.calls c call }

def setQuery (s : Discovery) (q : ℕ) (query : ProviderQuery) : Discovery :=
  { s with queries := Function.update s.queries q query }

def setPhase (s : Discovery) (q : ℕ) (phase : QueryPhase) : Discovery :=
  s.setQuery q ((s.queries q).setPhase phase)

/-- The senders of the pending queries for a manifest. -/
def senders (s : Discovery) (manifestId : String) : List ℕ := (s.pending.lookup manifestId).getD []

/-- `handle_provider_found` takes the senders of the manifest, if there is an entry. -/
def takeSenders (s : Discovery) (manifestId : String) : Discovery :=
  match s.pending.lookup manifestId with
  | some senders => { s with
      pending := s.pending.erase manifestId
      notifying := some (manifestId, senders) }
  | none => s

/-- It sends them the list of the manifest, and gives the lock back. -/
def notify (s : Discovery) : Discovery :=
  match s.notifying with
  | some (manifestId, senders) => { s with
      notifying := none
      queries := senders.foldl (sendTo (s.remote.of manifestId)) s.queries }
  | none => s

/-- `handle_provider_found`, without interruption. -/
def handleProviderFound (config : ProviderConfig) (s : Discovery) (manifestId peer : String) :
    Discovery :=
  let info := foundProvider config s.now manifestId peer
  let s := { s with remote := recordFound config s.remote s.now info }
  (s.takeSenders manifestId).notify

/-- The sender of a query is nowhere any more. -/
def SenderGone (s : Discovery) (q : ℕ) : Prop :=
  q ∉ s.senders (s.queries q).manifestId ∧ ∀ n ∈ s.notifying, q ∉ n.2

instance (s : Discovery) (q : ℕ) : Decidable (s.SenderGone q) :=
  inferInstanceAs (Decidable (_ ∧ _))

end Discovery

/-! ## Their parts -/

inductive DiscoveryAction
  /-- The clock shows another time. -/
  | clock (now : ℕ)
  | found (c : ℕ) (manifestId peer : String)
  | record (c : ℕ)
  | take (c : ℕ)
  | notify
  /-- `cleanup_expired_providers`, or the cleanup in the background. -/
  | cleanup
  | discover (q : ℕ) (manifestId : String)
  | register (q : ℕ)
  | receive (q : ℕ)
  | store (q : ℕ)
  /-- The channel is closed: it is empty, and without a sender. -/
  | closed (q : ℕ)
  /-- The time is up, and the channel is empty. -/
  | timeout (q : ℕ)

/-- What a part of a call does. A part that is not next in its call, or that waits for a lock, does
nothing. -/
def discoveryStep (config : ProviderConfig) (s : Discovery) : DiscoveryAction → Discovery
  | .clock now => { s with now := now }
  | .found c manifestId peer =>
    match s.calls c with
    | .idle => s.setCall c (.started (foundProvider config s.now manifestId peer))
    | _ => s
  | .record c =>
    match s.calls c with
    | .started info => { s.setCall c (.recorded info.manifestId) with
        remote := recordFound config s.remote s.now info }
    | _ => s
  | .take c =>
    -- The lock of the pending queries is held until the senders have been sent the list.
    match s.calls c, s.notifying with
    | .recorded manifestId, none => (s.setCall c .idle).takeSenders manifestId
    | _, _ => s
  | .notify => s.notify
  | .cleanup => { s with remote := cleanupExpiredProviders s.remote s.now }
  | .discover q manifestId =>
    match (s.queries q).phase with
    | .idle =>
      match cachedProviders s.remote s.now manifestId with
      | some providers => s.setQuery q ⟨manifestId, [], .returned (.ok providers) s.now⟩
      | none => s.setQuery q ⟨manifestId, [], .missed⟩
    | _ => s
  | .register q =>
    match (s.queries q).phase, s.notifying with
    | .missed, none => { s.setPhase q .waiting with
        pending := s.pending.insert (s.queries q).manifestId
          (s.senders (s.queries q).manifestId ++ [q]) }
    | _, _ => s
  | .receive q =>
    match (s.queries q).phase, (s.queries q).inbox with
    | .waiting, providers :: inbox =>
      s.setQuery q ⟨(s.queries q).manifestId, inbox, .received providers⟩
    | _, _ => s
  | .store q =>
    -- What was sent becomes the list of the manifest, whatever the list is by now.
    match (s.queries q).phase with
    | .received providers => { s.setPhase q (.returned (.ok providers) s.now) with
        remote := s.remote.insert (s.queries q).manifestId providers }
    | _ => s
  | .closed q =>
    match (s.queries q).phase, (s.queries q).inbox with
    | .waiting, [] => if s.SenderGone q then s.setPhase q (.returned (.ok []) s.now) else s
    | _, _ => s
  | .timeout q =>
    -- A list that is in the channel is received first. The sender stays where it is.
    match (s.queries q).phase, (s.queries q).inbox with
    | .waiting, [] => s.setPhase q (.returned (.error .timeout) s.now)
    | _, _ => s

/-- What the parts can do, by case. -/
inductive DiscoveryPart (config : ProviderConfig) (s : Discovery) :
    DiscoveryAction → Discovery → Prop
  | nothing (a : DiscoveryAction) : DiscoveryPart config s a s
  | clock (now : ℕ) : DiscoveryPart config s (.clock now) { s with now := now }
  | found {c : ℕ} (manifestId peer : String) (hcall : s.calls c = .idle) :
    DiscoveryPart config s (.found c manifestId peer)
      (s.setCall c (.started (foundProvider config s.now manifestId peer)))
  | record {c : ℕ} {info : ProviderInfo} (hcall : s.calls c = .started info) :
    DiscoveryPart config s (.record c) { s.setCall c (.recorded info.manifestId) with
      remote := recordFound config s.remote s.now info }
  | take {c : ℕ} {manifestId : String} (hcall : s.calls c = .recorded manifestId)
    (hlock : s.notifying = none) :
    DiscoveryPart config s (.take c) ((s.setCall c .idle).takeSenders manifestId)
  | notify : DiscoveryPart config s .notify s.notify
  | cleanup : DiscoveryPart config s .cleanup
      { s with remote := cleanupExpiredProviders s.remote s.now }
  | hit {q : ℕ} {manifestId : String} {providers : List ProviderInfo}
    (hphase : (s.queries q).phase = .idle)
    (hcached : cachedProviders s.remote s.now manifestId = some providers) :
    DiscoveryPart config s (.discover q manifestId)
      (s.setQuery q ⟨manifestId, [], .returned (.ok providers) s.now⟩)
  | miss {q : ℕ} {manifestId : String} (hphase : (s.queries q).phase = .idle)
    (hcached : cachedProviders s.remote s.now manifestId = none) :
    DiscoveryPart config s (.discover q manifestId) (s.setQuery q ⟨manifestId, [], .missed⟩)
  | register {q : ℕ} (hphase : (s.queries q).phase = .missed) (hlock : s.notifying = none) :
    DiscoveryPart config s (.register q) { s.setPhase q .waiting with
      pending := s.pending.insert (s.queries q).manifestId
        (s.senders (s.queries q).manifestId ++ [q]) }
  | receive {q : ℕ} {providers : List ProviderInfo} {inbox : List (List ProviderInfo)}
    (hphase : (s.queries q).phase = .waiting) (hinbox : (s.queries q).inbox = providers :: inbox) :
    DiscoveryPart config s (.receive q)
      (s.setQuery q ⟨(s.queries q).manifestId, inbox, .received providers⟩)
  | store {q : ℕ} {providers : List ProviderInfo}
    (hphase : (s.queries q).phase = .received providers) :
    DiscoveryPart config s (.store q) { s.setPhase q (.returned (.ok providers) s.now) with
      remote := s.remote.insert (s.queries q).manifestId providers }
  | closed {q : ℕ} (hphase : (s.queries q).phase = .waiting) (hinbox : (s.queries q).inbox = [])
    (hgone : s.SenderGone q) :
    DiscoveryPart config s (.closed q) (s.setPhase q (.returned (.ok []) s.now))
  | timeout {q : ℕ} (hphase : (s.queries q).phase = .waiting) (hinbox : (s.queries q).inbox = []) :
    DiscoveryPart config s (.timeout q) (s.setPhase q (.returned (.error .timeout) s.now))

/-- **What a part does**: one of the cases, or nothing. -/
theorem discoveryStep_part (config : ProviderConfig) (s : Discovery) (a : DiscoveryAction) :
    DiscoveryPart config s a (discoveryStep config s a) := by
  cases a with
  | clock now => exact .clock now
  | found c manifestId peer =>
    rw [discoveryStep]
    split
    · next hcall => exact .found manifestId peer hcall
    · exact .nothing _
  | record c =>
    rw [discoveryStep]
    split
    · next info hcall => exact .record hcall
    · exact .nothing _
  | take c =>
    rw [discoveryStep]
    split
    · next manifestId hcall hlock => exact .take hcall hlock
    · exact .nothing _
  | notify => exact .notify
  | cleanup => exact .cleanup
  | discover q manifestId =>
    rw [discoveryStep]
    split
    · next hphase =>
      split
      · next providers hcached => exact .hit hphase hcached
      · next hcached => exact .miss hphase hcached
    · exact .nothing _
  | register q =>
    rw [discoveryStep]
    split
    · next hphase hlock => exact .register hphase hlock
    · exact .nothing _
  | receive q =>
    rw [discoveryStep]
    split
    · next providers inbox hphase hinbox => exact .receive hphase hinbox
    · exact .nothing _
  | store q =>
    rw [discoveryStep]
    split
    · next providers hphase => exact .store hphase
    · exact .nothing _
  | closed q =>
    rw [discoveryStep]
    split
    · next hphase hinbox =>
      split_ifs with hgone
      · exact .closed hphase hinbox hgone
      · exact .nothing _
    · exact .nothing _
  | timeout q =>
    rw [discoveryStep]
    split
    · next hphase hinbox => exact .timeout hphase hinbox
    · exact .nothing _

/-! ## Sending a list -/

section Deliver

variable (providers : List ProviderInfo)

/-- Sending a list to one query. -/
theorem sendTo_apply (queries : ℕ → ProviderQuery) (q q' : ℕ) :
    sendTo providers queries q q' = (queries q').push providers ∧ q' = q ∧
        (queries q').phase = .waiting ∨
      sendTo providers queries q q' = queries q' ∧ (q' = q → (queries q').phase ≠ .waiting) := by
  rcases eq_or_ne q' q with rfl | hne
  · cases hphase : (queries q').phase with
    | waiting =>
      refine .inl ⟨?_, rfl, rfl⟩
      rw [sendTo, hphase]
      exact Function.update_self ..
    | idle => exact .inr ⟨by rw [sendTo, hphase], nofun⟩
    | missed => exact .inr ⟨by rw [sendTo, hphase], nofun⟩
    | received providers => exact .inr ⟨by rw [sendTo, hphase], nofun⟩
    | returned result time => exact .inr ⟨by rw [sendTo, hphase], nofun⟩
  · refine .inr ⟨?_, fun h => absurd h hne⟩
    unfold sendTo
    cases (queries q).phase with
    | waiting => exact Function.update_of_ne hne ..
    | _ => rfl

/-- **What sending a list does** to a query: one that waits for it has it at the end of its channel,
and nothing else is changed. -/
theorem deliver_spec (senders : List ℕ) (queries : ℕ → ProviderQuery) (q : ℕ) :
    ∃ n, senders.foldl (sendTo providers) queries q = ⟨(queries q).manifestId,
        (queries q).inbox ++ List.replicate n providers, (queries q).phase⟩ ∧
      (n ≠ 0 ↔ q ∈ senders ∧ (queries q).phase = .waiting) := by
  -- A sender can stand in the list more than once; it is sent the list as often.
  induction senders generalizing queries with
  | nil => exact ⟨0, by simp, by simp⟩
  | cons sender senders ih =>
    obtain ⟨n, hn, hsent⟩ := ih (sendTo providers queries sender)
    rw [List.foldl_cons, hn]
    rcases sendTo_apply providers queries sender q with ⟨hone, rfl, hphase⟩ | ⟨hnone, hother⟩
    · refine ⟨n + 1, ?_, by simp [hphase]⟩
      rw [hone, List.replicate_succ]
      simp [ProviderQuery.push]
    · refine ⟨n, by rw [hnone], ?_⟩
      rw [hsent, hnone, List.mem_cons]
      constructor
      · exact fun h => ⟨.inr h.1, h.2⟩
      · rintro ⟨rfl | hq, hphase⟩
        · exact absurd hphase (hother rfl)
        · exact ⟨hq, hphase⟩

end Deliver

namespace Discovery

variable (s : Discovery)

@[simp] theorem queries_setQuery_self (q : ℕ) (query : ProviderQuery) :
    (s.setQuery q query).queries q = query :=
  Function.update_self ..

theorem queries_setQuery_of_ne {q q' : ℕ} (hne : q ≠ q') (query : ProviderQuery) :
    (s.setQuery q' query).queries q = s.queries q :=
  Function.update_of_ne hne ..

@[simp] theorem now_notify : s.notify.now = s.now := by
  unfold notify
  split <;> rfl

@[simp] theorem remote_notify : s.notify.remote = s.remote := by
  unfold notify
  split <;> rfl

@[simp] theorem pending_notify : s.notify.pending = s.pending := by
  unfold notify
  split <;> rfl

@[simp] theorem calls_notify : s.notify.calls = s.calls := by
  unfold notify
  split <;> rfl

@[simp] theorem notifying_notify : s.notify.notifying = none := by
  unfold notify
  split
  · rfl
  · assumption

@[simp] theorem now_takeSenders (m : String) : (s.takeSenders m).now = s.now := by
  unfold takeSenders
  split <;> rfl

@[simp] theorem remote_takeSenders (m : String) : (s.takeSenders m).remote = s.remote := by
  unfold takeSenders
  split <;> rfl

@[simp] theorem calls_takeSenders (m : String) : (s.takeSenders m).calls = s.calls := by
  unfold takeSenders
  split <;> rfl

@[simp] theorem queries_takeSenders (m : String) : (s.takeSenders m).queries = s.queries := by
  unfold takeSenders
  split <;> rfl

variable {s}

theorem senders_takeSenders (m m' : String) :
    (s.takeSenders m).senders m' = if m' = m then [] else s.senders m' := by
  unfold takeSenders senders
  split_ifs with hm
  · subst hm
    split
    · rw [AList.lookup_erase]
      rfl
    · next hnone => rw [hnone, Option.getD_none]
  · split
    · rw [AList.lookup_erase_ne hm]
    · rfl

/-- A sender more is one of its manifest. -/
theorem mem_senders_insert {m m' : String} {q q' : ℕ} :
    q ∈ ((s.pending.insert m' (s.senders m' ++ [q'])).lookup m).getD [] ↔
      q ∈ s.senders m ∨ q = q' ∧ m = m' := by
  rcases eq_or_ne m m' with rfl | hne
  · rw [AList.lookup_insert, Option.getD_some, List.mem_append, List.mem_singleton]
    exact or_congr_right (and_iff_left rfl).symm
  · rw [AList.lookup_insert_ne hne]
    exact (or_iff_left fun h => hne h.2).symm

/-- What is taken are the senders of the manifest. -/
theorem of_mem_notifying_takeSenders {m : String} (hlock : s.notifying = none)
    {n : String × List ℕ} (hn : n ∈ (s.takeSenders m).notifying) : n = (m, s.senders m) := by
  unfold takeSenders at hn
  split at hn
  · next senders hsenders =>
    rw [Discovery.senders, hsenders]
    exact (Option.mem_some_iff.mp hn).symm
  · rw [hlock] at hn
    exact nomatch hn

/-- A query afterwards: it has the list if it waits for it and its sender was taken. -/
theorem queries_notify (q : ℕ) : s.notify.queries q = s.queries q ∨
    ∃ n ∈ s.notifying, ∃ k, s.notify.queries q = ⟨(s.queries q).manifestId,
      (s.queries q).inbox ++ List.replicate k (s.remote.of n.1), (s.queries q).phase⟩ ∧
      (k ≠ 0 ↔ q ∈ n.2 ∧ (s.queries q).phase = .waiting) := by
  unfold notify
  split
  · next m senders hnotifying =>
    exact .inr ⟨(m, senders), hnotifying, deliver_spec (s.remote.of m) senders s.queries q⟩
  · exact .inl rfl

@[simp] theorem manifestId_notify (q : ℕ) :
    (s.notify.queries q).manifestId = (s.queries q).manifestId := by
  rcases queries_notify (s := s) q with hq | ⟨n, -, k, hq, -⟩ <;> rw [hq]

@[simp] theorem phase_notify (q : ℕ) : (s.notify.queries q).phase = (s.queries q).phase := by
  rcases queries_notify (s := s) q with hq | ⟨n, -, k, hq, -⟩ <;> rw [hq]

end Discovery

/-! ## A call without interruption -/

/-- **The parts of a call in one go** are the call. -/
theorem Discovery.run_handleProviderFound (config : ProviderConfig) {s : Discovery} {c : ℕ}
    (hcall : s.calls c = .idle) (hlock : s.notifying = none) (m peer : String) :
    Run.run (discoveryStep config) s [.found c m peer, .record c, .take c, .notify] =
      s.handleProviderFound config m peer := by
  have hstarted : discoveryStep config s (.found c m peer) =
      s.setCall c (.started (foundProvider config s.now m peer)) := by
    rw [discoveryStep, hcall]
  have hrecorded : discoveryStep config
      (s.setCall c (.started (foundProvider config s.now m peer))) (.record c) =
        { s.setCall c (.recorded m) with
          remote := recordFound config s.remote s.now (foundProvider config s.now m peer) } := by
    simp [discoveryStep, setCall, foundProvider]
  have htaken : discoveryStep config { s.setCall c (.recorded m) with
      remote := recordFound config s.remote s.now (foundProvider config s.now m peer) } (.take c) =
        { s with
          remote := recordFound config s.remote s.now
            (foundProvider config s.now m peer) }.takeSenders m := by
    have hidle : Function.update s.calls c .idle = s.calls := by
      rw [← hcall, Function.update_eq_self]
    simp [discoveryStep, setCall, hlock, hidle]
  rw [Run.run_cons, hstarted, Run.run_cons, hrecorded, Run.run_cons, htaken]
  rfl

/-! ## Where the senders are -/

/-- Every sender, with the pending queries or taken, is that of a query for the manifest that has
begun. -/
structure Discovery.Addressed (s : Discovery) : Prop where
  senders : ∀ m, ∀ q ∈ s.senders m, (s.queries q).manifestId = m ∧ (s.queries q).phase ≠ .idle
  notifying : ∀ n ∈ s.notifying, ∀ q ∈ n.2,
    (s.queries q).manifestId = n.1 ∧ (s.queries q).phase ≠ .idle

namespace Discovery

variable {config : ProviderConfig} {s : Discovery}

theorem Addressed.start (now : ℕ) : (start now).Addressed where
  senders _ _ hq := nomatch hq
  notifying _ hn := nomatch hn

/-- A change of one query, which stays one of its manifest once it has begun. -/
theorem Addressed.setQuery (h : s.Addressed) {q : ℕ} {query : ProviderQuery}
    (hbegun : (s.queries q).phase ≠ .idle → query.manifestId = (s.queries q).manifestId)
    (hphase : query.phase ≠ .idle) : (s.setQuery q query).Addressed := by
  have hkept (q' : ℕ) (m : String)
      (hq' : (s.queries q').manifestId = m ∧ (s.queries q').phase ≠ .idle) :
      (Function.update s.queries q query q').manifestId = m ∧
        (Function.update s.queries q query q').phase ≠ .idle := by
    rcases eq_or_ne q' q with rfl | hne
    · rw [Function.update_self]
      exact ⟨(hbegun hq'.2).trans hq'.1, hphase⟩
    · rw [Function.update_of_ne hne]
      exact hq'
  exact ⟨fun m q' hq' => hkept q' m (h.senders m q' hq'),
    fun n hn q' hq' => hkept q' n.1 (h.notifying n hn q' hq')⟩

theorem Addressed.takeSenders (h : s.Addressed) (hlock : s.notifying = none) (m : String) :
    (s.takeSenders m).Addressed := by
  refine ⟨?_, ?_⟩
  · intro m' q hq
    rw [senders_takeSenders] at hq
    rw [queries_takeSenders]
    split_ifs at hq
    · exact nomatch hq
    · exact h.senders m' q hq
  · intro n hn q hq
    obtain rfl := of_mem_notifying_takeSenders hlock hn
    rw [queries_takeSenders]
    exact h.senders m q hq

theorem Addressed.notify (h : s.Addressed) : s.notify.Addressed := by
  refine ⟨?_, ?_⟩
  · intro m q hq
    rw [manifestId_notify, phase_notify]
    rw [Discovery.senders, pending_notify] at hq
    exact h.senders m q hq
  · rw [notifying_notify]
    exact nofun

/-- A query leaves its sender, and waits. -/
theorem Addressed.register (h : s.Addressed) (q : ℕ) :
    Addressed { s.setPhase q .waiting with
      pending := s.pending.insert (s.queries q).manifestId
        (s.senders (s.queries q).manifestId ++ [q]) } := by
  have hwaiting : (s.setPhase q .waiting).Addressed := h.setQuery (fun _ => rfl) nofun
  refine ⟨?_, hwaiting.notifying⟩
  intro m q' hq'
  rcases mem_senders_insert.mp hq' with hq' | ⟨rfl, rfl⟩
  · exact hwaiting.senders m q' hq'
  · -- The new sender is that of the query itself.
    show ((s.setPhase q' .waiting).queries q').manifestId = _ ∧
      ((s.setPhase q' .waiting).queries q').phase ≠ .idle
    rw [Discovery.setPhase, queries_setQuery_self]
    exact ⟨rfl, QueryPhase.noConfusion⟩

/-- **A part of a call** keeps the senders with their queries. -/
theorem Addressed.step (h : s.Addressed) (a : DiscoveryAction) :
    (discoveryStep config s a).Addressed := by
  have hpart := discoveryStep_part config s a
  generalize discoveryStep config s a = s' at hpart
  cases hpart with
  | nothing => exact h
  | clock now => exact ⟨h.senders, h.notifying⟩
  | found m peer hcall => exact ⟨h.senders, h.notifying⟩
  | record hcall => exact ⟨h.senders, h.notifying⟩
  | @take c m hcall hlock =>
    have hidle : (s.setCall c .idle).Addressed := ⟨h.senders, h.notifying⟩
    exact hidle.takeSenders hlock m
  | notify => exact h.notify
  | cleanup => exact ⟨h.senders, h.notifying⟩
  | hit hphase hcached => exact h.setQuery (fun hbegun => absurd hphase hbegun) nofun
  | miss hphase hcached => exact h.setQuery (fun hbegun => absurd hphase hbegun) nofun
  | @register q hphase hlock => exact h.register q
  | receive hphase hinbox => exact h.setQuery (fun _ => rfl) nofun
  | @store q providers hphase =>
    have hreturned : (s.setPhase q (.returned (.ok providers) s.now)).Addressed :=
      h.setQuery (fun _ => rfl) nofun
    exact ⟨hreturned.senders, hreturned.notifying⟩
  | closed hphase hinbox hgone => exact h.setQuery (fun _ => rfl) nofun
  | timeout hphase hinbox => exact h.setQuery (fun _ => rfl) nofun

end Discovery

/-! ## Lists on their way -/

/-- The query has been sent the list, and has not stored it. -/
def ProviderQuery.OnItsWay (query : ProviderQuery) (providers : List ProviderInfo) : Prop :=
  query.phase = .received providers ∨ providers ∈ query.inbox

namespace Discovery

variable {config : ProviderConfig} {s : Discovery} {q : ℕ} {providers : List ProviderInfo}

/-- A change of a query to which no other list is on its way afterwards. -/
theorem onItsWay_setQuery {q' : ℕ} {query : ProviderQuery}
    (hquery : query.OnItsWay providers → query.manifestId = (s.queries q').manifestId ∧
      (s.queries q').OnItsWay providers)
    (h : ((s.setQuery q' query).queries q).OnItsWay providers) :
    ((s.setQuery q' query).queries q).manifestId = (s.queries q).manifestId ∧
      (s.queries q).OnItsWay providers := by
  rcases eq_or_ne q q' with rfl | hne
  · rw [queries_setQuery_self] at h ⊢
    exact hquery h
  · rw [queries_setQuery_of_ne s hne] at h ⊢
    exact ⟨rfl, h⟩

/-- A query that goes on without taking a list. -/
theorem onItsWay_setPhase {q' : ℕ} {phase : QueryPhase}
    (h : ((s.setPhase q' phase).queries q).OnItsWay providers)
    (hphase : ∀ l, phase ≠ .received l) :
    ((s.setPhase q' phase).queries q).manifestId = (s.queries q).manifestId ∧
      (s.queries q).OnItsWay providers :=
  onItsWay_setQuery (fun hquery => ⟨rfl, .inr (hquery.resolve_left (hphase providers))⟩) h

/-- The list of the manifest is sent to the query, or nothing new. -/
theorem Addressed.onItsWay_notify (h : s.Addressed)
    (hway : (s.notify.queries q).OnItsWay providers) :
    (s.queries q).OnItsWay providers ∨ providers = s.remote.of (s.queries q).manifestId := by
  rcases hway with hway | hway
  · rw [phase_notify] at hway
    exact .inl (.inl hway)
  · rcases queries_notify (s := s) q with hq | ⟨n, hn, k, hq, hsent⟩
    · rw [hq] at hway
      exact .inl (.inr hway)
    · rw [hq] at hway
      rcases List.mem_append.mp hway with hway | hway
      · exact .inl (.inr hway)
      · -- It is the list of the manifest that the sender was left for.
        obtain ⟨hk, rfl⟩ := List.mem_replicate.mp hway
        rw [(h.notifying n hn q (hsent.mp hk).1).1]
        exact .inr rfl

/-- **What is on its way** after a part of a call was so before, or it is the list of the
manifest. -/
theorem Addressed.onItsWay_step (h : s.Addressed) {a : DiscoveryAction}
    (hway : ((discoveryStep config s a).queries q).OnItsWay providers) :
    ((discoveryStep config s a).queries q).manifestId = (s.queries q).manifestId ∧
      ((s.queries q).OnItsWay providers ∨
        providers = s.remote.of (s.queries q).manifestId) := by
  have hpart := discoveryStep_part config s a
  generalize discoveryStep config s a = s' at hpart hway
  cases hpart with
  | nothing => exact ⟨rfl, .inl hway⟩
  | clock now => exact ⟨rfl, .inl hway⟩
  | found m peer hcall => exact ⟨rfl, .inl hway⟩
  | record hcall => exact ⟨rfl, .inl hway⟩
  | take hcall hlock =>
    rw [queries_takeSenders] at hway ⊢
    exact ⟨rfl, .inl hway⟩
  | notify => exact ⟨manifestId_notify q, h.onItsWay_notify hway⟩
  | cleanup => exact ⟨rfl, .inl hway⟩
  | hit hphase hcached =>
    refine (onItsWay_setQuery ?_ hway).imp_right .inl
    rintro (hnone | hnone)
    · cases hnone
    · cases hnone
  | miss hphase hcached =>
    refine (onItsWay_setQuery ?_ hway).imp_right .inl
    rintro (hnone | hnone)
    · cases hnone
    · cases hnone
  | @register q' hphase hlock =>
    have hway : ((s.setPhase q' .waiting).queries q).OnItsWay providers := hway
    exact (onItsWay_setPhase hway nofun).imp_right .inl
  | @receive q' received inbox hphase hinbox =>
    refine (onItsWay_setQuery ?_ hway).imp_right .inl
    rintro (hreceived | hinbox')
    · obtain rfl := QueryPhase.received.inj hreceived
      exact ⟨rfl, .inr (hinbox ▸ List.mem_cons_self)⟩
    · exact ⟨rfl, .inr (hinbox ▸ List.mem_cons_of_mem _ hinbox')⟩
  | @store q' stored hphase =>
    have hway : ((s.setPhase q' (.returned (.ok stored) s.now)).queries q).OnItsWay providers :=
      hway
    exact (onItsWay_setPhase hway nofun).imp_right .inl
  | closed hphase hinbox hgone => exact (onItsWay_setPhase hway nofun).imp_right .inl
  | timeout hphase hinbox => exact (onItsWay_setPhase hway nofun).imp_right .inl

end Discovery

/-! ## Every list has the shape -/

/-- The list of each manifest has the shape, and so has every list that is on its way to a query of
the manifest. -/
structure Discovery.Shaped (config : ProviderConfig) (s : Discovery) : Prop extends
    s.Addressed where
  remote : ∀ m, Shape config m (s.remote.of m)
  onItsWay : ∀ q providers, (s.queries q).OnItsWay providers →
    Shape config (s.queries q).manifestId providers

namespace Discovery

variable {config : ProviderConfig} {s : Discovery}

theorem Shaped.start (config : ProviderConfig) (now : ℕ) : (start now).Shaped config where
  toAddressed := .start now
  remote m := Shape.nil config m
  onItsWay _ _ h := by
    rcases h with h | h
    · cases h
    · cases h

/-- **A part of a call keeps the shape** of every list. -/
theorem Shaped.step (hmax : 1 ≤ config.maxProvidersPerManifest) (h : s.Shaped config)
    (a : DiscoveryAction) : (discoveryStep config s a).Shaped config := by
  refine ⟨h.toAddressed.step a, ?_, ?_⟩
  · have hpart := discoveryStep_part config s a
    generalize discoveryStep config s a = s' at hpart
    intro m
    cases hpart with
    | @record c info hcall =>
      show Shape config m ((recordFound config s.remote s.now info).of m)
      rw [of_recordFound]
      split_ifs with hm
      · exact (h.remote m).recordProvider hmax s.now hm.symm
      · exact h.remote m
    | take hcall hlock =>
      rw [remote_takeSenders]
      exact h.remote m
    | notify =>
      rw [remote_notify]
      exact h.remote m
    | cleanup =>
      show Shape config m ((cleanupExpiredProviders s.remote s.now).of m)
      rw [of_cleanupExpiredProviders]
      exact (h.remote m).sublist List.filter_sublist
    | @store q providers hphase =>
      rw [of_insert]
      split_ifs with hm
      · rw [hm]
        exact h.onItsWay q providers (.inl hphase)
      · exact h.remote m
    | _ => exact h.remote m
  · intro q providers hway
    obtain ⟨hm, hbefore⟩ := h.toAddressed.onItsWay_step hway
    rw [hm]
    rcases hbefore with hbefore | rfl
    · exact h.onItsWay q providers hbefore
    · exact h.remote _

end Discovery

/-- **The cache keeps its shape**: in every order of the parts of calls, the list of a manifest has
different providers, all of them of this manifest, and not more than the limit. -/
theorem provider_cache_shape {config : ProviderConfig}
    (hmax : 1 ≤ config.maxProvidersPerManifest) (now : ℕ) (acts : List DiscoveryAction) {m : String}
    {providers : List ProviderInfo}
    (h : (Run.run (discoveryStep config) (Discovery.start now) acts).remote.lookup m =
      some providers) : Shape config m providers := by
  have hstep (s : Discovery) (a : DiscoveryAction) (hs : s.Shaped config) :
      (discoveryStep config s a).Shaped config := hs.step hmax a
  have hshaped := Run.run_invariant hstep acts (Discovery.Shaped.start config now)
  rw [← of_of_lookup h]
  exact hshaped.remote m

/-- Two providers of one manifest. -/
theorem provider_cache_shape_two :
    Shape .default "web" [foundProvider .default 5 "web" "a", foundProvider .default 5 "web" "b"] :=
  provider_cache_shape (by decide) 5
    [.found 0 "web" "a", .found 1 "web" "b", .record 0, .record 1, .take 0] rfl

end Beemesh
