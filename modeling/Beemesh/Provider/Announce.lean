import Beemesh.Provider.Manager
import Beemesh.Lib.Run

/-!
# Announcing and withdrawing providers

The control channel announces keys on request, renews the announcements when they are due, and
withdraws them; `ProviderManager` announces manifests on its own account. All of them write to one
set, the keys that Kademlia provides. A withdrawal goes through the helper that announces, with a
time to live of zero, and that helper does not look at the time to live; `ProviderManager` takes the
manifest out of its own table. So no withdrawal takes a key away.

## Main definitions

* `announceProviderDirect`, `announceProvider`, `renewDueProviders`, `withdrawProvider`,
  `withdrawAllProviders`: the control channel
* `stopAnnouncing`: the helper that nothing calls
* `Announcements`, `announceStep`: a node's announcements, and the steps that change them
* `Announcements.Withdraws`, `Announcements.NothingProvided`: what a withdrawal should bring, and
  where it does

## Main results

* `provided_subset_announceStep`: no step takes a provided key away
* `announced_stays_provided`: what is announced once is provided ever after
* `withdraws_iff`: a withdrawal does what it says where nothing was provided
-/

namespace Beemesh

open Run

/-! ## The control channel -/

/-- `AnnounceEntry`. -/
structure AnnounceEntry where
  ttlMs : U64
  nextDue : Instant

/-- `announce_provider_direct`. The time to live is not looked at. -/
def announceProviderDirect (swarm : Swarm) (stored : Except String Unit) (cid : String)
    (_ttlMs : U64) : Except String Unit × Swarm :=
  if swarm.connectedPeers = [] then (.error "No connected peers for DHT announcement", swarm)
  else match swarm.startProviding stored cid with
    | (.ok (), swarm) => (.ok (), swarm)
    | (.error e, swarm) => (.error s!"kademlia start_providing failed: {e}", swarm)

/-- The attempts of `AnnounceProvider`, up to the first that succeeds. -/
def announceAttempts (cid : String) (ttlMs : U64) :
    List (Except String Unit) → Swarm → Bool × Swarm
  | [], swarm => (false, swarm)
  | stored :: attempts, swarm =>
    match announceProviderDirect swarm stored cid ttlMs with
    | (.ok (), swarm) => (true, swarm)
    | (.error _, swarm) => announceAttempts cid ttlMs attempts swarm

/-- The time to the next renewal of an announcement with this time to live. -/
def renewalInterval (ttlMs : U64) : Duration := max 2000 (ttlMs.toNat / 3) * 10 ^ 6

/-- A node's announcements. -/
structure Announcements where
  swarm : Swarm
  /-- `ACTIVE_ANNOUNCES`. -/
  active : Table String AnnounceEntry
  manager : ProviderManager
  now : Instant

namespace Announcements

/-- The `AnnounceProvider` message, with what the store says to each of its three attempts. -/
def announceProvider (s : Announcements) (stored : Vector (Except String Unit) 3) (cid : String)
    (ttlMs : U64) : Except String Unit × Announcements :=
  match announceAttempts cid ttlMs stored.toList s.swarm with
  | (true, swarm) =>
    let next := if ttlMs = 0 then s.now + Duration.fromSecs 3600 else s.now + renewalInterval ttlMs
    (.ok (), { s with swarm := swarm, active := s.active.insert cid ⟨ttlMs, next⟩ })
  | (false, swarm) =>
    (.error "All provider announcement attempts failed", { s with swarm := swarm })

/-- The loop body of `renew_due_providers` for one entry. -/
def renewEntry (stored : String → Except String Unit) (s : Announcements)
    (e : Sigma fun _ : String => AnnounceEntry) : Announcements :=
  if e.2.ttlMs = 0 then s
  else if e.2.nextDue ≤ s.now then
    -- An announcement that fails is due again at the next interval, too.
    { s with
      swarm := (announceProviderDirect s.swarm (stored e.1) e.1 e.2.ttlMs).2
      active := s.active.insert e.1 ⟨e.2.ttlMs, s.now + renewalInterval e.2.ttlMs⟩ }
  else s

/-- `renew_due_providers`. -/
def renewDueProviders (s : Announcements) (stored : String → Except String Unit) : Announcements :=
  s.active.entries.foldl (renewEntry stored) s

/-- The `WithdrawProvider` message. -/
def withdrawProvider (s : Announcements) (stored : Except String Unit) (cid : String) :
    Except String Unit × Announcements :=
  match announceProviderDirect s.swarm stored cid 0 with
  | (result, swarm) => (result, { s with swarm := swarm, active := s.active.erase cid })

/-- `withdraw_all_providers`. -/
def withdrawAllProviders (s : Announcements) (stored : String → Except String Unit) :
    Announcements :=
  let withdraw (swarm : Swarm) (cid : String) := (announceProviderDirect swarm (stored cid) cid 0).2
  { s with swarm := s.active.keys.foldl withdraw s.swarm, active := ∅ }

end Announcements

/-- `AnnouncementManager::stop_announcing`, which nothing calls. -/
def stopAnnouncing (swarm : Swarm) (manifestId : String) : Swarm :=
  swarm.stopProviding (providerKey manifestId)

/-! ## Steps -/

/-- What happens to the announcements of a node: what it does, with what the store says to new
records, and what happens around it. -/
inductive AnnounceAction
  | announceProvider (cid : String) (ttlMs : U64) (stored : Vector (Except String Unit) 3)
  | renewDueProviders (stored : String → Except String Unit)
  /-- `ProviderManager::announce_provider`, at a system time. -/
  | announceManifest (manifestId : String) (metadata : Table String String) (timeMs : ℕ)
      (stored : Except String Unit)
  | reannounceLocalProviders (stored : String → Except String Unit)
  | withdrawProvider (cid : String) (stored : Except String Unit)
  | withdrawAllProviders (stored : String → Except String Unit)
  /-- `ProviderManager::stop_providing`. -/
  | stopProviding (manifestId : String)
  | connections (peers : List String)
  | elapse (d : Duration)

def announceStep (s : Announcements) : AnnounceAction → Announcements
  | .announceProvider cid ttlMs stored => (s.announceProvider stored cid ttlMs).2
  | .renewDueProviders stored => s.renewDueProviders stored
  | .announceManifest m metadata timeMs stored =>
    let announced := (s.manager.announceProvider s.swarm timeMs stored m metadata).2
    { s with manager := announced.1, swarm := announced.2 }
  | .reannounceLocalProviders stored =>
    { s with swarm := s.manager.reannounceLocalProviders s.swarm stored }
  | .withdrawProvider cid stored => (s.withdrawProvider stored cid).2
  | .withdrawAllProviders stored => s.withdrawAllProviders stored
  | .stopProviding m => { s with manager := (s.manager.stopProviding m).2 }
  | .connections peers => { s with swarm := { s.swarm with connectedPeers := peers } }
  | .elapse d => { s with now := s.now + d }

/-- A node that has announced nothing. -/
def Announcements.start (localPeerId : String) (ttlSeconds : U64) (now : Instant) :
    Announcements :=
  ⟨⟨localPeerId, [], ∅⟩, ∅, ⟨∅, ttlSeconds⟩, now⟩

namespace Announcements

/-- What a withdrawal should bring: right after it, Kademlia provides none of its keys. -/
def Withdraws (s : Announcements) (a : AnnounceAction) : Prop :=
  match a with
  | .withdrawProvider cid _ => cid ∉ (announceStep s a).swarm.provided
  | .withdrawAllProviders _ => ∀ cid ∈ s.active, cid ∉ (announceStep s a).swarm.provided
  | .stopProviding m =>
    (s.manager.stopProviding m).1 = .ok () → providerKey m ∉ (announceStep s a).swarm.provided
  | _ => True

/-- A withdrawal has nothing to take away, and cannot announce anything either. -/
def NothingProvided (s : Announcements) : AnnounceAction → Prop
  | .withdrawProvider cid stored =>
    cid ∉ s.swarm.provided ∧ (s.swarm.connectedPeers = [] ∨ stored ≠ .ok ())
  | .withdrawAllProviders _ => s.active = ∅
  | .stopProviding m => m ∈ s.manager.localProviders → providerKey m ∉ s.swarm.provided
  | _ => True

end Announcements

/-! ## What the keys become -/

section Keys

variable (swarm : Swarm) (cid : String) (ttlMs : U64)

/-- An announcement adds its key when there are peers and the store takes it. -/
theorem mem_provided_announceProviderDirect {stored : Except String Unit} {k : String} :
    k ∈ (announceProviderDirect swarm stored cid ttlMs).2.provided ↔
      k ∈ swarm.provided ∨ (swarm.connectedPeers ≠ [] ∧ stored = .ok ()) ∧ k = cid := by
  unfold announceProviderDirect
  split_ifs with hpeers
  · simp [hpeers]
  · cases stored with
    | error e => simp [Swarm.startProviding]
    | ok u => simp [Swarm.startProviding, hpeers, or_comm]

theorem announceProviderDirect_fst {stored : Except String Unit} :
    (announceProviderDirect swarm stored cid ttlMs).1 = .ok () ↔
      swarm.connectedPeers ≠ [] ∧ stored = .ok () := by
  unfold announceProviderDirect
  split_ifs with hpeers
  · simp [hpeers]
  · cases stored <;> simp [Swarm.startProviding, hpeers]

theorem provided_announceProviderDirect (stored : Except String Unit) :
    swarm.provided ⊆ (announceProviderDirect swarm stored cid ttlMs).2.provided := fun _ hk =>
  (mem_provided_announceProviderDirect swarm cid ttlMs).mpr (.inl hk)

/-- Attempts take no key away, and one that succeeds provides its key. -/
theorem announceAttempts_spec (attempts : List (Except String Unit)) :
    swarm.provided ⊆ (announceAttempts cid ttlMs attempts swarm).2.provided ∧
      ((announceAttempts cid ttlMs attempts swarm).1 = true →
        cid ∈ (announceAttempts cid ttlMs attempts swarm).2.provided) := by
  induction attempts generalizing swarm with
  | nil => exact ⟨Finset.Subset.refl _, nofun⟩
  | cons stored attempts ih =>
    have hsub := provided_announceProviderDirect swarm cid ttlMs stored
    unfold announceAttempts
    split
    · next heq =>
      have hok := (announceProviderDirect_fst swarm cid ttlMs).mp (congrArg Prod.fst heq)
      have hmem := (mem_provided_announceProviderDirect swarm cid ttlMs).mpr (.inr ⟨hok, rfl⟩)
      rw [heq] at hsub hmem
      exact ⟨hsub, fun _ => hmem⟩
    · next heq =>
      rw [heq] at hsub
      exact ⟨hsub.trans (ih _).1, (ih _).2⟩

end Keys

namespace Announcements

variable (s : Announcements)

theorem announceProvider_spec (stored : Vector (Except String Unit) 3) (cid : String)
    (ttlMs : U64) :
    s.swarm.provided ⊆ (s.announceProvider stored cid ttlMs).2.swarm.provided ∧
      ∀ k ∈ (s.announceProvider stored cid ttlMs).2.active,
        k ∈ s.active ∨ k ∈ (s.announceProvider stored cid ttlMs).2.swarm.provided := by
  obtain ⟨hsub, hmem⟩ := announceAttempts_spec s.swarm cid ttlMs stored.toList
  unfold announceProvider
  split
  · next heq =>
    rw [heq] at hsub hmem
    refine ⟨hsub, fun k hk => ?_⟩
    rcases (AList.mem_insert _).mp hk with rfl | hk
    · exact .inr (hmem rfl)
    · exact .inl hk
  · next heq =>
    rw [heq] at hsub
    exact ⟨hsub, fun k hk => .inl hk⟩

/-- What a renewal keeps, entry by entry. -/
theorem renewEntry_spec (stored : String → Except String Unit)
    {e : Sigma fun _ : String => AnnounceEntry} (he : e.1 ∈ s.active) :
    s.swarm.provided ⊆ (s.renewEntry stored e).swarm.provided ∧
      ∀ cid, cid ∈ (s.renewEntry stored e).active ↔ cid ∈ s.active := by
  unfold renewEntry
  split_ifs with hzero hdue
  · exact ⟨Finset.Subset.refl _, fun _ => Iff.rfl⟩
  · refine ⟨provided_announceProviderDirect _ _ _ _, fun cid => ?_⟩
    rw [AList.mem_insert]
    exact ⟨fun h => h.elim (fun h => h ▸ he) id, .inr⟩
  · exact ⟨Finset.Subset.refl _, fun _ => Iff.rfl⟩

theorem renewDueProviders_spec (stored : String → Except String Unit) :
    s.swarm.provided ⊆ (s.renewDueProviders stored).swarm.provided ∧
      ∀ cid, cid ∈ (s.renewDueProviders stored).active ↔ cid ∈ s.active := by
  -- The loop runs over the entries it starts with, whose keys stay active all along.
  have hkeys : ∀ e ∈ s.active.entries, e.1 ∈ s.active := fun e he =>
    AList.mem_keys.mpr (List.mem_map_of_mem he)
  unfold renewDueProviders
  generalize s.active.entries = entries at hkeys
  induction entries generalizing s with
  | nil => exact ⟨Finset.Subset.refl _, fun _ => Iff.rfl⟩
  | cons e entries ih =>
    obtain ⟨hsub, hactive⟩ := s.renewEntry_spec stored (hkeys e List.mem_cons_self)
    obtain ⟨hsub', hactive'⟩ := ih (s.renewEntry stored e) fun e' he' =>
      (hactive e'.1).mpr (hkeys e' (List.mem_cons_of_mem e he'))
    exact ⟨hsub.trans hsub', fun cid => (hactive' cid).trans (hactive cid)⟩

theorem provided_withdrawAllProviders (stored : String → Except String Unit) :
    s.swarm.provided ⊆ (s.withdrawAllProviders stored).swarm.provided := by
  unfold withdrawAllProviders
  generalize s.swarm = swarm
  induction s.active.keys generalizing swarm with
  | nil => exact Finset.Subset.refl _
  | cons cid cids ih => exact (provided_announceProviderDirect _ _ _ _).trans (ih _)

end Announcements

/-- **Nothing is ever taken away**: every key provided before a step is provided after it. -/
theorem provided_subset_announceStep (s : Announcements) (a : AnnounceAction) :
    s.swarm.provided ⊆ (announceStep s a).swarm.provided := by
  cases a with
  | announceProvider cid ttlMs stored => exact (s.announceProvider_spec stored cid ttlMs).1
  | renewDueProviders stored => exact (s.renewDueProviders_spec stored).1
  | announceManifest m metadata timeMs stored =>
    exact s.manager.provided_announceProvider timeMs stored m metadata
  | reannounceLocalProviders stored =>
    exact ProviderManager.provided_reannounceLocalProviders stored
  | withdrawProvider cid stored => exact provided_announceProviderDirect s.swarm cid 0 stored
  | withdrawAllProviders stored => exact s.provided_withdrawAllProviders stored
  | stopProviding m => exact Finset.Subset.refl _
  | connections peers => exact Finset.Subset.refl _
  | elapse d => exact Finset.Subset.refl _

/-- What is announced is provided. -/
def Announcements.ActiveProvided (s : Announcements) : Prop :=
  ∀ cid ∈ s.active, cid ∈ s.swarm.provided

theorem Announcements.ActiveProvided.step {s : Announcements} (a : AnnounceAction)
    (hs : s.ActiveProvided) : (announceStep s a).ActiveProvided := by
  have hsub := provided_subset_announceStep s a
  -- A step that adds no active key keeps the invariant, since no step takes a key away.
  have hkeep (h : ∀ cid ∈ (announceStep s a).active, cid ∈ s.active) :
      (announceStep s a).ActiveProvided := fun cid hcid => hsub (hs cid (h cid hcid))
  cases a with
  | announceProvider cid ttlMs stored =>
    intro k hk
    exact ((s.announceProvider_spec stored cid ttlMs).2 k hk).elim (fun h => hsub (hs k h)) id
  | renewDueProviders stored =>
    exact hkeep fun cid => ((s.renewDueProviders_spec stored).2 cid).mp
  | announceManifest m metadata timeMs stored => exact hkeep fun _ => id
  | reannounceLocalProviders stored => exact hkeep fun _ => id
  | withdrawProvider cid stored => exact hkeep fun _ h => (AList.mem_erase.mp h).2
  | withdrawAllProviders stored => exact hkeep fun _ h => absurd h (AList.notMem_empty _)
  | stopProviding m => exact hkeep fun _ => id
  | connections peers => exact hkeep fun _ => id
  | elapse d => exact hkeep fun _ => id

/-! ## Withdrawals -/

/-- The helper that nothing calls does take the key away. -/
theorem notMem_provided_stopAnnouncing (swarm : Swarm) (m : String) :
    providerKey m ∉ (stopAnnouncing swarm m).provided :=
  Finset.notMem_erase _ _

/-- **Withdrawn keys stay**: in any run, what is announced at some point is provided ever after. -/
theorem announced_stays_provided {s : Announcements} (hs : s.ActiveProvided)
    (acts acts' : List AnnounceAction) {cid : String} (h : cid ∈ (run announceStep s acts).active) :
    cid ∈ (run announceStep s (acts ++ acts')).swarm.provided := by
  have hprovided : cid ∈ (run announceStep s acts).swarm.provided :=
    run_invariant (fun s a => Announcements.ActiveProvided.step a) acts hs cid h
  rw [run_append]
  exact run_invariant (fun s a hmem => provided_subset_announceStep s a hmem) acts' hprovided

/-- A withdrawal of one key, in any state. -/
theorem withdrawProvider_withdraws_iff (s : Announcements) (stored : Except String Unit)
    (cid : String) :
    cid ∉ (s.withdrawProvider stored cid).2.swarm.provided ↔
      cid ∉ s.swarm.provided ∧ (s.swarm.connectedPeers = [] ∨ stored ≠ .ok ()) := by
  have hmem : cid ∈ (s.withdrawProvider stored cid).2.swarm.provided ↔ _ :=
    mem_provided_announceProviderDirect s.swarm cid 0
  rw [hmem, and_iff_left rfl, not_or, not_and_or, not_ne_iff]

/-- **A withdrawal does what it says where nothing was provided**: over any run, every withdrawal
leaves its keys unprovided exactly when each of them has nothing to take away. -/
theorem withdraws_iff (localPeerId : String) (ttlSeconds : U64) (now : Instant)
    (acts : List AnnounceAction) :
    Guarded announceStep Announcements.Withdraws (.start localPeerId ttlSeconds now) acts ↔
      Guarded announceStep Announcements.NothingProvided (.start localPeerId ttlSeconds now)
        acts := by
  have hstart : (Announcements.start localPeerId ttlSeconds now).ActiveProvided :=
    fun cid hcid => absurd hcid (AList.notMem_empty _)
  refine guarded_congr (fun s a => Announcements.ActiveProvided.step a) (fun s a hs => ?_) acts
    hstart
  cases a with
  | withdrawProvider cid stored => exact withdrawProvider_withdraws_iff s stored cid
  | withdrawAllProviders stored =>
    have hsub := s.provided_withdrawAllProviders stored
    simp only [Announcements.Withdraws, Announcements.NothingProvided]
    constructor
    · intro h
      -- Every active key was provided, and still is.
      refine AList.ext (List.eq_nil_iff_forall_not_mem.mpr fun e he => ?_)
      have hactive : e.1 ∈ s.active := AList.mem_keys.mpr (List.mem_map_of_mem he)
      exact h e.1 hactive (hsub (hs e.1 hactive))
    · intro h cid hcid
      rw [h] at hcid
      exact absurd hcid (AList.notMem_empty _)
  | stopProviding m =>
    simp only [Announcements.Withdraws, Announcements.NothingProvided,
      ProviderManager.stopProviding_fst, announceStep]
  | _ => exact Iff.rfl

/-- A node with a peer announces a key and withdraws it: the announcement goes out again, and the
key stays provided. -/
theorem withdrawn_still_provided :
    let announced := run announceStep (.start "node" 3600 0)
      [.connections ["peer"], .announceProvider "cid" 60000 (.replicate 3 (.ok ()))]
    "cid" ∈ announced.active ∧
      (announced.withdrawProvider (.ok ()) "cid").1 = .ok () ∧
      "cid" ∈ (announced.withdrawProvider (.ok ()) "cid").2.swarm.provided ∧
      ¬ announced.Withdraws (.withdrawProvider "cid" (.ok ())) := by
  intro announced
  have hmem : "cid" ∈ (announced.withdrawProvider (.ok ()) "cid").2.swarm.provided := by decide
  exact ⟨by decide, rfl, hmem, not_not.mpr hmem⟩

end Beemesh
