import Beemesh.Basic
import Beemesh.Lib.Table
import Mathlib.Data.Finset.Insert

/-!
# Local providers

A node that hosts a manifest announces itself as a provider of it: Kademlia keeps the keys that the
node provides and tells other nodes of them. `ProviderManager` has a table of its own of the
manifests it has announced.

## Main definitions

* `Swarm`, `Swarm.startProviding`, `Swarm.stopProviding`: what Kademlia provides on this node
* `ProviderManager`, `announceProvider`, `stopProviding`, `reannounceLocalProviders`

## Main results

* `provided_announceProvider`, `provided_reannounceLocalProviders`: announcing only adds keys
* `stopProviding_fst`: a manifest stops being provided once
-/

namespace Beemesh

/-- The swarm, as announcements see it. -/
structure Swarm where
  localPeerId : String
  connectedPeers : List String
  /-- The keys of the local provider records in Kademlia's store. -/
  provided : Finset String

namespace Swarm

/-- `start_providing`, on what the store says to a new record: one it refuses is not added. -/
def startProviding (swarm : Swarm) (stored : Except String Unit) (key : String) :
    Except String Unit × Swarm :=
  match stored with
  | .ok () => (.ok (), { swarm with provided := insert key swarm.provided })
  | .error e => (.error e, swarm)

/-- `stop_providing`. -/
def stopProviding (swarm : Swarm) (key : String) : Swarm :=
  { swarm with provided := swarm.provided.erase key }

theorem mem_provided_startProviding {swarm : Swarm} {stored : Except String Unit}
    {key k : String} :
    k ∈ (swarm.startProviding stored key).2.provided ↔
      k ∈ swarm.provided ∨ stored = .ok () ∧ k = key := by
  cases stored with
  | error e => simp [startProviding]
  | ok u => simp [startProviding, or_comm]

end Swarm

inductive ProviderError
  | dhtError (e : String)
  | providerNotFound (manifestId : String)
  deriving DecidableEq

/-- `ProviderInfo`, with system times in nanoseconds. -/
structure ProviderInfo where
  peerId : String
  manifestId : String
  announcedAt : ℕ
  lastSeen : ℕ
  ttlSeconds : U64
  metadata : Table String String

/-- `ProviderManager`, its own side. -/
structure ProviderManager where
  localProviders : Table String ProviderInfo
  defaultTtlSeconds : U64

def providerKey (manifestId : String) : String := "provider:" ++ manifestId

namespace ProviderManager

/-- `announce_via_dht`. -/
def announceViaDht (swarm : Swarm) (stored : Except String Unit) (manifestId : String) :
    Except ProviderError Unit × Swarm :=
  match swarm.startProviding stored (providerKey manifestId) with
  | (.ok (), swarm) => (.ok (), swarm)
  | (.error e, swarm) => (.error (.dhtError s!"Failed to start providing: {e}"), swarm)

/-- `announce_provider`: the table has its entry whether or not the announcement gets through. -/
def announceProvider (pm : ProviderManager) (swarm : Swarm) (now : ℕ)
    (stored : Except String Unit) (manifestId : String) (metadata : Table String String) :
    Except ProviderError Unit × ProviderManager × Swarm :=
  let info : ProviderInfo :=
    ⟨swarm.localPeerId, manifestId, now, now, pm.defaultTtlSeconds, metadata⟩
  let pm := { pm with localProviders := pm.localProviders.insert manifestId info }
  match announceViaDht swarm stored manifestId with
  | (result, swarm) => (result, pm, swarm)

/-- `stop_providing`. -/
def stopProviding (pm : ProviderManager) (manifestId : String) :
    Except ProviderError Unit × ProviderManager :=
  match pm.localProviders.lookup manifestId with
  | some _ => (.ok (), { pm with localProviders := pm.localProviders.erase manifestId })
  | none => (.error (.providerNotFound manifestId), pm)

/-- `reannounce_local_providers`. A failure is logged. -/
def reannounceLocalProviders (pm : ProviderManager) (swarm : Swarm)
    (stored : String → Except String Unit) : Swarm :=
  pm.localProviders.keys.foldl
    (fun swarm manifestId => (announceViaDht swarm (stored manifestId) manifestId).2) swarm

/-! ## What becomes of the keys -/

variable {pm : ProviderManager} {swarm : Swarm} {stored : Except String Unit} {m k : String}

theorem announceViaDht_snd :
    (announceViaDht swarm stored m).2 = (swarm.startProviding stored (providerKey m)).2 := by
  cases stored <;> rfl

/-- An announcement adds its key when the store takes it. -/
theorem mem_provided_announceProvider {now : ℕ} {metadata : Table String String} :
    k ∈ (pm.announceProvider swarm now stored m metadata).2.2.provided ↔
      k ∈ swarm.provided ∨ stored = .ok () ∧ k = providerKey m := by
  rw [← Swarm.mem_provided_startProviding, ← announceViaDht_snd]
  rfl

theorem provided_announceProvider (pm : ProviderManager) (now : ℕ)
    (stored : Except String Unit) (m : String) (metadata : Table String String) :
    swarm.provided ⊆ (pm.announceProvider swarm now stored m metadata).2.2.provided := fun _ hk =>
  mem_provided_announceProvider.mpr (.inl hk)

/-- **A manifest stops being provided once**: stopping succeeds where there is an entry. -/
theorem stopProviding_fst : (pm.stopProviding m).1 = .ok () ↔ m ∈ pm.localProviders := by
  rw [← AList.lookup_isSome, stopProviding]
  cases pm.localProviders.lookup m <;> simp

/-- Announcing again only adds keys. -/
theorem provided_reannounceLocalProviders (stored : String → Except String Unit) :
    swarm.provided ⊆ (pm.reannounceLocalProviders swarm stored).provided := by
  unfold reannounceLocalProviders
  induction pm.localProviders.keys generalizing swarm with
  | nil => exact Finset.Subset.refl _
  | cons m ms ih =>
    refine Finset.Subset.trans (fun k hk => ?_) ih
    show k ∈ (announceViaDht swarm (stored m) m).2.provided
    rw [announceViaDht_snd]
    exact Swarm.mem_provided_startProviding.mpr (.inl hk)

end ProviderManager

end Beemesh
