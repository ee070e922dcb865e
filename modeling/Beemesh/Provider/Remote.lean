import Beemesh.Provider.Manager
import Mathlib.Data.List.MinMax
import Mathlib.Data.List.Perm.Basic

/-!
# Remote providers

What `ProviderManager` knows of other nodes: for each manifest a list of the providers that were
found. A provider that is found again is seen again; a new one takes the place of the one that was
seen longest ago where the list is full. Entries expire a time after they were made.

## Main definitions

* `ProviderConfig`, `RemoteProviders`
* `ProviderInfo.isExpired`, `ProviderInfo.updateLastSeen`
* `recordProvider`, `recordFound`: what a provider that is found does to the list of its manifest
* `cleanupExpiredProviders`, `cachedProviders`: what expiry does to the lists, and to an answer
* `Shape`: distinct providers of one manifest, not more than the limit

## Main results

* `makeRoom_spec`: what goes from a full list
* `Shape.recordProvider`: recording a provider keeps the shape
* `of_insert`, `of_recordFound`, `of_cleanupExpiredProviders`: the lists afterwards
* `cachedProviders_eq_some_iff`: what the cache answers
-/

namespace Beemesh

/-! ## Providers -/

/-- `ProviderConfig`. The intervals of the background tasks and the timeout of a query say when
something happens, not what. -/
structure ProviderConfig where
  defaultTtlSeconds : U64
  maxProvidersPerManifest : ℕ

def ProviderConfig.default : ProviderConfig := ⟨3600, 50⟩

/-- The providers of each manifest. -/
abbrev RemoteProviders := Table String (List ProviderInfo)

def nanosPerSecond : ℕ := 1000000000

namespace ProviderInfo

/-- `is_expired`, as the clock shows `now`. An entry from the future is expired, too. -/
def isExpired (p : ProviderInfo) (now : ℕ) : Bool :=
  if p.announcedAt ≤ now then p.ttlSeconds.toNat < (now - p.announcedAt) / nanosPerSecond
  else true

/-- `update_last_seen`. -/
def updateLastSeen (p : ProviderInfo) (now : ℕ) : ProviderInfo := { p with lastSeen := now }

end ProviderInfo

/-! ## A provider is found -/

/-- The provider that is found, as `handle_provider_found` makes it. Its two readings of the clock
follow each other, and are one. -/
def foundProvider (config : ProviderConfig) (now : ℕ) (manifestId peer : String) : ProviderInfo :=
  ⟨peer, manifestId, now, now, config.defaultTtlSeconds, ∅⟩

/-- The first entry of the peer is seen again. -/
def seeAgain (now : ℕ) (peer : String) : List ProviderInfo → List ProviderInfo
  | [] => []
  | p :: ps => if p.peerId = peer then p.updateLastSeen now :: ps else p :: seeAgain now peer ps

/-- The entry that was seen longest ago, the first of these, and its index. -/
def oldest (providers : List ProviderInfo) : Option (ProviderInfo × ℕ) :=
  providers.zipIdx.argmin fun p => p.1.lastSeen

/-- A full list loses its oldest entry. -/
def makeRoom (config : ProviderConfig) (providers : List ProviderInfo) : List ProviderInfo :=
  if config.maxProvidersPerManifest ≤ providers.length then
    match (oldest providers).map Prod.snd with
    | some i => providers.eraseIdx i
    | none => providers
  else providers

/-- The list of a manifest, after `handle_provider_found` has had it. -/
def recordProvider (config : ProviderConfig) (now : ℕ) (info : ProviderInfo)
    (providers : List ProviderInfo) : List ProviderInfo :=
  -- Of a provider that is known, the new entry is dropped, and with it its time of announcement.
  if providers.any fun p => p.peerId = info.peerId then seeAgain now info.peerId providers
  else makeRoom config providers ++ [info]

/-- `get_providers_for_manifest`, expired ones included. -/
def RemoteProviders.of (remote : RemoteProviders) (manifestId : String) : List ProviderInfo :=
  (remote.lookup manifestId).getD []

/-- The first part of `handle_provider_found`, under the lock of the remote providers. -/
def recordFound (config : ProviderConfig) (remote : RemoteProviders) (now : ℕ)
    (info : ProviderInfo) : RemoteProviders :=
  remote.insert info.manifestId (recordProvider config now info (remote.of info.manifestId))

/-! ## Expiry -/

def validProviders (now : ℕ) (providers : List ProviderInfo) : List ProviderInfo :=
  providers.filter fun p => !p.isExpired now

/-- `cleanup_expired_providers`, and the cleanup in the background. -/
def cleanupExpiredProviders (remote : RemoteProviders) (now : ℕ) : RemoteProviders :=
  (remote.mapValues (validProviders now)).retain fun _ providers => providers ≠ []

/-- The answer of `discover_providers` from the cache, if it has one. -/
def cachedProviders (remote : RemoteProviders) (now : ℕ) (manifestId : String) :
    Option (List ProviderInfo) :=
  match remote.lookup manifestId with
  | some providers =>
    let valid := validProviders now providers
    if valid ≠ [] then some valid else none
  | none => none

/-! ## The shape of a list -/

/-- Different providers of one manifest, not more than the limit. -/
structure Shape (config : ProviderConfig) (manifestId : String) (providers : List ProviderInfo) :
    Prop where
  distinct : (providers.map ProviderInfo.peerId).Nodup
  own : ∀ p ∈ providers, p.manifestId = manifestId
  bounded : providers.length ≤ config.maxProvidersPerManifest

variable {config : ProviderConfig} {now : ℕ} {m : String} {providers : List ProviderInfo}

theorem Shape.nil (config : ProviderConfig) (m : String) : Shape config m [] where
  distinct := List.nodup_nil
  own := nofun
  bounded := Nat.zero_le _

theorem Shape.sublist (h : Shape config m providers) {providers' : List ProviderInfo}
    (hsub : providers'.Sublist providers) : Shape config m providers' where
  distinct := h.distinct.sublist (hsub.map _)
  own p hp := h.own p (hsub.subset hp)
  bounded := hsub.length_le.trans h.bounded

/-- What does not look at the time is as it was when a provider is seen again. -/
theorem map_seeAgain {β : Type} {f : ProviderInfo → β}
    (hf : ∀ p : ProviderInfo, f (p.updateLastSeen now) = f p) (peer : String)
    (providers : List ProviderInfo) :
    (seeAgain now peer providers).map f = providers.map f := by
  -- By the recursion of `seeAgain`: it goes down to the first entry of the peer.
  induction providers with
  | nil => rfl
  | cons p ps ih =>
    rw [seeAgain]
    split_ifs
    · rw [List.map_cons, List.map_cons, hf]
    · rw [List.map_cons, List.map_cons, ih]

@[simp] theorem length_seeAgain (now : ℕ) (peer : String) (providers : List ProviderInfo) :
    (seeAgain now peer providers).length = providers.length := by
  have hmap : ((seeAgain now peer providers).map ProviderInfo.peerId).length =
      (providers.map ProviderInfo.peerId).length :=
    congrArg List.length (map_seeAgain (fun _ => rfl) peer providers)
  rwa [List.length_map, List.length_map] at hmap

theorem Shape.seeAgain (h : Shape config m providers) (now : ℕ) (peer : String) :
    Shape config m (seeAgain now peer providers) where
  distinct := by
    rw [map_seeAgain fun _ => rfl]
    exact h.distinct
  own := by
    have hown : ∀ id ∈ (Beemesh.seeAgain now peer providers).map ProviderInfo.manifestId,
        id = m := by
      rw [map_seeAgain fun _ => rfl]
      simpa using h.own
    simpa using hown
  bounded := by
    rw [length_seeAgain]
    exact h.bounded

/-- The oldest entry is one of the list, and no entry was seen before it. -/
theorem oldest_spec {old : ProviderInfo} {i : ℕ} (h : oldest providers = some (old, i)) :
    providers[i]? = some old ∧ ∀ p ∈ providers, old.lastSeen ≤ p.lastSeen := by
  refine ⟨List.mem_zipIdx_iff_getElem?.mp (List.argmin_mem h), ?_⟩
  intro p hp
  obtain ⟨j, hj⟩ := List.mem_iff_getElem?.mp hp
  have hmem : (p, j) ∈ providers.zipIdx := List.mem_zipIdx_iff_getElem?.mpr hj
  exact List.le_of_mem_argmin (f := fun e : ProviderInfo × ℕ => e.1.lastSeen) hmem h

theorem oldest_eq_none_iff : oldest providers = none ↔ providers = [] := by
  rw [oldest, List.argmin_eq_none, List.zipIdx_eq_nil_iff]

/-- **What goes from a full list**: its oldest entry. A list that is not full loses nothing. -/
theorem makeRoom_spec (config : ProviderConfig) (providers : List ProviderInfo) :
    (makeRoom config providers = providers ∧
      (providers.length < config.maxProvidersPerManifest ∨ providers = [])) ∨
    ∃ old i, oldest providers = some (old, i) ∧
      config.maxProvidersPerManifest ≤ providers.length ∧
      makeRoom config providers = providers.eraseIdx i := by
  unfold makeRoom
  split_ifs with hfull
  · cases hold : oldest providers with
    | none => exact .inl ⟨rfl, .inr (oldest_eq_none_iff.mp hold)⟩
    | some old => exact .inr ⟨old.1, old.2, rfl, hfull, rfl⟩
  · exact .inl ⟨rfl, .inl (by omega)⟩

theorem makeRoom_sublist (config : ProviderConfig) (providers : List ProviderInfo) :
    (makeRoom config providers).Sublist providers := by
  rcases makeRoom_spec config providers with ⟨hroom, -⟩ | ⟨old, i, -, -, hroom⟩
  · rw [hroom]
  · rw [hroom]
    exact List.eraseIdx_sublist _ _

theorem length_makeRoom_lt (hmax : 1 ≤ config.maxProvidersPerManifest)
    (hbounded : providers.length ≤ config.maxProvidersPerManifest) :
    (makeRoom config providers).length < config.maxProvidersPerManifest := by
  rcases makeRoom_spec config providers with ⟨hroom, hless | rfl⟩ | ⟨old, i, hold, hfull, hroom⟩
  · rwa [hroom]
  · rwa [hroom]
  · have hi := (List.getElem?_eq_some_iff.mp (oldest_spec hold).1).1
    rw [hroom, List.length_eraseIdx_of_lt hi]
    omega

theorem any_peerId_iff {peer : String} :
    (providers.any fun p => p.peerId = peer) = true ↔
      peer ∈ providers.map ProviderInfo.peerId := by
  simp [List.any_eq_true, List.mem_map]

/-- **Recording a provider keeps the shape** of the list of its manifest. -/
theorem Shape.recordProvider (hmax : 1 ≤ config.maxProvidersPerManifest)
    (h : Shape config m providers) (now : ℕ) {info : ProviderInfo} (hinfo : info.manifestId = m) :
    Shape config m (recordProvider config now info providers) := by
  unfold Beemesh.recordProvider
  split_ifs with hknown
  · exact h.seeAgain now info.peerId
  · have hroom := h.sublist (makeRoom_sublist config providers)
    refine ⟨?_, ?_, ?_⟩
    · -- The new provider is none of the list.
      rw [List.map_append, List.nodup_append]
      refine ⟨hroom.distinct, List.nodup_singleton _, ?_⟩
      intro peer hpeer peer' hpeer' heq
      rw [List.map_singleton, List.mem_singleton] at hpeer'
      rw [heq, hpeer'] at hpeer
      exact hknown (any_peerId_iff.mpr
        (((makeRoom_sublist config providers).map ProviderInfo.peerId).subset hpeer))
    · intro p hp
      rcases List.mem_append.mp hp with hp | hp
      · exact hroom.own p hp
      · rw [List.mem_singleton.mp hp, hinfo]
    · rw [List.length_append, List.length_singleton]
      exact length_makeRoom_lt hmax h.bounded

/-! ## The lists afterwards -/

variable {remote : RemoteProviders} {info : ProviderInfo}

theorem of_of_lookup (h : remote.lookup m = some providers) : remote.of m = providers := by
  rw [RemoteProviders.of, h, Option.getD_some]

theorem of_insert (remote : RemoteProviders) (m' : String) (providers : List ProviderInfo)
    (m : String) : RemoteProviders.of (remote.insert m' providers) m =
      if m = m' then providers else remote.of m := by
  rw [RemoteProviders.of]
  split_ifs with hm
  · rw [hm, AList.lookup_insert, Option.getD_some]
  · rw [AList.lookup_insert_ne hm]
    rfl

theorem of_recordFound (config : ProviderConfig) (remote : RemoteProviders) (now : ℕ)
    (info : ProviderInfo) (m : String) : (recordFound config remote now info).of m =
      if m = info.manifestId then recordProvider config now info (remote.of m)
      else remote.of m := by
  rw [recordFound, of_insert]
  split_ifs with hm
  · rw [hm]
  · rfl

/-- The entries of a manifest that have not expired are left. -/
theorem of_cleanupExpiredProviders (remote : RemoteProviders) (now : ℕ) (m : String) :
    (cleanupExpiredProviders remote now).of m = validProviders now (remote.of m) := by
  rw [RemoteProviders.of, RemoteProviders.of, cleanupExpiredProviders, AList.lookup_retain,
    AList.lookup_mapValues]
  cases remote.lookup m with
  | none => rfl
  | some providers =>
    rw [Option.map_some, Option.getD_some]
    -- A manifest without an entry is left out, and has none.
    by_cases hvalid : validProviders now providers = []
    · rw [hvalid]
      rfl
    · rw [Option.filter_some_pos (by simpa using hvalid), Option.getD_some]

/-- An answer from the cache has the entries that have not expired, if there are any. -/
theorem cachedProviders_eq_some_iff {now : ℕ} {answer : List ProviderInfo} :
    cachedProviders remote now m = some answer ↔
      answer ≠ [] ∧ answer = validProviders now (remote.of m) := by
  unfold cachedProviders RemoteProviders.of
  cases remote.lookup m with
  | none =>
    refine iff_of_false nofun ?_
    rintro ⟨hne, rfl⟩
    exact hne rfl
  | some providers =>
    dsimp only [Option.getD_some]
    split_ifs with hvalid
    · rw [Option.some.injEq]
      constructor
      · rintro rfl
        exact ⟨hvalid, rfl⟩
      · rintro ⟨-, rfl⟩
        rfl
    · refine iff_of_false nofun ?_
      rintro ⟨hne, rfl⟩
      exact hvalid hne

end Beemesh
