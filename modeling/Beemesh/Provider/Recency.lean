import Beemesh.Lib.Recency
import Beemesh.Provider.Discovery

/-!
# The cache of providers, after a history of sightings

Calls of `handle_provider_found`, one after the other, with nothing in between and on a clock that
goes on. The list of a manifest is in the order in which its providers were first found, with the
time of the last sighting in each entry; the entry with the earliest time goes where the list is
full. Up to its order, that is a front of what the history leaves.

## Main definitions

* `Sighting`, `Discovery.sighted`: a call of `handle_provider_found` at a time
* `sightingsOf`: the history of one manifest
* `ProviderInfo.entry`: what the history says of an entry
* `seenPeers`, `lastSighting`: who was seen last for a manifest, and when a peer was

## Main results

* `entry_seeAgain_perm`, `entry_makeRoom_perm`, `entry_recordProvider_perm`: one provider more
* `entry_sighted_perm`: the list of a manifest, after a history
* `provider_cache_lru`: the cache has the providers that were seen last, and when
-/

namespace Beemesh

/-- A call of `handle_provider_found`, and the time on the clock. -/
structure Sighting where
  time : ℕ
  manifestId : String
  peer : String

def Discovery.sighted (config : ProviderConfig) (s : Discovery) (x : Sighting) : Discovery :=
  { s with now := x.time }.handleProviderFound config x.manifestId x.peer

/-- Who was seen for a manifest, and when. -/
def sightingsOf (manifestId : String) (sightings : List Sighting) : List (String × ℕ) :=
  (sightings.filter fun x => x.manifestId = manifestId).map fun x => (x.peer, x.time)

/-- What the history says of an entry. -/
def ProviderInfo.entry (p : ProviderInfo) : String × ℕ := (p.peerId, p.lastSeen)

/-- Who was seen for a manifest last, the latest first, each once. -/
def seenPeers (manifestId : String) (sightings : List Sighting) : List String :=
  ((sightings.filter fun x => x.manifestId = manifestId).map Sighting.peer).reverse.eraseDups

/-- The time of the last sighting of a peer for a manifest. -/
def lastSighting (manifestId peer : String) (sightings : List Sighting) : Option ℕ :=
  (sightings.filter fun x => x.manifestId = manifestId ∧ x.peer = peer).getLast?.map Sighting.time

/-! ## One provider more -/

theorem map_fst_entry (providers : List ProviderInfo) :
    (providers.map ProviderInfo.entry).map Prod.fst = providers.map ProviderInfo.peerId := by
  rw [List.map_map]
  rfl

/-- **A provider of the list is found**: its entry has the time, and the others are as they were. -/
theorem entry_seeAgain_perm {now : ℕ} {peer : String} {providers : List ProviderInfo}
    (hdistinct : (providers.map ProviderInfo.peerId).Nodup)
    (hpeer : peer ∈ providers.map ProviderInfo.peerId) :
    ((seeAgain now peer providers).map ProviderInfo.entry).Perm
      ((peer, now) :: (providers.map ProviderInfo.entry).filter fun e => e.1 ≠ peer) := by
  induction providers with
  | nil => exact nomatch hpeer
  | cons p ps ih =>
    obtain ⟨hnot, hdistinct⟩ := List.nodup_cons.mp hdistinct
    rw [seeAgain, List.map_cons]
    split_ifs with hp
    · -- No other entry is one of the peer.
      subst hp
      have hothers : (ps.map ProviderInfo.entry).filter (fun e => e.1 ≠ p.peerId) =
          ps.map ProviderInfo.entry := by
        refine List.filter_eq_self.mpr fun e he => decide_eq_true ?_
        rintro heq
        rw [← heq, ← map_fst_entry] at hnot
        exact hnot (List.mem_map_of_mem he)
      rw [List.filter_cons_of_neg (by simp [ProviderInfo.entry]), hothers]
      exact List.Perm.refl _
    · -- This entry stays in front of the one that moves.
      have hrest := ih hdistinct ((List.mem_cons.mp hpeer).resolve_left fun h => hp h.symm)
      rw [List.filter_cons_of_pos (by simp [ProviderInfo.entry, hp]), List.map_cons]
      exact (hrest.cons _).trans (List.Perm.swap ..)

/-- **What making room leaves** of a front of what was seen, the latest first: the front, short of
one. -/
theorem entry_makeRoom_perm {config : ProviderConfig} {c : ℕ}
    (hc : config.maxProvidersPerManifest = c + 1) {l : List (String × ℕ)}
    (hl : l.Pairwise fun a b => b.2 < a.2) {providers : List ProviderInfo}
    (h : (providers.map ProviderInfo.entry).Perm (l.take (c + 1))) :
    ((makeRoom config providers).map ProviderInfo.entry).Perm (l.take c) := by
  have hlength := h.length_eq
  rw [List.length_map, List.length_take] at hlength
  rcases makeRoom_spec config providers with ⟨hroom, hless⟩ | ⟨old, i, hold, hfull, hroom⟩
  · -- Nothing goes, since the front is all there is.
    have hall : l.length ≤ c := by
      rcases hless with hless | rfl
      · omega
      · rw [List.length_nil] at hlength
        omega
    rw [hroom, List.take_of_length_le hall]
    rwa [List.take_of_length_le (by omega)] at h
  · obtain ⟨hi, holdest⟩ := oldest_spec hold
    obtain ⟨hbound, rfl⟩ := List.getElem?_eq_some_iff.mp hi
    have hcut : (l.take (c + 1)).dropLast = l.take c := by
      rw [List.dropLast_eq_take, List.take_take, List.length_take]
      congr 1
      omega
    have hsplit : (providers[i].entry :: (providers.eraseIdx i).map ProviderInfo.entry).Perm
        (l.take (c + 1)) :=
      ((List.getElem_cons_eraseIdx_perm hbound).map ProviderInfo.entry).trans h
    rw [hroom, ← hcut]
    refine Recency.perm_dropLast_of_oldest (hl.sublist (List.take_sublist _ _)) hsplit ?_
    intro e he
    obtain ⟨p, hp, rfl⟩ := List.mem_map.mp he
    exact holdest p (List.mem_of_mem_eraseIdx hp)

/-- **Recording a provider** takes a front of what a history leaves to the front of what it leaves
with the provider. -/
theorem entry_recordProvider_perm {config : ProviderConfig}
    (hmax : 1 ≤ config.maxProvidersPerManifest) {history : List (String × ℕ)} {now : ℕ}
    (hclock : history.Pairwise fun a b => a.2 < b.2) {info : ProviderInfo}
    (hinfo : info.lastSeen = now) {providers : List ProviderInfo}
    (h : (providers.map ProviderInfo.entry).Perm
      ((Recency.recents history).take config.maxProvidersPerManifest)) :
    ((recordProvider config now info providers).map ProviderInfo.entry).Perm
      ((Recency.recents (history ++ [(info.peerId, now)])).take
        config.maxProvidersPerManifest) := by
  have hpeers : (providers.map ProviderInfo.peerId).Perm
      (((Recency.recents history).take config.maxProvidersPerManifest).map Prod.fst) := by
    rw [← map_fst_entry]
    exact h.map Prod.fst
  have hdistinct : (providers.map ProviderInfo.peerId).Nodup :=
    hpeers.nodup_iff.mpr
      ((Recency.nodup_recents history).sublist ((List.take_sublist _ _).map _))
  rw [Recency.recents_concat]
  unfold recordProvider
  split_ifs with hknown
  · -- The provider is in the front, and comes to its beginning.
    have hpeer := any_peerId_iff.mp hknown
    rw [Recency.take_touch_of_mem (Recency.nodup_recents history) (hpeers.mem_iff.mp hpeer)]
    exact (entry_seeAgain_perm hdistinct hpeer).trans ((h.filter _).cons _)
  · -- It is new, and the last one of the front goes for it.
    have hpeer : info.peerId ∉ providers.map ProviderInfo.peerId :=
      fun hmem => hknown (any_peerId_iff.mpr hmem)
    have hentry : info.entry = (info.peerId, now) := Prod.ext rfl hinfo
    obtain ⟨c, hc⟩ := Nat.exists_eq_add_of_le' hmax
    have htouch : (Recency.touch (Recency.recents history) (info.peerId, now)).take (c + 1) =
        (info.peerId, now) :: (Recency.recents history).take c := by
      refine Recency.take_touch_of_notMem ?_
      rw [← hc]
      exact fun hmem => hpeer (hpeers.mem_iff.mpr hmem)
    rw [hc] at h
    have hroom := entry_makeRoom_perm hc (Recency.pairwise_recents hclock) h
    rw [hc, htouch, List.map_append, List.map_singleton, hentry]
    exact (List.perm_append_singleton _ _).trans (hroom.cons _)

/-! ## A history -/

section History

variable {config : ProviderConfig} {m : String}

theorem sightingsOf_concat (m : String) (sightings : List Sighting) (x : Sighting) :
    sightingsOf m (sightings ++ [x]) =
      if x.manifestId = m then sightingsOf m sightings ++ [(x.peer, x.time)]
      else sightingsOf m sightings := by
  rw [sightingsOf, List.filter_append, List.map_append]
  split_ifs with hm
  · simp [sightingsOf, hm]
  · simp [sightingsOf, hm]

theorem of_sighted (config : ProviderConfig) (s : Discovery) (x : Sighting) (m : String) :
    (s.sighted config x).remote.of m =
      if m = x.manifestId then
        recordProvider config x.time (foundProvider config x.time m x.peer) (s.remote.of m)
      else s.remote.of m := by
  have hremote : (s.sighted config x).remote = recordFound config s.remote x.time
      (foundProvider config x.time x.manifestId x.peer) := by
    simp [Discovery.sighted, Discovery.handleProviderFound]
  rw [hremote, of_recordFound]
  change (if m = x.manifestId then _ else _) = _
  split_ifs with hm
  · rw [hm]
  · rfl

/-- **The list of a manifest** after a history, on a clock that goes on: a front of what the history
leaves. -/
theorem entry_sighted_perm (hmax : 1 ≤ config.maxProvidersPerManifest) (now : ℕ) (m : String)
    {sightings : List Sighting} (hclock : sightings.Pairwise fun a b => a.time < b.time) :
    (((sightings.foldl (Discovery.sighted config) (Discovery.start now)).remote.of m).map
        ProviderInfo.entry).Perm
      ((Recency.recents (sightingsOf m sightings)).take config.maxProvidersPerManifest) := by
  -- The last sighting is what the cache has in front.
  induction sightings using List.reverseRecOn with
  | nil =>
    rw [List.foldl_nil, sightingsOf, List.filter_nil, List.map_nil, Recency.recents, List.foldl_nil,
      List.take_nil]
    exact List.Perm.refl _
  | append_singleton sightings x ih =>
    have hbefore := (List.pairwise_append.mp hclock).1
    rw [List.foldl_append, List.foldl_cons, List.foldl_nil, of_sighted, sightingsOf_concat]
    rcases eq_or_ne m x.manifestId with rfl | hm
    · rw [if_pos rfl, if_pos rfl]
      refine entry_recordProvider_perm hmax ?_ rfl (ih hbefore)
      exact List.pairwise_map.mpr (hbefore.filter _)
    · rw [if_neg hm, if_neg hm.symm]
      exact ih hbefore

theorem map_fst_recents_sightingsOf (m : String) (sightings : List Sighting) :
    (Recency.recents (sightingsOf m sightings)).map Prod.fst = seenPeers m sightings := by
  rw [Recency.map_fst_recents, sightingsOf, List.map_map]
  rfl

theorem lastTime_sightingsOf (m peer : String) (sightings : List Sighting) :
    Recency.lastTime (sightingsOf m sightings) peer = lastSighting m peer sightings := by
  rw [Recency.lastTime, sightingsOf, List.filter_map, List.filter_filter, List.getLast?_map,
    Option.map_map, lastSighting]
  refine congrArg (fun l => (l.getLast?).map Sighting.time) (List.filter_congr fun x _ => ?_)
  exact (Bool.and_comm _ _).trans (Bool.decide_and _ _).symm

end History

/-- **The cache is of the least recently used kind**: after any sequence of calls of
`handle_provider_found` on a clock that goes on, the list of a manifest has the providers of the
manifest that were seen last, as many as the limit allows, each with the time it was seen last. -/
theorem provider_cache_lru {config : ProviderConfig} (hmax : 1 ≤ config.maxProvidersPerManifest)
    (now : ℕ) {sightings : List Sighting}
    (hclock : sightings.Pairwise fun a b => a.time < b.time) (m : String) :
    let s := sightings.foldl (Discovery.sighted config) (Discovery.start now)
    ((s.remote.of m).map ProviderInfo.peerId).Perm
        ((seenPeers m sightings).take config.maxProvidersPerManifest) ∧
      ∀ p ∈ s.remote.of m, lastSighting m p.peerId sightings = some p.lastSeen := by
  intro s
  have hperm := entry_sighted_perm hmax now m hclock
  refine ⟨?_, ?_⟩
  · rw [← map_fst_entry, ← map_fst_recents_sightingsOf, ← List.map_take]
    exact hperm.map Prod.fst
  · intro p hp
    have hmem := hperm.mem_iff.mp (List.mem_map_of_mem hp)
    rw [← lastTime_sightingsOf]
    exact Recency.lastTime_of_mem_recents (List.mem_of_mem_take hmem)

/-- Of three providers, with room for two: the first one is found again before the third. -/
theorem provider_cache_lru_three :
    let s := [⟨1, "web", "a"⟩, ⟨2, "web", "b"⟩, ⟨3, "web", "a"⟩, ⟨4, "web", "c"⟩].foldl
      (Discovery.sighted ⟨3600, 2⟩) (Discovery.start 0)
    ((s.remote.of "web").map ProviderInfo.peerId).Perm ["c", "a"] ∧
      ∀ p ∈ s.remote.of "web", lastSighting "web" p.peerId
        [⟨1, "web", "a"⟩, ⟨2, "web", "b"⟩, ⟨3, "web", "a"⟩, ⟨4, "web", "c"⟩] = some p.lastSeen :=
  provider_cache_lru (by decide) 0 (by decide) "web"

end Beemesh
