import Beemesh.Lib.Firsts
import Beemesh.Lib.StableSort
import Beemesh.Provider.Remote
import Mathlib.Data.Finset.Card

/-!
# Filtering the providers of a query

`DiscoveryManager` makes a list of providers into the answer to a query: it drops the ones that are
expired, unless the query wants these, keeps one record of each peer, sorts the records by when they
were last seen, and cuts the list off. The record that is kept of a peer is the first one in the
list, which need not be the one that was seen last.

## Main definitions

* `DiscoveryQuery`, `DiscoveryQuery.new`
* `filterProviders`
* `PicksFreshest`: the answer has the providers that were seen last
* `firstSeenSince`: the peers whose first record was seen at a time or later
* `FirstsSuffice`: a record that is fresher than the first one of its peer would not be in the answer

## Main results

* `mem_filterProviders`: what is in an answer
* `picksFreshest_iff`: when the answer has the providers that were seen last
* `older_record_kept`: an answer with a record that is older than another one of its peer
-/

namespace Beemesh

/-- `DiscoveryQuery`. Its own timeout is not looked at where providers are discovered. -/
structure DiscoveryQuery where
  manifestId : String
  startedAt : ℕ
  minProviders : ℕ
  maxProviders : ℕ
  includeExpired : Bool

/-- `DiscoveryQuery::new`. -/
def DiscoveryQuery.new (now : ℕ) (manifestId : String) : DiscoveryQuery :=
  ⟨manifestId, now, 1, 10, false⟩

/-- The providers that a query admits. -/
def admissible (query : DiscoveryQuery) (now : ℕ) (providers : List ProviderInfo) :
    List ProviderInfo :=
  if !query.includeExpired then providers.filter fun p => !p.isExpired now else providers

/-- The providers, the last seen first. -/
def sortLastSeen (providers : List ProviderInfo) : List ProviderInfo :=
  providers.mergeSort fun a b => b.lastSeen ≤ a.lastSeen

/-- `filter_providers`. -/
def filterProviders (query : DiscoveryQuery) (now : ℕ) (providers : List ProviderInfo) :
    List ProviderInfo :=
  let providers := admissible query now providers
  let providers := sortLastSeen (.retainNew ProviderInfo.peerId [] providers)
  if query.maxProviders < providers.length then providers.take query.maxProviders else providers

/-- Of the providers that a query admits, the answer has those that were seen last, each peer with
the record of it that was seen last. -/
structure PicksFreshest (query : DiscoveryQuery) (admitted answer : List ProviderInfo) : Prop where
  bounded : answer.length ≤ query.maxProviders
  distinct : (answer.map ProviderInfo.peerId).Nodup
  sorted : answer.Pairwise fun p p' => p'.lastSeen ≤ p.lastSeen
  freshest : ∀ p ∈ answer, p ∈ admitted ∧
    ∀ p' ∈ admitted, p'.peerId = p.peerId → p'.lastSeen ≤ p.lastSeen
  leftOut : ∀ p ∈ admitted, p.peerId ∉ answer.map ProviderInfo.peerId →
    ∀ r ∈ answer, p.lastSeen ≤ r.lastSeen

/-- The first record of a peer. -/
def firstOf (providers : List ProviderInfo) (peer : String) : Option ProviderInfo :=
  providers.find? fun p => p.peerId = peer

/-- The peers whose first record was seen at the time or later. -/
def firstSeenSince (providers : List ProviderInfo) (time : ℕ) : Finset String :=
  (providers.map ProviderInfo.peerId).toFinset.filter fun peer =>
    ∃ first ∈ firstOf providers peer, time ≤ first.lastSeen

/-- Where a peer has a fresher record than its first one, as many peers as the query wants have
first records that are as fresh as it. -/
def FirstsSuffice (query : DiscoveryQuery) (admitted : List ProviderInfo) : Prop :=
  ∀ p ∈ admitted, ∀ first ∈ firstOf admitted p.peerId, first.lastSeen < p.lastSeen →
    query.maxProviders ≤ (firstSeenSince admitted p.lastSeen).card

variable {query : DiscoveryQuery} {now : ℕ} {providers : List ProviderInfo}

/-! ## The answer -/

/-- The first records of all peers that a query admits, the last seen first. -/
def rankedFirsts (admitted : List ProviderInfo) : List ProviderInfo :=
  sortLastSeen (.retainNew ProviderInfo.peerId [] admitted)

theorem filterProviders_eq_take (query : DiscoveryQuery) (now : ℕ) (providers : List ProviderInfo) :
    filterProviders query now providers =
      (rankedFirsts (admissible query now providers)).take query.maxProviders := by
  simp only [filterProviders, rankedFirsts]
  split_ifs with hlength
  · rfl
  · rw [List.take_of_length_le (not_lt.mp hlength)]

variable {admitted : List ProviderInfo}

theorem pairwise_rankedFirsts (admitted : List ProviderInfo) :
    (rankedFirsts admitted).Pairwise fun p p' => p'.lastSeen ≤ p.lastSeen := by
  have hsorted : (rankedFirsts admitted).Pairwise
      fun p p' => decide (p'.lastSeen ≤ p.lastSeen) = true := by
    refine List.pairwise_mergeSort ?_ ?_ (.retainNew ProviderInfo.peerId [] admitted)
    · intro a b c hab hbc
      rw [decide_eq_true_eq] at *
      exact le_trans hbc hab
    · intro a b
      simpa using Nat.le_total b.lastSeen a.lastSeen
  exact hsorted.imp of_decide_eq_true

theorem perm_rankedFirsts (admitted : List ProviderInfo) :
    (rankedFirsts admitted).Perm (.retainNew ProviderInfo.peerId [] admitted) :=
  List.mergeSort_perm _ _

theorem mem_rankedFirsts {p : ProviderInfo} :
    p ∈ rankedFirsts admitted ↔ firstOf admitted p.peerId = some p := by
  rw [(perm_rankedFirsts admitted).mem_iff, List.mem_retainNew,
    and_iff_right List.not_mem_nil, firstOf]

theorem nodup_rankedFirsts (admitted : List ProviderInfo) :
    ((rankedFirsts admitted).map ProviderInfo.peerId).Nodup :=
  ((perm_rankedFirsts admitted).map ProviderInfo.peerId).nodup_iff.mpr
    (List.nodup_map_retainNew [] admitted)

theorem mem_of_mem_rankedFirsts {p : ProviderInfo} (hp : p ∈ rankedFirsts admitted) :
    p ∈ admitted :=
  List.mem_of_find?_eq_some (mem_rankedFirsts.mp hp)

/-- What is in an answer is the first record of its peer that the query admits. -/
theorem mem_filterProviders {p : ProviderInfo} (hp : p ∈ filterProviders query now providers) :
    firstOf (admissible query now providers) p.peerId = some p := by
  rw [filterProviders_eq_take] at hp
  exact mem_rankedFirsts.mp (List.mem_of_mem_take hp)

theorem exists_firstOf {p : ProviderInfo} (hp : p ∈ admitted) :
    ∃ first, firstOf admitted p.peerId = some first :=
  Option.isSome_iff_exists.mp (List.find?_isSome.mpr ⟨p, hp, by simp⟩)

theorem peerId_of_firstOf {peer : String} {first : ProviderInfo}
    (hfirst : firstOf admitted peer = some first) : first.peerId = peer := by
  simpa using List.find?_some hfirst

/-- The first record of a peer is ranked. -/
theorem firstOf_mem_rankedFirsts {peer : String} {first : ProviderInfo}
    (hfirst : firstOf admitted peer = some first) : first ∈ rankedFirsts admitted := by
  rw [mem_rankedFirsts, peerId_of_firstOf hfirst, hfirst]

/-- The peers whose first record was seen since are counted by the ranking. -/
theorem card_firstSeenSince (admitted : List ProviderInfo) (time : ℕ) :
    (firstSeenSince admitted time).card =
      (rankedFirsts admitted).countP fun p => time ≤ p.lastSeen := by
  have hpeers : firstSeenSince admitted time =
      (((rankedFirsts admitted).filter fun p => time ≤ p.lastSeen).map
        ProviderInfo.peerId).toFinset := by
    ext peer
    simp only [firstSeenSince, Finset.mem_filter, List.mem_toFinset, List.mem_map,
      List.mem_filter, decide_eq_true_eq]
    constructor
    · rintro ⟨-, first, hfirst, htime⟩
      exact ⟨first, ⟨firstOf_mem_rankedFirsts hfirst, htime⟩, peerId_of_firstOf hfirst⟩
    · rintro ⟨first, ⟨hmem, htime⟩, rfl⟩
      exact ⟨⟨first, mem_of_mem_rankedFirsts hmem, rfl⟩, first, mem_rankedFirsts.mp hmem, htime⟩
  rw [hpeers, List.toFinset_card_of_nodup, List.length_map, List.countP_eq_length_filter]
  exact (nodup_rankedFirsts admitted).sublist (List.filter_sublist.map _)

/-- The records in the answer were all seen at a time or later, if so many peers were. -/
theorem forall_mem_take_rankedFirsts {n time : ℕ} :
    (∀ p ∈ (rankedFirsts admitted).take n, time ≤ p.lastSeen) ↔
      min n (rankedFirsts admitted).length ≤ (firstSeenSince admitted time).card := by
  rw [card_firstSeenSince]
  exact (pairwise_rankedFirsts admitted).forall_mem_take_iff

/-! ## The freshest providers -/

/-- The answer has a peer only with its first record. -/
theorem firstOf_mem_take {n : ℕ} {peer : String} {first : ProviderInfo}
    (hfirst : firstOf admitted peer = some first)
    (hpeer : peer ∈ ((rankedFirsts admitted).take n).map ProviderInfo.peerId) :
    first ∈ (rankedFirsts admitted).take n := by
  obtain ⟨r, hr, rfl⟩ := List.mem_map.mp hpeer
  have hfirst' := mem_rankedFirsts.mp (List.mem_of_mem_take hr)
  rw [hfirst, Option.some.injEq] at hfirst'
  exact hfirst' ▸ hr

theorem PicksFreshest.firstsSuffice
    (h : PicksFreshest query admitted ((rankedFirsts admitted).take query.maxProviders)) :
    FirstsSuffice query admitted := by
  intro p hp first hfirst hlt
  have hnot : first ∉ (rankedFirsts admitted).take query.maxProviders := by
    intro hmem
    have hle := (h.freshest first hmem).2 p hp (peerId_of_firstOf hfirst).symm
    omega
  -- So the peer is not in the answer, which would have its first record.
  have hcount := forall_mem_take_rankedFirsts.mp
    (h.leftOut p hp fun hpeer => hnot (firstOf_mem_take hfirst hpeer))
  rcases le_total query.maxProviders (rankedFirsts admitted).length with hle | hle
  · rwa [min_eq_left hle] at hcount
  · rw [List.take_of_length_le hle] at hnot
    exact absurd (firstOf_mem_rankedFirsts hfirst) hnot

/-- What is in the answer is as fresh as a record that its peer's first one hides. -/
theorem FirstsSuffice.le_of_mem_take (h : FirstsSuffice query admitted) {p r first : ProviderInfo}
    (hp : p ∈ admitted) (hfirst : firstOf admitted p.peerId = some first)
    (hlt : first.lastSeen < p.lastSeen)
    (hr : r ∈ (rankedFirsts admitted).take query.maxProviders) : p.lastSeen ≤ r.lastSeen :=
  forall_mem_take_rankedFirsts.mpr ((min_le_left _ _).trans (h p hp first hfirst hlt)) r hr

theorem FirstsSuffice.picksFreshest (h : FirstsSuffice query admitted) :
    PicksFreshest query admitted ((rankedFirsts admitted).take query.maxProviders) := by
  refine ⟨List.length_take_le _ _, ?_, ?_, ?_, ?_⟩
  · exact (nodup_rankedFirsts admitted).sublist ((List.take_sublist _ _).map _)
  · exact (pairwise_rankedFirsts admitted).sublist (List.take_sublist _ _)
  · intro r hr
    have hmem := List.mem_of_mem_take hr
    refine ⟨mem_of_mem_rankedFirsts hmem, ?_⟩
    intro p hp hpeer
    by_contra hlt
    have hfirst := mem_rankedFirsts.mp hmem
    rw [← hpeer] at hfirst
    exact hlt (h.le_of_mem_take hp hfirst (not_le.mp hlt) hr)
  · intro p hp hnot r hr
    obtain ⟨first, hfirst⟩ := exists_firstOf hp
    rcases le_or_gt p.lastSeen first.lastSeen with hle | hlt
    · -- The first record of the peer is ranked, and is not in front.
      have hout : first ∉ (rankedFirsts admitted).take query.maxProviders := by
        intro hmem
        exact hnot (peerId_of_firstOf hfirst ▸ List.mem_map_of_mem hmem)
      exact hle.trans ((pairwise_rankedFirsts admitted).rel_of_mem_take hr
        (firstOf_mem_rankedFirsts hfirst) hout)
    · exact h.le_of_mem_take hp hfirst hlt hr

/-- **When the answer has the providers that were seen last**: where a peer has a fresher record
than its first one, there are enough others. -/
theorem picksFreshest_iff (query : DiscoveryQuery) (now : ℕ) (providers : List ProviderInfo) :
    PicksFreshest query (admissible query now providers) (filterProviders query now providers) ↔
      FirstsSuffice query (admissible query now providers) := by
  rw [filterProviders_eq_take]
  exact ⟨PicksFreshest.firstsSuffice, FirstsSuffice.picksFreshest⟩

/-- A record of the provider "a", which was seen at the time. -/
def seenAt (time : ℕ) : ProviderInfo := ⟨"a", "web", 0, time, 3600, ∅⟩

/-- **An older record is kept**: of two records of a peer the first one, which was seen before. -/
theorem older_record_kept :
    ¬ ∀ (query : DiscoveryQuery) (now : ℕ) (providers : List ProviderInfo),
      PicksFreshest query (admissible query now providers)
        (filterProviders query now providers) := by
  intro h
  have hfresh := (h (DiscoveryQuery.new 2 "web") 2 [seenAt 1, seenAt 2]).freshest
  have hadmitted : admissible (DiscoveryQuery.new 2 "web") 2 [seenAt 1, seenAt 2] =
      [seenAt 1, seenAt 2] := rfl
  have hfirsts : List.retainNew ProviderInfo.peerId [] [seenAt 1, seenAt 2] = [seenAt 1] := rfl
  have hkept : filterProviders (DiscoveryQuery.new 2 "web") 2 [seenAt 1, seenAt 2] =
      [seenAt 1] := by
    rw [filterProviders, hadmitted, hfirsts, sortLastSeen, List.mergeSort_singleton]
    rfl
  rw [hkept, hadmitted] at hfresh
  have hle := (hfresh (seenAt 1) List.mem_cons_self).2 (seenAt 2)
    (List.mem_cons_of_mem _ List.mem_cons_self) rfl
  exact absurd hle (by decide)

end Beemesh
