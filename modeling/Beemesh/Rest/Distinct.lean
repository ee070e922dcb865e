import Beemesh.Rest.Candidates
import Mathlib.Data.Finset.Card
import Mathlib.Data.List.Nodup

/-!
# Which candidate lists are fair

`get_candidates` is to find a few peers to choose from. It drops repeated answers and stops at five,
but what it compares and counts are the answers as texts: a peer that answers with two keys is taken
twice, and answers without a key take the places of those that have one.

## Main definitions

* `Fair`: different peers with their keys, and as many as there are, up to five
* `firstAnswers`: the answers that the loop keeps
* `Served`: no peer has two keys among these, and no peer with a key is missed

## Main results

* `fair_iff_served`: when the candidates are fair
-/

namespace Beemesh

variable {ε : Type} {answers : List Answer}

/-- The peers that offer a key. -/
def offering (answers : List Answer) : Finset PeerId :=
  ((answers.filterMap Answer.offer).map Prod.fst).toFinset

/-- The candidates are different peers, each with a key of its own, and as many as have offered one,
up to the number that is enough. -/
structure Fair (answers : List Answer) (candidates : List (String × String)) : Prop where
  distinct : (candidates.map Prod.fst).Nodup
  keyed : ∀ c ∈ candidates, c.2 ≠ "" ∧ ∃ a ∈ answers, a.text = c.1 ++ ":" ++ c.2
  length_eq : candidates.length = min (offering answers).card enoughResponders

/-- The first few different answers. -/
def firstAnswers (answers : List Answer) : List Answer := answers.eraseDups.take enoughResponders

/-- Among the first different answers no peer has two keys; and either all of them have a key, and
are enough, or each peer with a key has one there. -/
structure Served (answers : List Answer) : Prop where
  oneKey : ∀ a ∈ firstAnswers answers, ∀ b ∈ firstAnswers answers, ∀ peer key key',
    a.offer = some (peer, key) → b.offer = some (peer, key') → key = key'
  noneMissed : (firstAnswers answers).length = enoughResponders ∧
      (∀ a ∈ firstAnswers answers, a.offer.isSome = true) ∨
    ∀ a ∈ answers, ∀ peer key, a.offer = some (peer, key) →
      ∃ b ∈ firstAnswers answers, ∃ key', b.offer = some (peer, key')

/-! ## The first answers -/

theorem nodup_eraseDups {α : Type} [DecidableEq α] (l : List α) : l.eraseDups.Nodup := by
  induction hlength : l.length using Nat.strongRecOn generalizing l with
  | ind n ih =>
    cases l with
    | nil => exact List.nodup_nil
    | cons a l =>
      have hle : (l.filter fun b => !b == a).length ≤ l.length := List.length_filter_le _ _
      rw [List.eraseDups_cons, List.nodup_cons]
      refine ⟨fun hmem => ?_, ih _ (by rw [← hlength, List.length_cons]; omega) _ rfl⟩
      rw [List.mem_eraseDups, List.mem_filter] at hmem
      simp at hmem

theorem mem_of_mem_firstAnswers {a : Answer} (h : a ∈ firstAnswers answers) : a ∈ answers :=
  List.mem_eraseDups.mp (List.mem_of_mem_take h)

theorem length_firstAnswers_le : (firstAnswers answers).length ≤ enoughResponders :=
  List.length_take_le _ _

theorem Answer.offer_eq_some_iff {a : Answer} {peer : PeerId} {key : String} :
    a.offer = some (peer, key) ↔ key ≠ "" ∧ a = .keyed peer key := by
  cases a with
  | keyed peer' key' =>
    by_cases hkey : key' = ""
    · simp only [Answer.offer, hkey, ne_eq, not_true_eq_false, if_false, reduceCtorEq, false_iff,
        not_and]
      exact fun hne heq => hne (Answer.keyed.inj heq).2.symm
    · simp only [Answer.offer, ne_eq, hkey, not_false_eq_true, if_true, Option.some.injEq,
        Prod.mk.injEq, Answer.keyed.injEq]
      exact ⟨fun h => ⟨h.2 ▸ hkey, h⟩, And.right⟩
  | bare peer' => simp [Answer.offer]

/-- What an answer offers tells which one it is. -/
theorem Answer.eq_of_offer {a b : Answer} {offer : PeerId × String} (ha : a.offer = some offer)
    (hb : b.offer = some offer) : a = b :=
  (Answer.offer_eq_some_iff.mp ha).2.trans (Answer.offer_eq_some_iff.mp hb).2.symm

theorem nodup_firstOffers : (firstOffers answers).Nodup :=
  ((nodup_eraseDups answers).sublist (List.take_sublist _ _)).filterMap fun _ _ _ ha hb =>
    Answer.eq_of_offer ha hb

theorem mem_firstOffers_iff {offer : PeerId × String} :
    offer ∈ firstOffers answers ↔ ∃ a ∈ firstAnswers answers, a.offer = some offer :=
  List.mem_filterMap

/-- The peers that are offered first are different when none has two keys. -/
theorem nodup_peers_iff : ((firstOffers answers).map Prod.fst).Nodup ↔
    ∀ a ∈ firstAnswers answers, ∀ b ∈ firstAnswers answers, ∀ peer key key',
      a.offer = some (peer, key) → b.offer = some (peer, key') → key = key' := by
  rw [List.nodup_map_iff_inj_on nodup_firstOffers]
  constructor
  · intro h a ha b hb peer key key' hoffer hoffer'
    have heq := h _ (mem_firstOffers_iff.mpr ⟨a, ha, hoffer⟩) _
      (mem_firstOffers_iff.mpr ⟨b, hb, hoffer'⟩) rfl
    exact (Prod.mk.inj heq).2
  · rintro h ⟨peer, key⟩ hx ⟨peer', key'⟩ hy rfl
    obtain ⟨a, ha, hoffer⟩ := mem_firstOffers_iff.mp hx
    obtain ⟨b, hb, hoffer'⟩ := mem_firstOffers_iff.mp hy
    rw [h a ha b hb peer key key' hoffer hoffer']

/-! ## How many there are -/

theorem mem_offering_iff {peer : PeerId} :
    peer ∈ offering answers ↔ ∃ a ∈ answers, ∃ key, a.offer = some (peer, key) := by
  rw [offering, List.mem_toFinset, List.mem_map]
  constructor
  · rintro ⟨⟨_, key⟩, hmem, rfl⟩
    obtain ⟨a, ha, hoffer⟩ := List.mem_filterMap.mp hmem
    exact ⟨a, ha, key, hoffer⟩
  · rintro ⟨a, ha, key, hoffer⟩
    exact ⟨(peer, key), List.mem_filterMap.mpr ⟨a, ha, hoffer⟩, rfl⟩

theorem offering_firstAnswers_subset :
    offering (firstAnswers answers) ⊆ offering answers := by
  intro peer hpeer
  obtain ⟨a, ha, key, hoffer⟩ := mem_offering_iff.mp hpeer
  exact mem_offering_iff.mpr ⟨a, mem_of_mem_firstAnswers ha, key, hoffer⟩

/-- Different peers are counted once each. -/
theorem card_offering_firstAnswers (h : ((firstOffers answers).map Prod.fst).Nodup) :
    (offering (firstAnswers answers)).card = (firstOffers answers).length := by
  have hpeers : ((firstOffers answers).map Prod.fst).length = (firstOffers answers).length :=
    List.length_map _
  rw [← hpeers]
  exact List.toFinset_card_of_nodup h

/-- As many are offered as there are places, or as there are peers with a key, when all the places
are taken by these, or none of these is missed. -/
theorem length_firstOffers_iff (h : ((firstOffers answers).map Prod.fst).Nodup) :
    (firstOffers answers).length = min (offering answers).card enoughResponders ↔
      (firstAnswers answers).length = enoughResponders ∧
        (∀ a ∈ firstAnswers answers, a.offer.isSome = true) ∨
      ∀ a ∈ answers, ∀ peer key, a.offer = some (peer, key) →
        ∃ b ∈ firstAnswers answers, ∃ key', b.offer = some (peer, key') := by
  have hcard := card_offering_firstAnswers h
  have hsubset : offering (firstAnswers answers) ⊆ offering answers :=
    offering_firstAnswers_subset
  have hfewer := Finset.card_le_card hsubset
  have hle : (firstOffers answers).length ≤ (firstAnswers answers).length :=
    List.length_filterMap_le _ _
  have hplaces : (firstAnswers answers).length ≤ enoughResponders := length_firstAnswers_le
  have hall : (firstOffers answers).length = (firstAnswers answers).length ↔
      ∀ a ∈ firstAnswers answers, a.offer.isSome = true := List.filterMap_length_eq_length
  constructor
  · intro hlength
    rcases Nat.lt_or_ge (offering answers).card enoughResponders with hfew | henough
    · -- Every peer with a key is among the first.
      right
      rw [Nat.min_eq_left hfew.le] at hlength
      have heq := Finset.eq_of_subset_of_card_le hsubset (by rw [hcard, hlength])
      intro a ha peer key hoffer
      have hpeer : peer ∈ offering answers := mem_offering_iff.mpr ⟨a, ha, key, hoffer⟩
      rw [← heq] at hpeer
      exact mem_offering_iff.mp hpeer
    · left
      rw [Nat.min_eq_right henough] at hlength
      exact ⟨by omega, hall.mp (by omega)⟩
  · rintro (⟨hfull, hsome⟩ | hnone)
    · have hlength := hall.mpr hsome
      rw [Nat.min_eq_right (by omega)]
      omega
    · have heq : offering (firstAnswers answers) = offering answers := by
        refine Finset.Subset.antisymm hsubset fun peer hpeer => ?_
        obtain ⟨a, ha, key, hoffer⟩ := mem_offering_iff.mp hpeer
        exact mem_offering_iff.mpr (hnone a ha peer key hoffer)
      rw [← heq, hcard, Nat.min_eq_left (by omega)]

/-! ## When they are fair -/

/-- Every candidate has a key that its peer has offered. -/
theorem keyed_of_firstOffers {c : String × String}
    (h : c ∈ (firstOffers answers).map fun (peer, key) => (peer.text, key)) :
    c.2 ≠ "" ∧ ∃ a ∈ answers, a.text = c.1 ++ ":" ++ c.2 := by
  obtain ⟨⟨peer, key⟩, hmem, rfl⟩ := List.mem_map.mp h
  obtain ⟨a, ha, hoffer⟩ := mem_firstOffers_iff.mp hmem
  obtain ⟨hkey, rfl⟩ := Answer.offer_eq_some_iff.mp hoffer
  exact ⟨hkey, _, mem_of_mem_firstAnswers ha, rfl⟩

/-- **When the candidates are fair**: when, among the first five different answers, no peer has two
keys, and answers without a key take no place that a peer with one is left without. -/
theorem fair_iff_served (logsInfo : Bool) (answers : List Answer) :
    (∃ candidates, (getCandidates logsInfo (answers.map Answer.text) : Outcome ε _) =
        .ok candidates ∧ Fair answers candidates) ↔ Served answers := by
  have hpeers : (((firstOffers answers).map fun (peer, key) => (peer.text, key)).map
      Prod.fst).Nodup ↔ ((firstOffers answers).map Prod.fst).Nodup := by
    have htexts : ((firstOffers answers).map fun (peer, key) => (peer.text, key)).map Prod.fst =
        ((firstOffers answers).map Prod.fst).map PeerId.text := by
      rw [List.map_map, List.map_map]
      rfl
    rw [htexts, List.nodup_map_iff fun _ _ => PeerId.ext_text]
  constructor
  · rintro ⟨candidates, hcandidates, hfair⟩
    obtain rfl := Outcome.ok.inj (hcandidates.symm.trans (getCandidates_answers logsInfo answers))
    have hdistinct := hpeers.mp hfair.distinct
    have hlength := hfair.length_eq
    rw [List.length_map] at hlength
    exact ⟨nodup_peers_iff.mp hdistinct, (length_firstOffers_iff hdistinct).mp hlength⟩
  · intro hserved
    have hdistinct := nodup_peers_iff.mpr hserved.oneKey
    refine ⟨_, getCandidates_answers logsInfo answers, hpeers.mpr hdistinct,
      fun c hc => keyed_of_firstOffers hc, ?_⟩
    rw [List.length_map]
    exact (length_firstOffers_iff hdistinct).mpr hserved.noneMissed

/-- A peer that answers twice, with different keys. -/
def twoKeys : List Answer :=
  [.keyed (peerNumber (.last 8)) "a", .keyed (peerNumber (.last 8)) "b"]

/-- A peer with two keys is there twice. -/
theorem candidates_repeat_peer :
    ¬ ∃ candidates, (getCandidates false (twoKeys.map Answer.text) : Outcome String _) =
      .ok candidates ∧ Fair twoKeys candidates := by
  rintro ⟨candidates, hcandidates, hfair⟩
  rw [getCandidates_answers] at hcandidates
  obtain rfl := Outcome.ok.inj hcandidates
  have hdistinct := hfair.distinct
  simp [twoKeys, firstOffers, List.eraseDups_cons, enoughResponders, Answer.offer] at hdistinct

end Beemesh
