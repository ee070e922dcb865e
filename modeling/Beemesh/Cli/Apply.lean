import Beemesh.Lib.Table
import Beemesh.Rest.Candidates
import Beemesh.Scheduler.Plan

/-!
# The nodes of an apply

`apply_file` asks a machine for candidates, reads a peer and a key out of each and lets a
round-robin plan select as many nodes as the manifest has replicas. Machine and client each have
limits of their own: the machine stops at a number of answers, the client needs one candidate for
each replica.

## Main definitions

* `selectNodes`: the nodes that `apply_file` selects of the candidates
* `Schedulable`: the answers to a capacity query let an apply select its nodes

## Main results

* `schedulable_iff`: the answers that let an apply select its nodes
-/

namespace Beemesh

/-! ## The client -/

/-- A candidate as the client prints it. -/
def candidateText (candidate : String × String) : String := candidate.1 ++ ":" ++ candidate.2

/-- The peer and the key of a candidate. -/
def parsePeer (peer : String) : Outcome AnyhowError (String × String) :=
  match splitColon peer with
  | some parts => .ok parts
  | none => .err [s!"Invalid candidate format: expected 'peer_id:pubkey_b64', got '{peer}'"]

/-- The candidate of the scheduler for a peer. There is no load to go by. -/
def nodeCandidate (peerId : String) : NodeCandidate ℚ := ⟨peerId, 0, true⟩

/-- The keys by peer: of several for one peer, the last. -/
def peerInfoMap (peers : List (String × String)) : Table String String :=
  peers.foldl (fun m peer => m.insert peer.1 peer.2) ∅

/-- The comparison of loads. -/
def compareLoad (a b : ℚ) : Option Ordering :=
  some (if a < b then .lt else if a = b then .eq else .gt)

/-- The round-robin plan for the candidates. -/
def roundRobinPlan (seed : U64) (drain : List ℕ → List ℕ) (candidates : List (NodeCandidate ℚ))
    (replicas : ℕ) : Outcome AnyhowError SchedulingPlan :=
  match ((Scheduler.new ⟨none, .roundRobin⟩).scheduleWorkload ⟨seed, drain, compareLoad⟩ candidates
      replicas).1 with
  | .ok plan => .ok plan
  | .error e => .err [e.display]

/-- The node of a selected candidate, with its key. -/
def selectedNode (candidates : List (NodeCandidate ℚ)) (info : Table String String) (idx : ℕ) :
    Outcome AnyhowError (String × String) :=
  Outcome.index candidates idx >>= fun candidate =>
    match info.lookup candidate.nodeId with
    | some pubkey => .ok (candidate.nodeId, pubkey)
    | none => .err ["Missing pubkey for node: " ++ candidate.nodeId]

/-- The nodes that `apply_file` selects of the candidates it was given. -/
def selectNodes (seed : U64) (drain : List ℕ → List ℕ) (peers : List String) (replicas : ℕ) :
    Outcome AnyhowError (List (String × String)) := do
  let count := peers.length
  Outcome.require (peers ≠ []) ["No candidate nodes available for scheduling"]
  Outcome.require (replicas ≤ count)
    [s!"Not enough candidate nodes available: need {replicas}, got {count}"]
  let parsed ← peers.mapM parsePeer
  let candidates := parsed.map fun peer => nodeCandidate peer.1
  let plan ← roundRobinPlan seed drain candidates replicas
  plan.selectedCandidates.mapM (selectedNode candidates (peerInfoMap parsed))

/-! ## Selected nodes -/

/-- Every peer has a key. -/
theorem peerInfoMap_lookup {peers : List (String × String)} {id : String}
    (hid : id ∈ peers.map Prod.fst) : ∃ key, (peerInfoMap peers).lookup id = some key := by
  -- Over the rest of the list, what is there stays there.
  have hfold (rest : List (String × String)) (m : Table String String)
      (h : (∃ key, m.lookup id = some key) ∨ id ∈ rest.map Prod.fst) :
      ∃ key, (rest.foldl (fun m peer => m.insert peer.1 peer.2) m).lookup id = some key := by
    induction rest generalizing m with
    | nil => exact h.resolve_right List.not_mem_nil
    | cons peer rest ih =>
      refine ih _ ?_
      rcases eq_or_ne id peer.1 with rfl | hne
      · exact .inl ⟨peer.2, AList.lookup_insert _⟩
      · refine h.imp ?_ ?_
        · rintro ⟨key, hkey⟩
          exact ⟨key, (AList.lookup_insert_ne hne).trans hkey⟩
        · intro hmem
          exact (List.mem_cons.mp hmem).resolve_left hne
  exact hfold peers ∅ (.inr hid)

/-- The elements in front, one by one. -/
theorem map_range_getD {α : Type} (l : List α) (d : α) {n : ℕ} (hn : n ≤ l.length) :
    (List.range n).map (fun i => l.getD i d) = l.take n := by
  refine List.ext_getElem? fun i => ?_
  rw [List.getElem?_map, List.getElem?_take]
  split_ifs with hi
  · rw [List.getElem?_range hi, Option.map_some, List.getD_eq_getElem?_getD,
      List.getElem?_eq_getElem (by omega), Option.getD_some]
  · rw [List.getElem?_eq_none (by simpa using hi), Option.map_none]

/-- What the client is told of the offers. -/
def offerText (offer : PeerId × String) : String := candidateText (offer.1.text, offer.2)

theorem parsePeer_offerText (offer : PeerId × String) :
    parsePeer (offerText offer) = .ok (offer.1.text, offer.2) := by
  rw [parsePeer, offerText, candidateText, splitColon_keyed]

/-- The node of a candidate is its peer. -/
theorem selectedNode_eq (peers : List (String × String)) {i : ℕ} (hi : i < peers.length) :
    ∃ node, selectedNode (peers.map fun peer => nodeCandidate peer.1) (peerInfoMap peers) i =
      .ok node ∧ node.1 = (peers.map Prod.fst).getD i "" := by
  have hget : peers[i]? = some peers[i] := List.getElem?_eq_getElem hi
  obtain ⟨key, hkey⟩ := peerInfoMap_lookup (List.mem_map_of_mem (List.getElem_mem hi))
  have hindex : (Outcome.index (peers.map fun peer => nodeCandidate peer.1) i :
      Outcome AnyhowError _) = .ok (nodeCandidate peers[i].1) := by
    rw [Outcome.index_eq_ok_iff, List.getElem?_map, hget, Option.map_some]
  refine ⟨(peers[i].1, key), ?_, ?_⟩
  · rw [selectedNode, hindex, Outcome.ok_bind]
    simp only [nodeCandidate, hkey]
  · rw [List.getD_eq_getElem?_getD, List.getElem?_map, hget, Option.map_some, Option.getD_some]

section Select

variable (seed : U64) (drain : List ℕ → List ℕ)

/-- The plan for peers of which there are enough. -/
theorem roundRobinPlan_eq {peers : List (String × String)} {replicas : ℕ} (hne : peers ≠ [])
    (hreplicas : replicas ≤ peers.length) (hlength : peers.length ≤ 2 ^ 64) :
    roundRobinPlan seed drain (peers.map fun peer => nodeCandidate peer.1) replicas =
      .ok ⟨List.range replicas, peers.length, .roundRobin⟩ := by
  have havailable : ∀ c ∈ peers.map (fun peer => nodeCandidate peer.1), c.available = true := by
    intro c hc
    obtain ⟨peer, -, rfl⟩ := List.mem_map.mp hc
    rfl
  have hschedule := scheduleWorkload_roundRobin_new ⟨seed, drain, compareLoad⟩ havailable
    (by simpa using hne) (by simpa using hreplicas) (by simpa using hlength)
  rw [roundRobinPlan, hschedule, List.length_map]

/-- **The nodes that are selected**, where there are candidates enough: the peers in front. -/
theorem selectNodes_offers {offers : List (PeerId × String)} {replicas : ℕ}
    (hne : offers ≠ []) (hreplicas : replicas ≤ offers.length) (hlength : offers.length ≤ 2 ^ 64) :
    ∃ nodes, selectNodes seed drain (offers.map offerText) replicas = .ok nodes ∧
      nodes.map Prod.fst = (offers.take replicas).map fun offer => offer.1.text := by
  let peers : List (String × String) := offers.map fun offer => (offer.1.text, offer.2)
  have hpeers : peers.length = offers.length := List.length_map _
  have hparsed : (offers.map offerText).mapM parsePeer = .ok peers := by
    rw [List.mapM_map]
    exact Outcome.mapM_eq_ok fun offer _ => parsePeer_offerText offer
  have hplan : roundRobinPlan seed drain (peers.map fun peer => nodeCandidate peer.1) replicas =
      .ok ⟨List.range replicas, peers.length, .roundRobin⟩ :=
    roundRobinPlan_eq seed drain (by simpa [peers] using hne) (by omega) (by omega)
  have hselected : ∀ i ∈ List.range replicas, ∃ node,
      selectedNode (peers.map fun peer => nodeCandidate peer.1) (peerInfoMap peers) i = .ok node ∧
        node.1 = (peers.map Prod.fst).getD i "" :=
    fun i hi => selectedNode_eq peers ((List.mem_range.mp hi).trans_le (hreplicas.trans hpeers.ge))
  obtain ⟨nodes, hnodes, hids⟩ := Outcome.mapM_exists_ok hselected
  refine ⟨nodes, ?_, ?_⟩
  · rw [selectNodes]
    simp only [Outcome.require, List.length_map]
    rw [if_pos (by simpa using hne), if_pos hreplicas, hparsed]
    simp only [Outcome.ok_bind, hplan]
    exact hnodes
  · rw [hids, map_range_getD _ "" (by simpa [peers] using hreplicas), List.map_map, List.map_take]
    rfl

/-- Without enough candidates no nodes are selected. -/
theorem selectNodes_of_few {peers : List String} {replicas : ℕ} (h : peers.length < replicas)
    (nodes : List (String × String)) : selectNodes seed drain peers replicas ≠ .ok nodes := by
  intro hok
  rw [selectNodes] at hok
  obtain ⟨-, -, hok⟩ := Outcome.bind_eq_ok_iff.mp hok
  obtain ⟨_, hrequire, -⟩ := Outcome.bind_eq_ok_iff.mp hok
  have hle := Outcome.require_eq_ok_iff.mp hrequire
  omega

end Select

/-! ## Answers that are enough -/

/-- The answers to a capacity query let an apply with so many replicas pass its checks and select as
many nodes, all of them different. -/
def Schedulable (logsInfo : Bool) (seed : U64) (drain : List ℕ → List ℕ) (replicas : ℕ)
    (answers : List Answer) : Prop :=
  ∃ candidates nodes,
    (getCandidates logsInfo (answers.map Answer.text) : Outcome AnyhowError _) = .ok candidates ∧
    selectNodes seed drain (candidates.map candidateText) replicas = .ok nodes ∧
    nodes.length = replicas ∧ (nodes.map Prod.fst).Nodup

/-- The peers that answer with a key, each once. -/
def willingPeers (answers : List Answer) : List PeerId :=
  ((answers.filterMap Answer.offer).map Prod.fst).dedup

theorem length_firstOffers_le (answers : List Answer) :
    (firstOffers answers).length ≤ enoughResponders :=
  (List.length_filterMap_le _ _).trans (List.length_take_le _ _)

theorem map_candidateText_firstOffers (answers : List Answer) :
    ((firstOffers answers).map fun (peer, key) => (peer.text, key)).map candidateText =
      (firstOffers answers).map offerText := by
  rw [List.map_map]
  rfl

/-- An apply needs a candidate for every replica. -/
theorem Schedulable.le_length {logsInfo : Bool} {seed : U64} {drain : List ℕ → List ℕ}
    {replicas : ℕ} {answers : List Answer} (h : Schedulable logsInfo seed drain replicas answers) :
    replicas ≤ (firstOffers answers).length := by
  obtain ⟨candidates, nodes, hok, hselect, -⟩ := h
  obtain rfl := Outcome.ok.inj ((getCandidates_answers logsInfo answers).symm.trans hok)
  rw [map_candidateText_firstOffers] at hselect
  by_contra hlt
  exact selectNodes_of_few seed drain (by rw [List.length_map]; omega) nodes hselect

/-- **Answers let an apply select its nodes** if and only if among the first five different ones
there is a key for every replica, and the first of these are of different peers. -/
theorem schedulable_iff (logsInfo : Bool) (seed : U64) (drain : List ℕ → List ℕ) (replicas : ℕ)
    (hreplicas : 1 ≤ replicas) (answers : List Answer) :
    Schedulable logsInfo seed drain replicas answers ↔
      replicas ≤ (firstOffers answers).length ∧
        (((firstOffers answers).take replicas).map Prod.fst).Nodup := by
  have hfive : (firstOffers answers).length ≤ 5 := length_firstOffers_le answers
  have hnodup : (((firstOffers answers).take replicas).map fun offer => offer.1.text).Nodup ↔
      (((firstOffers answers).take replicas).map Prod.fst).Nodup := by
    rw [← List.nodup_map_iff (f := PeerId.text) fun _ _ => PeerId.ext_text, List.map_map]
    rfl
  constructor
  · intro h
    have hle := h.le_length
    have hne : firstOffers answers ≠ [] := List.ne_nil_of_length_pos (by omega)
    obtain ⟨candidates, nodes, hok, hselect, -, hdistinct⟩ := h
    obtain rfl := Outcome.ok.inj ((getCandidates_answers logsInfo answers).symm.trans hok)
    rw [map_candidateText_firstOffers] at hselect
    obtain ⟨nodes', hselect', hids⟩ := selectNodes_offers seed drain hne hle (by omega)
    obtain rfl := Outcome.ok.inj (hselect.symm.trans hselect')
    rw [hids, hnodup] at hdistinct
    exact ⟨hle, hdistinct⟩
  · rintro ⟨hle, hdistinct⟩
    have hne : firstOffers answers ≠ [] := List.ne_nil_of_length_pos (by omega)
    obtain ⟨nodes, hselect, hids⟩ := selectNodes_offers seed drain hne hle (by omega)
    rw [← map_candidateText_firstOffers] at hselect
    refine ⟨_, nodes, getCandidates_answers logsInfo answers, hselect, ?_, ?_⟩
    · have hlength := congrArg List.length hids
      rw [List.length_map, List.length_map, List.length_take] at hlength
      omega
    · rw [hids]
      exact hnodup.mpr hdistinct

/-! ## Some answers -/

/-- Peers `0` and `1` answer, with the gossip of peer `0` and a peer without a key in between. -/
theorem schedulable_reference :
    Schedulable true 0 id 2 [.keyed (peerNumber 0) "a", .bare (peerNumber 0),
      .keyed (peerNumber 2) "", .keyed (peerNumber 0) "a", .keyed (peerNumber 1) "b"] := by
  have hoffers : firstOffers [.keyed (peerNumber 0) "a", .bare (peerNumber 0),
      .keyed (peerNumber 2) "", .keyed (peerNumber 0) "a", .keyed (peerNumber 1) "b"] =
      [(peerNumber 0, "a"), (peerNumber 1, "b")] := by
    simp [firstOffers, List.eraseDups_cons, enoughResponders, List.filterMap_cons, Answer.offer]
  refine (schedulable_iff true 0 id 2 (by decide) _).mpr ?_
  rw [hoffers]
  exact ⟨le_rfl, by simp [peerNumber_injective.eq_iff]⟩

/-- Six willing peers are not enough for six replicas. -/
theorem six_peers_not_schedulable :
    let answers := ([0, 1, 2, 3, 4, 5] : List (Fin 9)).map fun n =>
      Answer.keyed (peerNumber n) "key"
    (willingPeers answers).length = 6 ∧ ¬ Schedulable true 0 id 6 answers := by
  intro answers
  have hpeers : willingPeers answers = ([0, 1, 2, 3, 4, 5] : List (Fin 9)).map peerNumber := by
    have hnodup : (([0, 1, 2, 3, 4, 5] : List (Fin 9)).map peerNumber).Nodup :=
      List.Nodup.map peerNumber_injective (by decide)
    rw [← hnodup.dedup]
    rfl
  refine ⟨by rw [hpeers]; rfl, fun h => ?_⟩
  have hle := h.le_length.trans (length_firstOffers_le answers)
  exact absurd hle (by decide)

end Beemesh
