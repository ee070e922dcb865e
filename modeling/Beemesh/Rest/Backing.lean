import Beemesh.Node.Holding
import Beemesh.Node.Reference
import Beemesh.Rest.Candidates

/-!
# What backs a candidate

`get_candidates` broadcasts a capacity query to the peers of its node and collects their answers. A
peer that answers has checked the request and reserved for it; the node that asks also answers its
own query, and does neither. Here are the nodes of a mesh, the queries they have asked, the answers
they have given and what was forwarded to whoever waits. With each answer is kept the node as it was
when it answered.

## Main definitions

* `candidatesRequestId`, `capacityQuery`, `handleQueryCapacityWithPayload`: a query, and what its
  node does with it
* `Mesh`, `MeshAction`, `meshStep`: the nodes of a mesh and their queries
* `Mesh.Admits`: what the network does
* `Mesh.Backs`: when a node that answers its own query has a reservation
* `Given.Backed`: the answer was backed when it was given

## Main results

* `extractManifestIdFromRequestId_candidates`: the request id of a query names its task
* `candidates_backed`: every candidate is backed, over every run in which no node answers its own
  query without a reservation
-/

namespace Beemesh

/-! ## A query -/

/-- The request id of a query of `get_candidates`. -/
def candidatesRequestId (taskId uuid : String) : String :=
  freeCapacityPrefix ++ ":" ++ taskId ++ ":" ++ uuid

/-- What `get_candidates` asks for: half a core, 512 MB of memory and 10 GB of storage, once. -/
def capacityQuery : CapacityRequest :=
  ⟨none, 500, 512 * 1024 * 1024, 10 * 1024 * 1024 * 1024, 1⟩

/-- The request id of a query names its task. -/
theorem extractManifestIdFromRequestId_candidates {taskId : String} (uuid : String)
    (hne : taskId ≠ "") (hcolon : ':' ∉ taskId.toList) :
    extractManifestIdFromRequestId (candidatesRequestId taskId uuid) = some taskId := by
  have hprefix : ':' ∉ freeCapacityPrefix.toList := by decide
  have hchars : (candidatesRequestId taskId uuid).toList =
      freeCapacityPrefix.toList ++ ':' :: (taskId.toList ++ ':' :: uuid.toList) := by
    simp [candidatesRequestId, String.toList_append]
  have hsplit : splitAt ':' (candidatesRequestId taskId uuid) =
      freeCapacityPrefix :: taskId :: splitAt ':' uuid := by
    rw [splitAt, hchars, List.splitOn_append_cons_self_of_not_mem hprefix,
      List.splitOn_append_cons_self_of_not_mem hcolon, List.map_cons, List.map_cons,
      String.ofList_toList, String.ofList_toList]
    rfl
  rw [extractManifestIdFromRequestId, hsplit]
  simp [hne]

variable {H : Type} (P : NodePlatform)

/-- `handle_query_capacity_with_payload`. The node waits for the answers, broadcasts the request and
answers it itself, with what was asked for and neither a check nor a reservation. -/
def handleQueryCapacityWithPayload (n : Node H) (requestId : String) (observer : ℕ)
    (payload : Bytes) (broadcast : Except String ℕ) (kemPubB64 : Option String) : Handled H :=
  let observers := (n.pendingQueries.lookup requestId).getD [] ++ [observer]
  let n := { n with pendingQueries := n.pendingQueries.insert requestId observers }
  match P.rootAsCapacityRequest payload with
  | .error _ => { node := n }
  | .ok capReq =>
    match broadcast with
    | .error _ => { node := n }
    | .ok _ =>
      if n.schedulingDisabled then { node := n }
      else
        { notifyCapacityObservers n requestId (n.localPeer ++ ":" ++ kemPubB64.getD "") with
          response := some (.capacityReply
            { cpuMilli := capReq.cpuMilli
              memoryBytes := capReq.memoryBytes
              storageBytes := capReq.storageBytes
              requestId := requestId
              responderPeer := n.localPeer }) }

/-! ## The mesh -/

/-- A query that a node has asked. -/
structure Query where
  asker : PeerId
  requestId : String
  taskId : String

/-- An answer that a peer has given, with its key, and the node as it was then. -/
structure Given (H : Type) where
  peer : PeerId
  requestId : String
  key : String
  node : Node H

/-- What a node has sent to those who wait for the answers to a request. -/
structure Sent where
  peer : PeerId
  requestId : String
  payload : String

/-- The nodes of a mesh, and what they have asked, answered and forwarded. -/
structure Mesh (H : Type) where
  nodes : PeerId → Node H
  queries : List Query := []
  given : List (Given H) := []
  sent : List Sent := []

/-- What happens in a mesh. The key is that of an answer, should there be one: the KEM key is loaded
for each answer, and can be another each time. -/
inductive MeshAction (H : Type)
  | act (peer : PeerId) (a : Action H) (key : String)
  /-- `get_candidates` asks its node. -/
  | getCandidates (peer : PeerId) (taskId uuid : String) (broadcast : Except String ℕ)
      (key : Option String)

/-- The answer in an outcome. -/
def Handled.given (h : Handled H) (peer : PeerId) (key : String) : List (Given H) :=
  match h.response with
  | some (.capacityReply params) => [⟨peer, params.requestId, key, h.node⟩]
  | _ => []

/-- What an outcome forwards. -/
def Handled.sent (h : Handled H) (peer : PeerId) : List Sent :=
  match h.act with
  | some (.forward requestId payload _) => [⟨peer, requestId, payload⟩]
  | _ => []

/-- The mesh after an outcome at a peer. -/
def Mesh.after (m : Mesh H) (peer : PeerId) (key : String) (h : Handled H) : Mesh H where
  nodes := Function.update m.nodes peer h.node
  queries := m.queries
  given := m.given ++ h.given peer key
  sent := m.sent ++ h.sent peer

variable (buildCapacityRequest : CapacityRequest → Bytes)

def meshStep (m : Mesh H) : MeshAction H → Mesh H
  | .act peer a key => m.after peer key (step P (m.nodes peer) a)
  | .getCandidates peer taskId uuid broadcast key =>
    let requestId := candidatesRequestId taskId uuid
    let asked : Mesh H := { m with queries := m.queries ++ [⟨peer, requestId, taskId⟩] }
    asked.after peer (key.getD "")
      (handleQueryCapacityWithPayload P (m.nodes peer) requestId m.queries.length
        (buildCapacityRequest capacityQuery) broadcast key)

/-! ## The network -/

/-- Nobody has used the request id. -/
structure Mesh.Unused (m : Mesh H) (requestId : String) : Prop where
  queries : ∀ q ∈ m.queries, q.requestId ≠ requestId
  given : ∀ g ∈ m.given, g.requestId ≠ requestId
  sent : ∀ s ∈ m.sent, s.requestId ≠ requestId
  reservations : ∀ p, (m.nodes p).verifier.reservations.lookup requestId = none

/-- What the network brings to a node: messages of peers, a scheduler response that its peer has
given, and under the request id of a query only what that query asks for. -/
structure Mesh.Brings (m : Mesh H) (target : PeerId) (a : Action H) : Prop where
  peer : ∀ handler wallMs peer bytes, a = .deliver handler wallMs peer bytes →
    ∃ p : PeerId, peer = p.text
  response : ∀ wallMs peer bytes reply, a = .deliver .schedulerResponse wallMs peer bytes →
    P.rootAsCapacityReply bytes = .ok reply →
    ∃ g ∈ m.given, peer = g.peer.text ∧ reply.requestId.getD "" = g.requestId ∧
      reply.kemPubkey.getD "" = g.key
  request : ∀ req, a.asks P (m.nodes target) = some req →
    ∀ q ∈ m.queries, req.requestId.getD "" = q.requestId → req.resources = capacityQuery.resources

/-- What the network does: a node gets what it brings, and a fresh UUID makes a fresh request id. -/
def Mesh.Admits (m : Mesh H) : MeshAction H → Prop
  | .act peer a _ => m.Brings P peer a
  | .getCandidates _ taskId uuid _ _ => m.Unused (candidatesRequestId taskId uuid)

/-- The id of the task can be read back out of the request id, and the node that asks does not
answer, answers without a key, or has a reservation for the task already. -/
def Mesh.Backs (m : Mesh H) : MeshAction H → Prop
  | .act _ _ _ => True
  | .getCandidates peer taskId _ broadcast key =>
    (taskId ≠ "" ∧ ':' ∉ taskId.toList) ∧
      ((m.nodes peer).schedulingDisabled = true ∨ (∃ e, broadcast = .error e) ∨
        key.getD "" = "" ∨ (m.nodes peer).Reserves taskId capacityQuery.resources)

/-- The answer was backed when it was given: its node had an unexpired reservation for the task that
covers the query, and the reservation check passes until that expires, whatever the node does. -/
def Given.Backed (g : Given H) (taskId : String) : Prop :=
  ∃ id e, g.node.verifier.reservations.lookup id = some e ∧ g.node.now < e.expiresAt ∧
    e.manifestId = some taskId ∧ e.Covers capacityQuery.resources ∧
    ∀ acts, let n := Run.run (nodeStep P) g.node acts
      n.now < e.expiresAt → (n.verifier.hasActiveReservationForManifest n.now taskId).1 = true

variable {P}

theorem Given.Backed.of_reserves {g : Given H} {taskId : String} (hkept : Kept g.node)
    (h : g.node.Reserves taskId capacityQuery.resources) : g.Backed P taskId := by
  obtain ⟨id, e, he, hnow, hm, hcovers⟩ := h
  exact ⟨id, e, he, hnow, hm, hcovers, fun acts => hkept.active_until he hm acts⟩

/-! ## Outcomes -/

/-- A node with a query of its own waits for the answers, and is otherwise as it was. -/
theorem handleQueryCapacityWithPayload_node (n : Node H) (requestId : String) (observer : ℕ)
    (payload : Bytes) (broadcast : Except String ℕ) (key : Option String) :
    (handleQueryCapacityWithPayload P n requestId observer payload broadcast key).node =
      { n with
        pendingQueries := n.pendingQueries.insert requestId
          ((n.pendingQueries.lookup requestId).getD [] ++ [observer]) } := by
  simp only [handleQueryCapacityWithPayload]
  split
  · rfl
  · split
    · rfl
    · split_ifs
      · rfl
      · exact notifyCapacityObservers_node _ _ _

/-- **What a node does with a query of its own**: it answers unless it does not schedule or the
broadcast failed, and the answer goes to all who wait under the request id. -/
theorem handleQueryCapacityWithPayload_cases (n : Node H) (requestId : String) (observer : ℕ)
    (payload : Bytes) (broadcast : Except String ℕ) (key : Option String) :
    let h := handleQueryCapacityWithPayload P n requestId observer payload broadcast key
    (h.response = none ∧ h.act = none) ∨
      n.schedulingDisabled = false ∧ (∃ sent, broadcast = .ok sent) ∧
        (∃ params, h.response = some (.capacityReply params) ∧ params.requestId = requestId) ∧
        h.act = some (.forward requestId (n.localPeer ++ ":" ++ key.getD "")
          ((n.pendingQueries.lookup requestId).getD [] ++ [observer])) := by
  intro h
  simp only [h, handleQueryCapacityWithPayload]
  split
  · exact .inl ⟨rfl, rfl⟩
  · split
    · exact .inl ⟨rfl, rfl⟩
    · split_ifs with hdisabled
      · exact .inl ⟨rfl, rfl⟩
      · -- The node has registered who waits, so the answer goes there.
        simp only [notifyCapacityObservers, AList.lookup_insert]
        exact .inr ⟨by simpa using hdisabled, ⟨_, rfl⟩, ⟨_, rfl, rfl⟩, trivial⟩

section After

variable {m : Mesh H} {peer : PeerId} {key : String} {h : Handled H}

theorem mem_given_after {g : Given H} (hg : g ∈ (m.after peer key h).given) :
    g ∈ m.given ∨ ∃ params, h.response = some (.capacityReply params) ∧
      g = ⟨peer, params.requestId, key, h.node⟩ := by
  rcases List.mem_append.mp hg with hg | hg
  · exact .inl hg
  · unfold Handled.given at hg
    split at hg
    · next params hresponse => exact .inr ⟨params, hresponse, List.mem_singleton.mp hg⟩
    · cases hg

theorem mem_given_after_of_capacityReply {params : CapacityReplyParams}
    (hresponse : h.response = some (.capacityReply params)) :
    ⟨peer, params.requestId, key, h.node⟩ ∈ (m.after peer key h).given := by
  refine List.mem_append_right _ ?_
  rw [Handled.given, hresponse]
  exact List.mem_singleton_self _

theorem mem_sent_after {s : Sent} (hs : s ∈ (m.after peer key h).sent) :
    s ∈ m.sent ∨ ∃ observers, h.act = some (.forward s.requestId s.payload observers) := by
  rcases List.mem_append.mp hs with hs | hs
  · exact .inl hs
  · unfold Handled.sent at hs
    split at hs
    · next observers hact =>
      obtain rfl := List.mem_singleton.mp hs
      exact .inr ⟨observers, hact⟩
    · cases hs

theorem mem_sent_after_of_forward {requestId payload : String} {observers : List ℕ}
    (hact : h.act = some (.forward requestId payload observers)) :
    ⟨peer, requestId, payload⟩ ∈ (m.after peer key h).sent := by
  refine List.mem_append_right _ ?_
  rw [Handled.sent, hact]
  exact List.mem_singleton_self _

@[simp] theorem nodes_after_self : (m.after peer key h).nodes peer = h.node :=
  Function.update_self ..

theorem nodes_after_of_ne {peer' : PeerId} (hne : peer' ≠ peer) :
    (m.after peer key h).nodes peer' = m.nodes peer' :=
  Function.update_of_ne hne _ _

/-- A property of the nodes holds after an outcome, when it holds of the node it leaves. -/
theorem forall_nodes_after {p : PeerId → Node H → Prop} (hnodes : ∀ peer, p peer (m.nodes peer))
    (hnode : p peer h.node) (peer' : PeerId) : p peer' ((m.after peer key h).nodes peer') := by
  rcases eq_or_ne peer' peer with rfl | hne
  · rwa [nodes_after_self]
  · rw [nodes_after_of_ne hne]
    exact hnodes peer'

end After

/-! ## The invariant -/

variable (P) in
/-- The nodes are who they are and keep their reservations, those under the id of a query cover it,
every answer with a key is backed, and what was forwarded to a query is such an answer or has no
key. -/
structure Mesh.Inv (m : Mesh H) : Prop where
  localPeer : ∀ p, (m.nodes p).localPeer = p.text
  kept : ∀ p, Kept (m.nodes p)
  names : ∀ q ∈ m.queries, extractManifestIdFromRequestId q.requestId = some q.taskId
  covers : ∀ q ∈ m.queries, ∀ p e, (m.nodes p).verifier.reservations.lookup q.requestId = some e →
    e.Covers capacityQuery.resources
  given : ∀ q ∈ m.queries, ∀ g ∈ m.given, g.requestId = q.requestId → g.key ≠ "" →
    g.Backed P q.taskId
  sent : ∀ q ∈ m.queries, ∀ s ∈ m.sent, s.requestId = q.requestId →
    (∃ g ∈ m.given, g.requestId = q.requestId ∧ s.payload = g.peer.text ++ ":" ++ g.key) ∨
      ∃ p : PeerId, s.payload = p.text

/-- An outcome at a peer keeps the invariant, when the node it leaves does, what it replies with a
key is reserved for, and what it forwards to a query was given or has no key. -/
theorem Mesh.Inv.after {m : Mesh H} (hm : m.Inv P) {peer : PeerId} {key : String} {h : Handled H}
    (hlocal : h.node.localPeer = peer.text) (hkept : Kept h.node)
    (hcovers : ∀ q ∈ m.queries, ∀ e, h.node.verifier.reservations.lookup q.requestId = some e →
      e.Covers capacityQuery.resources)
    (hgiven : ∀ q ∈ m.queries, ∀ params, h.response = some (.capacityReply params) →
      params.requestId = q.requestId → key ≠ "" →
      h.node.Reserves q.taskId capacityQuery.resources)
    (hsent : ∀ q ∈ m.queries, ∀ payload observers,
      h.act = some (.forward q.requestId payload observers) →
      (∃ g ∈ (m.after peer key h).given, g.requestId = q.requestId ∧
        payload = g.peer.text ++ ":" ++ g.key) ∨ ∃ p : PeerId, payload = p.text) :
    (m.after peer key h).Inv P := by
  refine ⟨?_, ?_, hm.names, ?_, ?_, ?_⟩
  · exact forall_nodes_after (p := fun p n => n.localPeer = p.text) hm.localPeer hlocal
  · exact forall_nodes_after (p := fun _ n => Kept n) hm.kept hkept
  · intro q hq
    exact forall_nodes_after (p := fun _ n => ∀ e,
      n.verifier.reservations.lookup q.requestId = some e → e.Covers capacityQuery.resources)
      (hm.covers q hq) (hcovers q hq)
  · intro q hq g hg hid hkey
    rcases mem_given_after hg with hg | ⟨params, hresponse, rfl⟩
    · exact hm.given q hq g hg hid hkey
    · exact .of_reserves hkept (hgiven q hq params hresponse hid hkey)
  · intro q hq s hs hid
    rcases mem_sent_after hs with hs | ⟨observers, hact⟩
    · refine (hm.sent q hq s hs hid).imp_left ?_
      rintro ⟨g, hg, hrest⟩
      exact ⟨g, List.mem_append_left _ hg, hrest⟩
    · exact hsent q hq s.payload observers (hid ▸ hact)

/-- An action leaves under the id of a query only what covers it. -/
theorem covers_step {n : Node H} {a : Action H} {requestId : String}
    (hold : ∀ e, n.verifier.reservations.lookup requestId = some e →
      e.Covers capacityQuery.resources)
    (hasks : ∀ req, a.asks P n = some req → req.requestId.getD "" = requestId →
      req.resources = capacityQuery.resources) {e : CapacityReservation}
    (he : (step P n a).node.verifier.reservations.lookup requestId = some e) :
    e.Covers capacityQuery.resources := by
  rcases step_lookup he with he | hwritten
  · exact hold e he
  · obtain ⟨req, hreq, hid, ⟨e', he', hamounts⟩ | hamounts⟩ := hwritten.amounts
    · intro r
      rw [hamounts]
      exact hold e' he' r
    · intro r
      rw [hamounts, hasks req hreq hid]

/-- A node that replies has reserved, under the id it was asked under. -/
theorem reserves_of_capacityReply {n : Node H} {a : Action H} {params : CapacityReplyParams}
    (h : (step P n a).response = some (.capacityReply params)) {taskId : String}
    (hname : extractManifestIdFromRequestId params.requestId = some taskId)
    (hcovers : ∀ e, (step P n a).node.verifier.reservations.lookup params.requestId = some e →
      e.Covers capacityQuery.resources) :
    (step P n a).node.Reserves taskId capacityQuery.resources := by
  obtain ⟨m, hact⟩ := step_capacityReply h
  have hnow := step_now P n a
  cases step_verifier P n a with
  | keeps hkeeps hverifier => exact absurd hact (hkeeps _ _)
  | grants req id m' hasked hid hm hgrant hroom hcall =>
    obtain ⟨rfl, rfl⟩ := Act.reserve.inj (Option.some.inj (hgrant.symm.trans hact))
    obtain ⟨e, hreservations, hmanifest, hexpires, -⟩ := pruned_reserveCapacity_written hcall
    have he : (step P n a).node.verifier.reservations.lookup params.requestId = some e := by
      rw [hreservations, AList.lookup_insert]
    refine ⟨params.requestId, e, he, ?_, hmanifest.trans (hm.symm.trans hname), hcovers e he⟩
    -- An action that asks takes no time.
    have helapsed : a.elapsed = 0 := by
      cases a <;> first | rfl | cases hasked
    rw [hexpires, hnow, helapsed, Nat.add_zero]
    exact Nat.lt_add_of_pos_right (by decide)

/-- **An action of a node** keeps the invariant. -/
theorem Mesh.Inv.act {m : Mesh H} (hm : m.Inv P) {peer : PeerId} {a : Action H} {key : String}
    (ha : m.Brings P peer a) : (m.after peer key (step P (m.nodes peer) a)).Inv P := by
  have hcovers : ∀ q ∈ m.queries, ∀ e,
      (step P (m.nodes peer) a).node.verifier.reservations.lookup q.requestId = some e →
        e.Covers capacityQuery.resources := fun q hq e he =>
    covers_step (hm.covers q hq peer) (fun req hreq hid => ha.request req hreq q hq hid) he
  refine hm.after ((step_localPeer _ a).trans (hm.localPeer peer)) ((hm.kept peer).step a)
    hcovers ?_ ?_
  · -- A new answer: the node has just reserved.
    intro q hq params hresponse hid hkey
    refine reserves_of_capacityReply hresponse ?_ ?_
    · rw [hid]
      exact hm.names q hq
    · rw [hid]
      exact hcovers q hq
  · intro q hq payload observers hact
    obtain ⟨handler, wallMs, sender, bytes, rfl, ⟨rfl, reply, hreply, hrequest, rfl⟩ |
      ⟨-, rfl⟩⟩ := step_forward hact
    · obtain ⟨g, hg, rfl, hgid, hgkey⟩ := ha.response _ _ _ reply rfl hreply
      refine .inl ⟨g, List.mem_append_left _ hg, ?_, ?_⟩
      · rw [← hgid, ← hrequest]
      · rw [hgkey]
    · obtain ⟨p, rfl⟩ := ha.peer _ _ _ _ rfl
      exact .inr ⟨p, rfl⟩

/-- A query under an unused id that names its task keeps the invariant. -/
theorem Mesh.Inv.ask {m : Mesh H} (hm : m.Inv P) {q : Query} (hunused : m.Unused q.requestId)
    (hname : extractManifestIdFromRequestId q.requestId = some q.taskId) :
    ({ m with queries := m.queries ++ [q] } : Mesh H).Inv P := by
  have hqueries {q' : Query} (hq' : q' ∈ m.queries ++ [q]) : q' ∈ m.queries ∨ q' = q := by
    simpa using hq'
  refine ⟨hm.localPeer, hm.kept, ?_, ?_, ?_, ?_⟩
  · intro q' hq'
    rcases hqueries hq' with hq' | rfl
    · exact hm.names q' hq'
    · exact hname
  · intro q' hq' p e he
    rcases hqueries hq' with hq' | rfl
    · exact hm.covers q' hq' p e he
    · cases (hunused.reservations p).symm.trans he
  · intro q' hq' g hg hid hkey
    rcases hqueries hq' with hq' | rfl
    · exact hm.given q' hq' g hg hid hkey
    · exact absurd hid (hunused.given g hg)
  · intro q' hq' s hs hid
    rcases hqueries hq' with hq' | rfl
    · exact hm.sent q' hq' s hs hid
    · exact absurd hid (hunused.sent s hs)

/-- **A query** keeps the invariant, when what its node answers is backed. -/
theorem Mesh.Inv.getCandidates {m : Mesh H} (hm : m.Inv P) {peer : PeerId} {taskId uuid : String}
    {broadcast : Except String ℕ} {key : Option String}
    (hunused : m.Unused (candidatesRequestId taskId uuid))
    (hbacks : m.Backs (.getCandidates peer taskId uuid broadcast key)) :
    (meshStep P buildCapacityRequest m (.getCandidates peer taskId uuid broadcast key)).Inv P := by
  obtain ⟨⟨hne, hcolon⟩, hlocal⟩ := hbacks
  let q : Query := ⟨peer, candidatesRequestId taskId uuid, taskId⟩
  have hasked : ({ m with queries := m.queries ++ [q] } : Mesh H).Inv P :=
    hm.ask hunused (extractManifestIdFromRequestId_candidates uuid hne hcolon)
  -- The node waits for answers, and keeps everything else.
  have hcases := handleQueryCapacityWithPayload_cases (P := P)
    (m.nodes peer) q.requestId m.queries.length (buildCapacityRequest capacityQuery) broadcast key
  have hnode := handleQueryCapacityWithPayload_node (P := P)
    (m.nodes peer) q.requestId m.queries.length (buildCapacityRequest capacityQuery) broadcast key
  refine hasked.after ?_ ?_ ?_ ?_ ?_
  · rw [hnode]
    exact hm.localPeer peer
  · rw [hnode]
    exact ⟨(hm.kept peer).labels, (hm.kept peer).timely⟩
  · rw [hnode]
    exact fun q' hq' => hasked.covers q' hq' peer
  · intro q' hq' params hresponse hid hkey
    rw [hnode]
    rcases hcases with ⟨hnone, -⟩ | ⟨hdisabled, ⟨peers, hsent⟩, ⟨params', hparams, hrequest⟩, -⟩
    · cases hnone.symm.trans hresponse
    · obtain rfl := Response.capacityReply.inj (Option.some.inj (hresponse.symm.trans hparams))
      -- Only the query itself has its id.
      have htask : q'.taskId = taskId := by
        rcases List.mem_append.mp hq' with hq' | hq'
        · exact absurd (hid.symm.trans hrequest) (hunused.queries q' hq')
        · exact congrArg Query.taskId (List.mem_singleton.mp hq')
      rw [htask]
      rcases hlocal with hno | ⟨e, hfailed⟩ | hempty | hreserves
      · cases hdisabled.symm.trans hno
      · cases hsent.symm.trans hfailed
      · exact absurd hempty hkey
      · exact hreserves
  · intro q' hq' payload observers hact
    rcases hcases with ⟨-, hnone⟩ | ⟨-, -, ⟨params, hparams, hrequest⟩, hforward⟩
    · cases hnone.symm.trans hact
    · obtain ⟨hid, rfl, -⟩ := Act.forward.inj (Option.some.inj (hact.symm.trans hforward))
      refine .inl ⟨_, mem_given_after_of_capacityReply hparams, ?_, ?_⟩
      · rw [hrequest, hid]
      · rw [hm.localPeer peer]

/-! ## Candidates -/

/-- The mesh at its start: nobody has asked, answered or reserved. -/
structure Mesh.Started (m : Mesh H) : Prop where
  localPeer : ∀ p, (m.nodes p).localPeer = p.text
  reservations : ∀ p, (m.nodes p).verifier.reservations = ∅
  queries : m.queries = []
  given : m.given = []
  sent : m.sent = []

theorem Mesh.Started.inv {m : Mesh H} (hm : m.Started) : m.Inv P := by
  have hno {q : Query} (hq : q ∈ m.queries) : False := by
    rw [hm.queries] at hq
    cases hq
  exact ⟨hm.localPeer, fun p => .of_empty (hm.reservations p), fun q hq => (hno hq).elim,
    fun q hq => (hno hq).elim, fun q hq => (hno hq).elim, fun q hq => (hno hq).elim⟩

variable (P) in
/-- The candidates that a query gets out of answers sent to it are the peers and keys of answers
that were backed. -/
def Query.Backed (q : Query) (m : Mesh H) : Prop :=
  ∀ (logsInfo : Bool) (replies : List String) (candidates : List (String × String)),
    (∀ payload ∈ replies, ⟨q.asker, q.requestId, payload⟩ ∈ m.sent) →
    (Beemesh.getCandidates logsInfo replies : Outcome String _) = .ok candidates →
    ∀ c ∈ candidates, ∃ g ∈ m.given, g.requestId = q.requestId ∧ c = (g.peer.text, g.key) ∧
      g.Backed P q.taskId

/-- Under the invariant every candidate is backed. -/
theorem Mesh.Inv.backed {m : Mesh H} (hm : m.Inv P) {q : Query} (hq : q ∈ m.queries) :
    q.Backed P m := by
  intro logsInfo replies candidates hreplies hcandidates c hc
  obtain ⟨payload, hpayload, hcandidate⟩ := candidateOf_of_mem hcandidates hc
  rcases hm.sent q hq _ (hreplies payload hpayload) rfl with ⟨g, hg, hid, htext⟩ | ⟨p, htext⟩
  · -- The text of an answer with its key, read back.
    have hoffer := candidateOf_text (.keyed g.peer g.key)
    change payload = _ at htext
    rw [Answer.text, ← htext, hcandidate, Answer.offer] at hoffer
    by_cases hkey : g.key = ""
    · simp [hkey] at hoffer
    · have hc' : c = (g.peer.text, g.key) := by simpa [hkey] using hoffer
      exact ⟨g, hg, hid, hc', hm.given q hq g hg hid hkey⟩
  · have hoffer := candidateOf_text (.bare p)
    change payload = _ at htext
    rw [Answer.text, ← htext, hcandidate] at hoffer
    cases hoffer

/-- **Every candidate is backed**, for every query of every run in which no node answers its own
query without a reservation. -/
theorem candidates_backed {m : Mesh H} (hm : m.Started) {acts : List (MeshAction H)}
    (hguard : Run.Guarded (meshStep P buildCapacityRequest)
      (fun m a => m.Admits P a ∧ m.Backs a) m acts) :
    let m' := Run.run (meshStep P buildCapacityRequest) m acts
    ∀ q ∈ m'.queries, q.Backed P m' := by
  intro m' q hq
  have hinv : m'.Inv P := by
    refine hguard.invariant (fun m a ha hm => ?_) hm.inv
    cases a with
    | act peer a key => exact hm.act ha.1
    | getCandidates peer taskId uuid broadcast key => exact hm.getCandidates _ ha.1 ha.2
  exact hinv.backed hq

/-! ## Reference nodes -/

/-- A mesh of reference nodes, some of which do not schedule. -/
def referenceMesh (schedulingDisabled : PeerId → Bool) : Mesh Pods where
  nodes p := { referenceNode with
    localPeer := p.text
    schedulingDisabled := schedulingDisabled p }

theorem referenceMesh_started (schedulingDisabled : PeerId → Bool) :
    (referenceMesh schedulingDisabled).Started :=
  ⟨fun _ => rfl, fun _ => rfl, rfl, rfl, rfl⟩

theorem Mesh.Started.unused {m : Mesh H} (hm : m.Started) (requestId : String) :
    m.Unused requestId where
  queries q hq := by
    rw [hm.queries] at hq
    cases hq
  given g hg := by
    rw [hm.given] at hg
    cases hg
  sent s hs := by
    rw [hm.sent] at hs
    cases hs
  reservations p := by
    rw [hm.reservations p]
    exact AList.lookup_empty requestId

/-- Peer `0` asks for candidates for a task. -/
def askAction : MeshAction Pods :=
  .getCandidates (peerNumber 0) "task" "1" (.ok 0) (some "key")

def taskRequestId : String := candidatesRequestId "task" "1"

/-- The mesh once it has asked. -/
def askedMesh (schedulingDisabled : PeerId → Bool) : Mesh Pods :=
  meshStep trusting capacityRequestCodec.write (referenceMesh schedulingDisabled) askAction

/-- A node that schedules answers its own query. -/
theorem handleQueryCapacityWithPayload_trusting {n : Node Pods}
    (hschedules : n.schedulingDisabled = false) (requestId : String) (observer : ℕ)
    (key : Option String) :
    let h := handleQueryCapacityWithPayload trusting n requestId observer
      (capacityRequestCodec.write capacityQuery) (.ok 0) key
    ∃ pending params observers, h.node = { n with pendingQueries := pending } ∧
      h.response = some (.capacityReply params) ∧
      h.act = some (.forward requestId (n.localPeer ++ ":" ++ key.getD "") observers) := by
  have hread : trusting.rootAsCapacityRequest (capacityRequestCodec.write capacityQuery) =
      .ok capacityQuery := referenceNodePlatform_rootAsCapacityRequest _ _
  simp only [handleQueryCapacityWithPayload, hread, hschedules, notifyCapacityObservers,
    AList.lookup_insert, Bool.false_eq_true, if_false]
  exact ⟨_, _, _, rfl, rfl, rfl⟩

/-- Peer `0` schedules and answers its own query: it is a candidate, and has no reservation. -/
theorem own_answer_not_backed :
    let m := askedMesh fun _ => false
    let replies := [(peerNumber 0).text ++ ":" ++ "key"]
    Run.Guarded (meshStep trusting capacityRequestCodec.write)
        (fun m a => m.Admits trusting a) (referenceMesh fun _ => false) [askAction] ∧
      (∀ payload ∈ replies, ⟨peerNumber 0, taskRequestId, payload⟩ ∈ m.sent) ∧
      (getCandidates true replies : Outcome String _) = .ok [((peerNumber 0).text, "key")] ∧
      (∀ g ∈ m.given,
        (g.node.verifier.hasActiveReservationForManifest g.node.now "task").1 = false) ∧
      ∃ q ∈ m.queries, ¬ q.Backed trusting m := by
  intro m replies
  obtain ⟨pending, params, observers, hnode, hresponse, hact⟩ :=
    handleQueryCapacityWithPayload_trusting (n := (referenceMesh fun _ => false).nodes
      (peerNumber 0)) rfl taskRequestId 0 (some "key")
  have hsent : ∀ payload ∈ replies, ⟨peerNumber 0, taskRequestId, payload⟩ ∈ m.sent := by
    intro payload hpayload
    obtain rfl := List.mem_singleton.mp hpayload
    exact mem_sent_after_of_forward hact
  have hcandidates : (getCandidates true replies : Outcome String _) =
      .ok [((peerNumber 0).text, "key")] := by
    have hoffers : firstOffers [.keyed (peerNumber 0) "key"] = [(peerNumber 0, "key")] := by
      simp [firstOffers, List.eraseDups_cons, enoughResponders, Answer.offer]
    have h := getCandidates_answers (ε := String) true [.keyed (peerNumber 0) "key"]
    rwa [hoffers] at h
  have hnone : ∀ g ∈ m.given,
      (g.node.verifier.hasActiveReservationForManifest g.node.now "task").1 = false := by
    intro g hg
    rcases mem_given_after hg with hg | ⟨params', -, rfl⟩
    · cases hg
    · refine (congrArg (fun n : Node Pods =>
        (n.verifier.hasActiveReservationForManifest n.now "task").1) hnode).trans ?_
      rfl
  refine ⟨⟨(referenceMesh_started _).unused _, trivial⟩, hsent, hcandidates, hnone,
    ⟨peerNumber 0, taskRequestId, "task"⟩, .head _, fun hbacked => ?_⟩
  obtain ⟨g, hg, -, -, id, e, -, hnow, -, -, hactive⟩ :=
    hbacked true replies _ hsent hcandidates _ (.head _)
  cases (hnone g hg).symm.trans (hactive [] hnow)

/-- What the broadcast of the query asks a peer. -/
def taskRequest : CapacityRequest := { capacityQuery with requestId := some taskRequestId }

/-- Peer `1` gets the request of peer `0`, and answers with its key. -/
def answerAction : MeshAction Pods :=
  .act (peerNumber 1)
    (.deliver .schedulerRequest 0 (peerNumber 0).text (capacityMessage taskRequest "n")) "key"

/-- Peer `0` gets the answer. -/
def responseAction : MeshAction Pods :=
  .act (peerNumber 0) (.deliver .schedulerResponse 0 (peerNumber 1).text
    (capacityReplyCodec.write ⟨some taskRequestId, some "key"⟩)) ""

/-- Peer `0` asks and does not schedule. -/
def othersMesh : Mesh Pods := askedMesh fun p => p = peerNumber 0

theorem othersMesh_node_one :
    othersMesh.nodes (peerNumber 1) = { referenceNode with localPeer := (peerNumber 1).text } := by
  have hne : peerNumber 1 ≠ peerNumber 0 := peerNumber_injective.ne (by decide)
  refine (nodes_after_of_ne hne).trans ?_
  simp only [referenceMesh, hne, decide_false]
  rfl

/-- A fresh capacity message is answered, also as a scheduler request. -/
theorem step_schedulerRequest_capacityMessage {n : Node Pods} (peer nonce : String)
    (hschedules : n.schedulingDisabled = false)
    (hnonce : ¬ n.nonceStore.Live n.now nonceWindow peer nonce) (req : CapacityRequest) :
    step trusting n (.deliver .schedulerRequest 0 peer (capacityMessage req nonce)) =
      answerCapacityRequest (n.noted peer nonce) req := by
  obtain ⟨parts, hverify, hread, hfresh⟩ := verifySignedMessage_capacityMessage hnonce req
  simp only [step, dispatch, schedulerRequest, hschedules, hverify, hread, hfresh,
    Bool.false_eq_true, if_false]

theorem capacityReply_of_reserve {n : Node H} {req : CapacityRequest} {id m : String}
    (h : (answerCapacityRequest n req).act = some (.reserve id m)) :
    ∃ params, (answerCapacityRequest n req).response = some (.capacityReply params) ∧
      params.requestId = id := by
  rw [answerCapacityRequest] at h ⊢
  split at h
  · cases h
  · simp only at h ⊢
    split_ifs at h ⊢
    split at h
    · exact ⟨_, rfl, (Act.reserve.inj (Option.some.inj h)).1⟩
    · cases h

/-- Peer `1` has room, reserves and answers. -/
theorem answer_given :
    ∃ g ∈ (meshStep trusting capacityRequestCodec.write othersMesh answerAction).given,
      g.peer = peerNumber 1 ∧ g.requestId = taskRequestId ∧ g.key = "key" := by
  have hstep := step_schedulerRequest_capacityMessage (n := othersMesh.nodes (peerNumber 1))
    (peerNumber 0).text "n" (by rw [othersMesh_node_one]; rfl)
    (by rw [othersMesh_node_one]; decide) taskRequest
  have hname : extractManifestIdFromRequestId taskRequestId = some "task" :=
    extractManifestIdFromRequestId_candidates "1" (by decide) (by decide)
  obtain ⟨hgrant, -⟩ := answerCapacityRequest_granted
    ((othersMesh.nodes (peerNumber 1)).noted (peerNumber 0).text "n") taskRequest taskRequestId
    "task" rfl hname (by rw [othersMesh_node_one]; decide) (by rw [othersMesh_node_one]; decide)
  obtain ⟨params, hresponse, hid⟩ := capacityReply_of_reserve hgrant
  rw [← hstep] at hresponse
  exact ⟨_, mem_given_after_of_capacityReply hresponse, rfl, hid, rfl⟩

/-- The request of peer `0` is one that the network brings. -/
theorem othersMesh_brings_request :
    othersMesh.Brings trusting (peerNumber 1)
      (.deliver .schedulerRequest 0 (peerNumber 0).text (capacityMessage taskRequest "n")) where
  peer handler wallMs peer bytes h := ⟨peerNumber 0, (Action.deliver.inj h).2.2.1.symm⟩
  response wallMs peer bytes reply h := by cases h
  request req hasked q hq hid := by
    have hschedules :
        Handler.schedulerRequest.verifies (othersMesh.nodes (peerNumber 1)) = true := by
      rw [othersMesh_node_one]
      rfl
    have hnonce : ¬ (othersMesh.nodes (peerNumber 1)).nonceStore.Live
        (othersMesh.nodes (peerNumber 1)).now nonceWindow (peerNumber 0).text "n" := by
      rw [othersMesh_node_one]
      decide
    obtain ⟨parts, hverify, hpayload, -⟩ :=
      verify_sealed hnonce (capacityRequestCodec.write taskRequest)
    have hparts : verifiedParts trusting (othersMesh.nodes (peerNumber 1)) .schedulerRequest
        (peerNumber 0).text (capacityMessage taskRequest "n") = some parts := by
      rw [verifiedParts, if_pos hschedules, verifySignedMessage, capacityMessage, hverify]
    have hread : trusting.rootAsCapacityRequest parts.payload = .ok taskRequest := by
      rw [hpayload]
      exact referenceNodePlatform_rootAsCapacityRequest _ _
    have hasks : (Action.deliver (H := Pods) .schedulerRequest 0 (peerNumber 0).text
        (capacityMessage taskRequest "n")).asks trusting (othersMesh.nodes (peerNumber 1)) =
          some taskRequest :=
      asks_of_verified trusting (.inl rfl) hparts hread
    obtain rfl := Option.some.inj (hasks.symm.trans hasked)
    rfl

/-- The response of peer `1` to the request. -/
theorem rootAsCapacityReply_taskRequestId :
    trusting.rootAsCapacityReply (capacityReplyCodec.write ⟨some taskRequestId, some "key"⟩) =
      .ok ⟨some taskRequestId, some "key"⟩ :=
  referenceNodePlatform_rootAsCapacityReply _ _

/-- The answer of peer `1` is one that the network brings, once it is given. -/
theorem brings_response {m : Mesh Pods}
    (hm : ∃ g ∈ m.given, g.peer = peerNumber 1 ∧ g.requestId = taskRequestId ∧ g.key = "key") :
    m.Brings trusting (peerNumber 0) (.deliver .schedulerResponse 0 (peerNumber 1).text
      (capacityReplyCodec.write ⟨some taskRequestId, some "key"⟩)) where
  peer handler wallMs peer bytes h := ⟨peerNumber 1, (Action.deliver.inj h).2.2.1.symm⟩
  response wallMs peer bytes reply h hreply := by
    obtain ⟨-, -, rfl, rfl⟩ := Action.deliver.inj h
    obtain ⟨g, hg, hpeer, hid, hkey⟩ := hm
    obtain rfl := Except.ok.inj (rootAsCapacityReply_taskRequestId.symm.trans hreply)
    exact ⟨g, hg, by rw [hpeer], hid.symm, hkey.symm⟩
  request req hasked := by
    simp [Action.asks] at hasked

/-- Peer `0` waits for the answer, and gets it. -/
theorem response_sent :
    let m := meshStep trusting capacityRequestCodec.write othersMesh answerAction
    ⟨peerNumber 0, taskRequestId, (peerNumber 1).text ++ ":" ++ "key"⟩ ∈
      (meshStep trusting capacityRequestCodec.write m responseAction).sent := by
  intro m
  have hne : peerNumber 0 ≠ peerNumber 1 := peerNumber_injective.ne (by decide)
  obtain ⟨observers, hobservers⟩ : ∃ observers,
      (m.nodes (peerNumber 0)).pendingQueries.lookup taskRequestId = some observers := by
    have hnode : m.nodes (peerNumber 0) = othersMesh.nodes (peerNumber 0) := nodes_after_of_ne hne
    rw [hnode, othersMesh, askedMesh, askAction, meshStep, nodes_after_self,
      handleQueryCapacityWithPayload_node]
    exact ⟨_, AList.lookup_insert _⟩
  have hact : (step trusting (m.nodes (peerNumber 0)) (.deliver .schedulerResponse 0
      (peerNumber 1).text (capacityReplyCodec.write ⟨some taskRequestId, some "key"⟩))).act =
        some (.forward taskRequestId ((peerNumber 1).text ++ ":" ++ "key") observers) := by
    simp only [step, dispatch, schedulerResponse, rootAsCapacityReply_taskRequestId,
      notifyCapacityObservers, Option.getD_some, hobservers]
  exact mem_sent_after_of_forward hact

/-- Peer `0` does not schedule and asks, and peer `1` answers. -/
theorem candidates_backed_reference :
    let acts := [askAction, answerAction, responseAction]
    let start := referenceMesh fun p => p = peerNumber 0
    let m := Run.run (meshStep trusting capacityRequestCodec.write) start acts
    Run.Guarded (meshStep trusting capacityRequestCodec.write)
        (fun m a => m.Admits trusting a ∧ m.Backs a) start acts ∧
      ⟨peerNumber 0, taskRequestId, (peerNumber 1).text ++ ":" ++ "key"⟩ ∈ m.sent ∧
      ∀ q ∈ m.queries, q.Backed trusting m := by
  intro acts start m
  have hguard : Run.Guarded (meshStep trusting capacityRequestCodec.write)
      (fun m a => m.Admits trusting a ∧ m.Backs a) start acts := by
    refine ⟨⟨(referenceMesh_started _).unused _, ⟨by decide, by decide⟩, .inl ?_⟩,
      ⟨othersMesh_brings_request, trivial⟩, ⟨brings_response answer_given, trivial⟩, trivial⟩
    change decide (peerNumber 0 = peerNumber 0) = true
    exact decide_eq_true rfl
  exact ⟨hguard, response_sent,
    candidates_backed capacityRequestCodec.write (referenceMesh_started _) hguard⟩

end Beemesh
