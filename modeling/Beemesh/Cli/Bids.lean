import Beemesh.Cli.Distribution
import Beemesh.Node.Disabled

/-!
# What a bid promises

A node that answers a capacity query holds a reservation for the manifest of the query for as long
as `RESERVATION_HOLD_SECS` says. A manifest that a client has delivered to it in that time is run,
whatever the node has done in between.

## Main definitions

* `Node.Bids`: the node answers an action with a bid for a manifest

## Main results

* `Node.Bids.active_until`: a bid is a reservation, over every run after it
* `bid_delivered`: what is delivered in time is run
-/

namespace Beemesh

open Run

variable {H : Type}

/-- The node answers the action with a capacity reply, under a request id of the manifest. -/
def Node.Bids (Q : NodePlatform) (n : Node H) (a : Action H) (manifestId : String) : Prop :=
  ∃ params, (step Q n a).response = some (.capacityReply params) ∧
    extractManifestIdFromRequestId params.requestId = some manifestId

/-- What a bid leaves: a reservation for the manifest, for a full duration from now on. -/
theorem Node.Bids.written {Q : NodePlatform} {n : Node H} {a : Action H} {manifestId : String}
    (h : n.Bids Q a manifestId) :
    ∃ id e, (nodeStep Q n a).verifier.reservations.lookup id = some e ∧
      e.manifestId = some manifestId ∧ e.expiresAt = n.now + reservationHoldDuration := by
  obtain ⟨params, hreply, hm⟩ := h
  -- A reply is sent on a reservation only.
  obtain ⟨m, hact⟩ := step_capacityReply hreply
  cases step_verifier Q n a with
  | keeps hnone => exact absurd hact (hnone _ _)
  | grants req id m' hasked hid hm' hact' hroom hcall =>
    obtain ⟨rfl, rfl⟩ := Act.reserve.inj (Option.some.inj (hact.symm.trans hact'))
    obtain rfl := Option.some.inj (hm.symm.trans hm')
    obtain ⟨e, hreservations, hmanifest, hexpires, -⟩ := pruned_reserveCapacity_written hcall
    refine ⟨params.requestId, e, ?_, hmanifest, hexpires⟩
    rw [nodeStep, hreservations, AList.lookup_insert]

/-- **A bid is a reservation** until its time is up, whatever the node does after it. -/
theorem Node.Bids.active_until {Q : NodePlatform} {n : Node H} (hn : Kept n) {a : Action H}
    {manifestId : String} (h : n.Bids Q a manifestId) (acts : List (Action H)) :
    let n' := run (nodeStep Q) (nodeStep Q n a) acts
    n'.now < n.now + reservationHoldDuration →
      (n'.verifier.hasActiveReservationForManifest n'.now manifestId).1 = true := by
  intro n' hnow
  obtain ⟨id, e, he, hmanifest, hexpires⟩ := h.written
  have hkept : Kept (nodeStep Q n a) := hn.step a
  exact hkept.active_until he hmanifest acts (hexpires ▸ hnow)

/-- A run does not change the engines. -/
theorem run_registry {Q : NodePlatform} (n : Node H) (acts : List (Action H)) :
    (run (nodeStep Q) n acts).registry = n.registry := by
  have hstep (n' : Node H) (a : Action H) (h : n'.fixed = n.fixed) :
      (nodeStep Q n' a).fixed = n.fixed := (step_fixed n' a).trans h
  exact congrArg (fun fixed => fixed.2.2.2) (run_invariant hstep acts rfl)

/-- **What is delivered in time is run**: a machine that schedules, and that in the course of any
run has bid for a manifest, runs its engine on what a client posts for it to a gateway, as long as
the reservation is held. -/
theorem bid_delivered (P : ClientPlatform) (hP : P.Promises) (R : Route P)
    -- The node: its start, what happens to it, its bid, and what happens then.
    (localPeer : String) (signingPubkey : Bytes) (host : H) (registry : RuntimeRegistry H)
    (totals : SystemResources) (before after : List (Action H)) (a : Action H)
    {manifestStr manifestId : String} (hid : manifestId ≠ "") :
    let Q := P.toNodePlatform.withCrypto P.toCryptoPlatform R.targetKey
    let bidder := run (nodeStep Q)
      (startMachine localPeer false signingPubkey host registry totals) before
    let t := run (nodeStep Q) (nodeStep Q bidder a) after
    bidder.Bids Q a manifestId → t.now < bidder.now + reservationHoldDuration →
    ∀ (D : Posting P R manifestStr manifestId) {g : Node H} {peer : String}, D.Fresh g t →
      P.parsePeerId peer = .ok localPeer → localPeer ≠ g.localPeer →
    ∀ {content : Bytes} {engineName : String} {engine : RuntimeEngine H},
      P.modifyManifestReplicas (textBytes manifestStr) = .ok content →
      selectRuntimeEngine (P.runtimeEngineAnnotation content) (some registry) t.host =
        .ok engineName →
      registry.getEngine engineName = some engine →
      let deployed := engine.deployWorkload t.host manifestId content
        (appliedConfig D.draws.operationId)
      let x := throughGateway P R.handler R.env g t R.targetKey peer D.bytes
      x.2 = some (.applyResponse true "forwarded" "Request forwarded successfully") ∧
        x.1.node.host = deployed.2 ∧
        ∀ id, x.1.act = some (.deploy manifestId id) ↔
          deployed.1.map WorkloadInfo.id = .ok id := by
  intro Q bidder t hbids htime D g peer hfresh hparse htarget content engineName engine hcontent
    hselect hget
  have hkept : Kept bidder := run_invariant (fun _ a hn => hn.step a) before (Kept.of_empty rfl)
  have hreserved := hbids.active_until hkept after htime
  have hregistry : t.registry = some registry := by
    calc t.registry = (nodeStep Q bidder a).registry := run_registry _ after
      _ = bidder.registry := run_registry bidder [a]
      _ = some registry := run_registry _ before
  have hengine : EngineFor P.toNodePlatform t (textBytes manifestStr) content engine :=
    ⟨registry, engineName, hcontent, hregistry, hregistry ▸ hselect, hget⟩
  exact manifest_delivered P hP R hid D hfresh hparse htarget hreserved hengine

/-! ## On a reference platform -/

section Reference

/-- The platform of the reference node. -/
abbrev bidderPlatform : NodePlatform :=
  referenceClientPlatform.toNodePlatform.withCrypto referenceClientPlatform.toCryptoPlatform
    referenceKemKey

/-- The reference node, as it is started. -/
def bidder : Node Pods := startMachine "node" false [] ∅ podmanRegistry fourCoreNode

/-- Gossip is read without the key of the node. -/
theorem step_gossipsub_withCrypto (Q : NodePlatform) (C : CryptoPlatform) (skBytes : Bytes)
    (n : Node H) (wallMs : U64) (peer : String) (data : Bytes) :
    step (Q.withCrypto C skBytes) n (.deliver .gossipsub wallMs peer data) =
      step Q n (.deliver .gossipsub wallMs peer data) := rfl

/-- The message of a bid, at the reference node. -/
theorem step_bidderPlatform (n : Node Pods) (data : Bytes) :
    step bidderPlatform n (.deliver .gossipsub 0 "p" data) =
      step trusting n (.deliver .gossipsub 0 "p" data) :=
  step_gossipsub_withCrypto trusting _ _ n 0 "p" data

/-- What is granted is answered. -/
theorem answerCapacityRequest_replies {n : Node H} {req : CapacityRequest} {id m : String}
    (h : (answerCapacityRequest n req).act = some (.reserve id m)) :
    ∃ params, (answerCapacityRequest n req).response = some (.capacityReply params) ∧
      params.requestId = id := by
  rw [answerCapacityRequest] at h ⊢
  cases hm : extractManifestIdFromRequestId (req.requestId.getD "") with
  | none =>
    rw [hm] at h
    cases h
  | some m' =>
    simp only [hm] at h ⊢
    split_ifs at h ⊢
    · split at h
      · obtain ⟨hid, -⟩ := Act.reserve.inj (Option.some.inj h)
        exact ⟨_, rfl, hid⟩
      · cases h

/-- The bid of the reference node, as any other platform has it. -/
theorem step_bidder :
    step bidderPlatform bidder bidAction = step trusting referenceNode bidAction := by
  rw [bidAction, step_bidderPlatform]
  rfl

theorem bidder_bids : bidder.Bids bidderPlatform bidAction "m" := by
  have hgrant : step trusting referenceNode bidAction =
      answerCapacityRequest (referenceNode.noted "p" "a") (bid "m" 1800) :=
    step_capacityMessage (by decide) _
  have hact := step_bidAction.1
  rw [hgrant] at hact
  obtain ⟨params, hreply, hid⟩ := answerCapacityRequest_replies hact
  rw [Node.Bids, step_bidder, hgrant]
  exact ⟨params, hreply, by rw [hid]; decide⟩

/-- The reference node a second after its bid. -/
theorem bidder_waits :
    run (nodeStep bidderPlatform) (nodeStep bidderPlatform bidder bidAction)
        [.tick (Duration.fromSecs 1)] =
      { bidNode with now := bidNode.now + Duration.fromSecs 1 } := by
  have hnode : nodeStep bidderPlatform bidder bidAction = bidNode := by
    rw [nodeStep, step_bidder, step_bidAction.2]
  rw [hnode]
  rfl

/-- A second later the bid still stands, and what is delivered for it is run. -/
theorem bid_delivered_reference :
    ∃ D : Posting referenceClientPlatform referenceRoute podYaml "m",
      let t := run (nodeStep bidderPlatform) (nodeStep bidderPlatform bidder bidAction)
        [.tick (Duration.fromSecs 1)]
      (throughGateway referenceClientPlatform referenceHandler quietSurroundings gateway t
        referenceKemKey "node" D.bytes).1.act = some (.deploy "m" "beemesh-m") := by
  obtain ⟨D, hdraws⟩ := exists_posting
  refine ⟨D, ?_⟩
  intro t
  have ht : t = { bidNode with now := bidNode.now + Duration.fromSecs 1 } := bidder_waits
  have hfresh : D.Fresh gateway t := by
    rw [ht]
    exact ⟨by rw [hdraws]; decide, by decide⟩
  have htime : t.now < bidder.now + reservationHoldDuration := by
    rw [ht]
    decide
  have hparse : referenceClientPlatform.parsePeerId "node" = .ok "node" := rfl
  have hhost : selectRuntimeEngine none (some podmanRegistry) t.host = .ok "podman" := by
    rw [ht]
    rfl
  have hget : podmanRegistry.getEngine "podman" = some podman := AList.lookup_insert _
  obtain ⟨-, -, hact⟩ := bid_delivered referenceClientPlatform referenceClientPlatform_promises
    referenceRoute "node" [] ∅ podmanRegistry fourCoreNode [] [.tick (Duration.fromSecs 1)] bidAction
    (by decide) bidder_bids htime D hfresh hparse (by decide) rfl hhost hget
  have hdeployed : (podman.deployWorkload t.host "m" (textBytes podYaml)
      (appliedConfig D.draws.operationId)).1.map WorkloadInfo.id = Except.ok "beemesh-m" := by
    rw [ht]
    rfl
  exact (hact "beemesh-m").mpr hdeployed

end Reference

end Beemesh
