import Beemesh.Rest.Control

/-!
# Who owns what is applied

The owner of a manifest is the key under which a node deploys it. A client's request reaches the
deploying node through a gateway, which takes it on itself: at its own node it deploys under its own
signing key, and to another node it sends a request that it has signed with the keys on its disk.

## Main definitions

* `OwnedBy`: the owner that deletions are checked against
* `applyThrough`: a client's request, from the gateway to the node that deploys
* `deployingKey`: the key under which that node deploys

## Main results

* `applyThrough_owner`: what the deploying node records
* `applyThrough_ownedBy_iff`: when the client owns what it applied
-/

namespace Beemesh

variable {H : Type}

/-! ## Ownership -/

/-- `k` owns `m`: it is recorded, and no other key passes for it. -/
structure OwnedBy (n : Node H) (m : String) (k : Bytes) : Prop where
  recorded : n.owner m = some k
  match_self : verifyDeleteOwnership n m k = .match
  mismatch_of_ne : ∀ k', k' ≠ k → verifyDeleteOwnership n m k' = .mismatch

theorem ownedBy_iff {n : Node H} {m : String} {k : Bytes} :
    OwnedBy n m k ↔ n.owner m = some k ∧ k ≠ [] := by
  constructor
  · intro h
    refine ⟨h.recorded, ?_⟩
    rintro rfl
    have hstatus := h.match_self
    have hrecorded : n.manifestOwners.lookup m = some [] := h.recorded
    simp [verifyDeleteOwnership, hrecorded] at hstatus
  · rintro ⟨howner, hne⟩
    have hrecorded : n.manifestOwners.lookup m = some k := howner
    refine ⟨howner, by simp [verifyDeleteOwnership, hrecorded, hne], fun k' hk' => ?_⟩
    simp [verifyDeleteOwnership, hrecorded, hne, hk'.symm]

/-! ## From the client to the node that deploys -/

/-- A client's request at the gateway `g`, for `g` itself or for another node, which then handles
what the gateway sends it. -/
def applyThrough (P : MachinePlatform) (env : Surroundings) (delivery : Delivery) (g : Node H)
    (metadata : EnvelopeMetadata) (peer : String) (body : Bytes) (other : Option (Node H)) :
    Handled H :=
  let answered := applyDirect P env delivery g metadata peer body
  match other, answered.sent with
  | none, _ => { node := answered.node, act := answered.act }
  | some t, [] => { node := t }
  | some t, (_, bytes) :: _ => handleApplyMessage P.toNodePlatform t g.localPeer bytes

/-- The key under which the deploying node deploys: of the gateway in either case, unless the
gateway cannot sign, and the request is an envelope of its own. -/
def deployingKey (P : MachinePlatform) (env : Surroundings) (g : Node H) (body : Bytes) :
    Option (Node H) → Bytes
  | none => g.signingPubkey
  | some _ =>
    match env.keypair with
    | .ok (pubBytes, _) => pubBytes
    | .error _ =>
      match P.openEnvelope body with
      | .ok o => o.pubBytes
      | .error _ => []

section Deploy

variable (P : NodePlatform) {n : Node H}

theorem deploymentHandled_deploy {manifestId m id : String} {x : Except String String × Node H}
    (h : (deploymentHandled manifestId x).act = some (.deploy m id)) :
    manifestId = m ∧ x.1 = .ok id := by
  obtain ⟨result, n⟩ := x
  cases result with
  | ok workloadId =>
    obtain ⟨rfl, rfl⟩ := Act.deploy.inj (Option.some.inj h)
    exact ⟨rfl, rfl⟩
  | error e => exact nomatch h

/-- An apply request that deploys `m` records its key. -/
theorem applyRequest_owner {request key : Bytes} {m id : String}
    (h : (applyRequest P n request key).act = some (.deploy m id)) :
    (applyRequest P n request key).node.owner m = if key = [] then n.owner m else some key := by
  unfold applyRequest at h ⊢
  cases hread : P.rootAsApplyRequest request with
  | error e => simp [hread] at h
  | ok req =>
    simp only [hread] at h ⊢
    cases hjson : req.manifestJson with
    | none => simp [hjson] at h
    | some manifestJson =>
      simp only [hjson] at h ⊢
      by_cases hempty : req.manifestId.getD "" = ""
      · simp [hempty] at h
      · simp only [hempty, if_false] at h ⊢
        cases hreserved : (n.verifier.hasActiveReservationForManifest n.now
            (req.manifestId.getD "")).1 with
        | false => simp [hreserved] at h
        | true =>
          simp only [hreserved, if_true] at h ⊢
          obtain ⟨hm, hok⟩ := deploymentHandled_deploy h
          -- The id is not empty, so it is there, and is the one the deployment uses.
          obtain ⟨m', hm'⟩ : ∃ m', req.manifestId = some m' := by
            cases hid : req.manifestId with
            | none => simp [hid] at hempty
            | some m' => exact ⟨m', rfl⟩
          have hname : m = req.manifestId.getD "unknown" := by rw [← hm, hm']; rfl
          rw [deploymentHandled_node, processManifestDeployment_owner P hok]
          by_cases hkey : key = []
          · simp only [hkey, ne_eq, not_true_eq_false, false_and, if_false, if_true]
            rfl
          · simp only [hkey, hname, ne_eq, not_false_eq_true, and_self, if_true, if_false]

/-- A self-apply that deploys `m` records the signing key of the node. -/
theorem processEnhancedSelfApplyRequest_owner {manifest : Bytes} {m id : String}
    (h : (processEnhancedSelfApplyRequest P n manifest).act = some (.deploy m id)) :
    (processEnhancedSelfApplyRequest P n manifest).node.owner m =
      if n.signingPubkey = [] then n.owner m else some n.signingPubkey := by
  rcases processEnhancedSelfApplyRequest_cases P n manifest with hnone | ⟨req, json, hdeployed⟩
  · rw [hnone] at h
    exact nomatch h
  · rw [hdeployed] at h ⊢
    obtain ⟨hm, hok⟩ := deploymentHandled_deploy h
    dsimp only
    rw [deploymentHandled_node, processManifestDeployment_owner P hok]
    by_cases hkey : n.signingPubkey = []
    · simp [hkey]
    · simp [hkey, hm]

/-- A message that deploys `m` has verified, and records its key. -/
theorem handleApplyMessage_owner {peer : String} {bytes : Bytes} {m id : String}
    (h : (handleApplyMessage P n peer bytes).act = some (.deploy m id)) :
    ∃ o, P.openEnvelope bytes = .ok o ∧
      (handleApplyMessage P n peer bytes).node.owner m =
        if o.pubBytes = [] then n.owner m else some o.pubBytes := by
  unfold handleApplyMessage at h ⊢
  simp only [verifyEnvelopeAndCheckNonceForPeer] at h ⊢
  cases hverdict : (P.verifyFlatbufferEnvelopeForPeer n.nonceStore n.now bytes nonceWindow
      peer).1 with
  | error e => simp [hverdict, requireSignedMessages] at h
  | ok parts =>
    simp only [hverdict] at h ⊢
    obtain ⟨o, hopen, -, -, rfl⟩ := verify_ok_iff.mp hverdict
    exact ⟨o, hopen, applyRequest_owner P h⟩

end Deploy

/-! ## Apply requests for other nodes -/

section Sent

variable (P : MachinePlatform) (hround : P.EnvelopeRoundTrip) (hb64 : P.Base64RoundTrip)
  (env : Surroundings) {pubBytes skBytes : Bytes} (keys : P.KeyPair pubBytes skBytes)
  (hkeypair : env.keypair = .ok (pubBytes, skBytes)) {g : Node H} {target : String}
  (htarget : target ≠ g.localPeer) (body : Bytes)

include hround hb64 keys hkeypair htarget

/-- What the gateway sends is an envelope of the request, signed with the keys on its disk. -/
theorem handleSendApplyRequest_signed :
    ∃ bytes o, (handleSendApplyRequest P env g target body).sent = [(target, bytes)] ∧
      P.openEnvelope bytes = .ok o ∧ P.checkSignature o = .ok () ∧ o.pubBytes = pubBytes ∧
      o.parts.payload = body ∧ o.nonce = makeNonce (some "apply") env.nonceRandom := by
  obtain ⟨signed, o, hsigned, hopen, hsig, hpub, hcontent⟩ := openEnvelope_sign P.toPlatform hround
    hb64 keys "" env.wallMs body "apply_request"
    { nonce := some (makeNonce (some "apply") env.nonceRandom), timestamp := some env.wallMs }
    (show ':' ∉ "ml-dsa-65".toList by decide)
  refine ⟨signed.bytes, o, ?_, hopen, hsig, hpub, ?_, ?_⟩
  · simp only [handleSendApplyRequest, htarget, if_false, Platform.signPayloadDefault,
      Platform.signWithNodeKeys, hkeypair, anyhow, bind, Except.bind, hsigned, withContext]
    rfl
  · rw [Opened.parts, hcontent]
  · rw [Opened.nonce, hcontent]
    rfl

/-- **An apply request for another node arrives**: under a fresh nonce the receiver accepts it, with
the request as it was and the key of the gateway. -/
theorem applyRequest_arrives {H' : Type} (t : Node H') (peer : String)
    (hfresh : ¬ t.nonceStore.Live t.now nonceWindow peer
      (makeNonce (some "apply") env.nonceRandom)) :
    ∃ bytes parts, (handleSendApplyRequest P env g target body).sent = [(target, bytes)] ∧
      (verifyEnvelopeAndCheckNonceForPeer P.toNodePlatform t bytes peer).1 = .ok parts ∧
      parts.payload = body ∧ parts.pubkey = pubBytes := by
  obtain ⟨bytes, o, hsent, hopen, hsig, hpub, hpayload, hnonce⟩ :=
    handleSendApplyRequest_signed P hround hb64 env keys hkeypair htarget body
  refine ⟨bytes, o.parts, hsent, ?_, hpayload, hpub⟩
  exact verify_ok_iff.mpr ⟨o, hopen, .inr (hnonce ▸ hfresh), hsig, rfl⟩

end Sent

/-! ## Attribution -/

section Attribution

variable (P : MachinePlatform) (hround : P.EnvelopeRoundTrip) (hb64 : P.Base64RoundTrip)
  (env : Surroundings)
  (hkeys : ∀ pubBytes skBytes, env.keypair = .ok (pubBytes, skBytes) →
    Nonempty (P.KeyPair pubBytes skBytes))

include hround hb64 hkeys

/-- What the gateway sends opens with the key of the gateway, or, if it cannot sign, as the request
does. -/
theorem handleSendApplyRequest_sent {g : Node H} {target : String} (htarget : target ≠ g.localPeer)
    (body : Bytes) :
    ∃ bytes, (handleSendApplyRequest P env g target body).sent = [(target, bytes)] ∧
      ∀ o, P.openEnvelope bytes = .ok o → o.pubBytes = deployingKey P env g body (some g) := by
  cases hkeypair : env.keypair with
  | error e =>
    refine ⟨body, ?_, fun o hopen => ?_⟩
    · simp only [handleSendApplyRequest, htarget, if_false, Platform.signPayloadDefault,
        Platform.signWithNodeKeys, hkeypair]
      rfl
    · simp [deployingKey, hkeypair, hopen]
  | ok keypair =>
    obtain ⟨pubBytes, skBytes⟩ := keypair
    obtain ⟨keys⟩ := hkeys pubBytes skBytes hkeypair
    obtain ⟨bytes, o, hsent, hopen, -, hpub, -⟩ :=
      handleSendApplyRequest_signed P hround hb64 env keys hkeypair htarget body
    refine ⟨bytes, hsent, fun o' hopen' => ?_⟩
    obtain rfl : o' = o := Except.ok.inj (hopen'.symm.trans hopen)
    simp only [deployingKey, hkeypair, hpub]

/-- What the deploying node records for what it deploys. -/
theorem applyThrough_owner (delivery : Delivery) (g : Node H) (metadata : EnvelopeMetadata)
    (peer : String) (body : Bytes) (other : Option (Node H)) {m id : String}
    (h : (applyThrough P env delivery g metadata peer body other).act = some (.deploy m id)) :
    (applyThrough P env delivery g metadata peer body other).node.owner m =
      if deployingKey P env g body other = [] then (other.getD g).owner m
      else some (deployingKey P env g body other) := by
  unfold applyThrough applyDirect at h ⊢
  cases hparse : P.parsePeerId peer with
  | error e => cases other <;> simp [hparse] at h
  | ok target =>
    cases delivery with
    | refused e => cases other <;> simp [hparse] at h
    | closed => cases other <;> simp [hparse] at h
    | timedOut => cases other <;> simp [hparse] at h
    | handled =>
      simp only [hparse] at h ⊢
      by_cases htarget : target = g.localPeer
      · -- Handled by the gateway itself: another node is sent nothing.
        simp only [handleSendApplyRequest, htarget, if_true] at h ⊢
        cases other with
        | none => exact processEnhancedSelfApplyRequest_owner P.toNodePlatform h
        | some t => exact nomatch h
      · obtain ⟨bytes, hsent, hopens⟩ :=
          handleSendApplyRequest_sent P hround hb64 env hkeys htarget body
        cases other with
        | none => simp [handleSendApplyRequest, htarget] at h
        | some t =>
          simp only [hsent] at h ⊢
          obtain ⟨o, hopen, howner⟩ := handleApplyMessage_owner P.toNodePlatform h
          have hkey : o.pubBytes = deployingKey P env g body (some t) := hopens o hopen
          rw [howner, hkey]
          rfl

/-- **Who owns what a client applies**: the client does exactly when it has a key, and this is the
key the deploying node deploys under, or the recorded one when it deploys under none. -/
theorem applyThrough_ownedBy_iff (delivery : Delivery) (g : Node H) (metadata : EnvelopeMetadata)
    (peer : String) (body : Bytes) (other : Option (Node H)) (m id : String)
    (h : (applyThrough P env delivery g metadata peer body other).act = some (.deploy m id)) :
    OwnedBy (applyThrough P env delivery g metadata peer body other).node m
        metadata.signingPubkey ↔
      metadata.signingPubkey ≠ [] ∧
        if deployingKey P env g body other = [] then
          (other.getD g).owner m = some metadata.signingPubkey
        else metadata.signingPubkey = deployingKey P env g body other := by
  rw [ownedBy_iff, applyThrough_owner P hround hb64 env hkeys delivery g metadata peer body other h,
    and_comm]
  refine and_congr_right fun _ => ?_
  split_ifs
  · exact Iff.rfl
  · rw [Option.some.injEq]
    exact eq_comm

end Attribution

/-! ## On the reference node -/

/-- Key `7` on the platform that trusts it. -/
def trustedKeys : (referenceMachine trusting).KeyPair [7] [7] where
  pubk := [7]
  privk := [7]
  init := rfl
  pubBytes_eq := ⟨rfl, rfl⟩
  skBytes_eq := rfl
  verifies m := ⟨m, rfl, rfl, by simp [referenceMachine, trusting, referenceNodePlatform,
    referencePlatform]⟩

theorem trustedKeys_of_keypair (pubBytes skBytes : Bytes)
    (h : quietSurroundings.keypair = .ok (pubBytes, skBytes)) :
    Nonempty ((referenceMachine trusting).KeyPair pubBytes skBytes) := by
  obtain ⟨rfl, rfl⟩ := Prod.mk.inj (Except.ok.inj h)
  exact ⟨trustedKeys⟩

theorem referenceMachine_envelopeRoundTrip : (referenceMachine trusting).EnvelopeRoundTrip :=
  referencePlatform_envelopeRoundTrip _

theorem referenceMachine_base64RoundTrip : (referenceMachine trusting).Base64RoundTrip :=
  referencePlatform_base64RoundTrip _

/-- A gateway with key `7`. -/
def gateway : Node Pods := { referenceNode with localPeer := "gateway", signingPubkey := [7] }

/-- A client's request to apply the pod manifest as `m`, through the gateway to the node that
granted `m`. -/
def applyPodThrough (client : Bytes) : Handled Pods :=
  applyThrough (referenceMachine trusting) quietSurroundings .handled gateway ⟨none, client⟩ "node"
    (applyRequestCodec.write (applyPod "m")) (some bidNode)

theorem applyPodThrough_deploys (client : Bytes) :
    (applyPodThrough client).act = some (.deploy "m" ("beemesh-" ++ "m")) := by
  obtain ⟨bytes, parts, hsent, hverify, hpayload, hpubkey⟩ :=
    applyRequest_arrives (referenceMachine trusting) referenceMachine_envelopeRoundTrip
      referenceMachine_base64RoundTrip quietSurroundings trustedKeys rfl
      (show "node" ≠ gateway.localPeer by decide) (applyRequestCodec.write (applyPod "m")) bidNode
      "gateway" (by decide)
  have hparse : (referenceMachine trusting).parsePeerId "node" = .ok "node" := rfl
  simp only [applyPodThrough, applyThrough, applyDirect, hparse, hsent]
  change (handleApplyMessage trusting bidNode "gateway" bytes).act = _
  cases hcall : verifyEnvelopeAndCheckNonceForPeer trusting bidNode bytes "gateway" with
  | mk verdict n =>
    obtain rfl : verdict = .ok parts := (congrArg Prod.fst hcall).symm.trans hverify
    have hn : n = { bidNode with nonceStore := (trusting.verifyFlatbufferEnvelopeForPeer
        bidNode.nonceStore bidNode.now bytes nonceWindow "gateway").2 } :=
      (congrArg Prod.snd hcall).symm
    have hregistry : n.registry = some podmanRegistry := by rw [hn]; rfl
    have hreserved : (n.verifier.hasActiveReservationForManifest n.now "m").1 = true := by
      rw [hn]
      change (bidNode.verifier.hasActiveReservationForManifest bidNode.now "m").1 = true
      decide
    simp only [handleApplyMessage, hcall, hpayload]
    exact (applyRequest_podman parts.pubkey hregistry (by decide) hreserved).1

/-- Whoever the client is, the node records the key of the gateway. -/
theorem applyPodThrough_owner (client : Bytes) :
    (applyPodThrough client).node.owner "m" = some [7] := by
  have howner := applyThrough_owner (referenceMachine trusting) referenceMachine_envelopeRoundTrip
    referenceMachine_base64RoundTrip quietSurroundings trustedKeys_of_keypair .handled gateway
    ⟨none, client⟩ "node" (applyRequestCodec.write (applyPod "m")) (some bidNode)
    (applyPodThrough_deploys client)
  have hkey : deployingKey (referenceMachine trusting) quietSurroundings gateway
      (applyRequestCodec.write (applyPod "m")) (some bidNode) = [7] := rfl
  rw [hkey, if_neg (by decide)] at howner
  exact howner

/-- A client that shares the key of the gateway owns what it applies. -/
theorem applyThrough_ownedBy_gateway : OwnedBy (applyPodThrough [7]).node "m" [7] :=
  (applyThrough_ownedBy_iff (referenceMachine trusting) referenceMachine_envelopeRoundTrip
    referenceMachine_base64RoundTrip quietSurroundings trustedKeys_of_keypair .handled gateway
    ⟨none, [7]⟩ "node" (applyRequestCodec.write (applyPod "m")) (some bidNode) "m" _
    (applyPodThrough_deploys [7])).mpr ⟨by decide, rfl⟩

/-- A client with key `8` applies `m` through the gateway. The gateway owns it. -/
theorem applyThrough_not_ownedBy_client :
    (applyPodThrough [8]).act = some (.deploy "m" ("beemesh-" ++ "m")) ∧
      (applyPodThrough [8]).node.owner "m" = some [7] ∧
      ¬ OwnedBy (applyPodThrough [8]).node "m" [8] := by
  refine ⟨applyPodThrough_deploys [8], applyPodThrough_owner [8], ?_⟩
  intro h
  exact absurd ((applyPodThrough_owner [8]).symm.trans h.recorded) (by decide)

end Beemesh
