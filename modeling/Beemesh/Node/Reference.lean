import Beemesh.Envelope.Reference
import Beemesh.Node.System

/-!
# A reference node

The reference platform with readers for the tables of a node, and an engine in the manner of podman:
pods by manifest id, replaced when the id comes back, listed by the labels they carry, which are
none. Runs of a node are tried on it.

## Main definitions

* `referenceNodePlatform issued`: the platform of a node on which `k` has signed `m` when
  `issued k m`
* `podman`, `referenceNode`: the engine, and a node that runs it

## Main results

* `verify_sealed`: the node accepts what is signed, under a nonce that is not live
* `step_capacityMessage`, `step_applyMessage`: a bid and a deployment on the reference node
-/

namespace Beemesh

/-! ## Tables -/

def capacityRequestCodec : Codec CapacityRequest :=
  (Codec.string.option.prod <| (Codec.bitVec 32).prod <| (Codec.bitVec 64).prod <|
    (Codec.bitVec 64).prod (Codec.bitVec 32)).retract
    (fun q => (q.requestId, q.cpuMilli, q.memoryBytes, q.storageBytes, q.replicas))
    (fun (requestId, cpuMilli, memoryBytes, storageBytes, replicas) =>
      some ⟨requestId, cpuMilli, memoryBytes, storageBytes, replicas⟩)
    fun _ => rfl

def capacityReplyCodec : Codec CapacityReply :=
  (Codec.string.option.prod Codec.string.option).retract (fun q => (q.requestId, q.kemPubkey))
    (fun (requestId, kemPubkey) => some ⟨requestId, kemPubkey⟩) fun _ => rfl

def applyRequestCodec : Codec ApplyRequest :=
  ((Codec.bitVec 32).prod <| Codec.string.option.prod <|
    Codec.string.option.prod Codec.string.option).retract
    (fun q => (q.replicas, q.operationId, q.manifestJson, q.manifestId))
    (fun (replicas, operationId, manifestJson, manifestId) =>
      some ⟨replicas, operationId, manifestJson, manifestId⟩)
    fun _ => rfl

def deleteRequestCodec : Codec DeleteRequest :=
  (Codec.string.option.prod <| Codec.string.option.prod (Codec.bitVec 1)).retract
    (fun q => (q.manifestId, q.operationId, BitVec.ofBool q.force))
    (fun (manifestId, operationId, force) => some ⟨manifestId, operationId, force == 1#1⟩)
    fun q => by cases q with | mk _ _ force => cases force <;> rfl

/-- The platform of a node on which key `k` has signed `m` when `issued k m`. A recipient blob is
its plaintext behind the version byte, and no manifest has replicas or annotations. -/
def referenceNodePlatform (issued : Bytes → Bytes → Bool) : NodePlatform where
  toPlatform := referencePlatform issued
  rootAsCapacityRequest bs := readOr "invalid flatbuffer" (capacityRequestCodec.read bs)
  rootAsCapacityReply bs := readOr "invalid flatbuffer" (capacityReplyCodec.read bs)
  rootAsApplyRequest bs := readOr "invalid flatbuffer" (applyRequestCodec.read bs)
  rootAsDeleteRequest bs := readOr "invalid flatbuffer" (deleteRequestCodec.read bs)
  kemPrivateKey := .ok []
  decryptPayloadFromRecipientBlob blob _ := .ok blob.tail
  modifyManifestReplicas := .ok
  runtimeEngineAnnotation _ := none

/-! ## The engine -/

/-- Pods by manifest id, with their labels. -/
abbrev Pods := Table String (Table String String)

/-- An engine in the manner of podman. -/
def podman : RuntimeEngine Pods where
  isAvailable _ := true
  deployWorkload pods manifestId _ _ :=
    (.ok ⟨"beemesh-" ++ manifestId, manifestId, ∅⟩, pods.insert manifestId ∅)
  listWorkloads pods := .ok (pods.entries.map fun pod => ⟨"beemesh-" ++ pod.1, pod.1, pod.2⟩)
  removeWorkload pods workloadId :=
    (.ok (), pods.retain fun manifestId _ => "beemesh-" ++ manifestId ≠ workloadId)

/-- The registry with this engine for its default. -/
def podmanRegistry : RuntimeRegistry Pods where
  engines := (∅ : Table String (RuntimeEngine Pods)).insert "podman" podman
  defaultEngine := some "podman"

/-- A node before its workload manager starts. -/
def blankNode : Node Pods where
  localPeer := "node"
  schedulingDisabled := false
  signingPubkey := []
  verifier := ⟨fourCoreNode, ∅⟩
  nonceStore := ∅
  manifestOwners := ∅
  registry := none
  localProviders := none
  pendingQueries := ∅
  deleteTasks := []
  host := ∅
  now := 0

/-- That node right after `initialize_workload_manager`, with four cores and no workloads. -/
def referenceNode : Node Pods := initializeWorkloadManager blankNode podmanRegistry fourCoreNode

/-! ## Messages -/

/-- The platform on which key `7` has signed everything. -/
def trusting : NodePlatform := referenceNodePlatform fun key _ => key == [7]

/-- The payload in an envelope signed at time zero by key `7`. -/
def sealed (payload : Bytes) (nonce : String) : Bytes :=
  let c : Content := ⟨payload, "", nonce, 0, "ml-dsa-65", "", ""⟩
  c.bytes [7] c.canonicalBytes

/-- A capacity request for one replica of a manifest. -/
def bid (m : String) (cpuMilli : U32) : CapacityRequest :=
  ⟨some ("beemesh-free-capacity:" ++ m ++ ":1"), cpuMilli, 0, 0, 1⟩

def capacityMessage (req : CapacityRequest) (nonce : String) : Bytes :=
  sealed (capacityRequestCodec.write req) nonce

/-- The text of a pod manifest. -/
def podYaml : String := "apiVersion: v1\nkind: Pod\n"

/-- The pod manifest, as a recipient blob in a `manifest` envelope. -/
def podManifest : String :=
  Base64.encode (envelopeCodec.write
    { payload := some (0x02 :: podYaml.toUTF8.data.toList)
      payloadType := some "manifest"
      nonce := none
      ts := 0
      alg := none
      sig := none
      pubkey := none
      kemPubkey := none
      peerId := none })

def applyMessage (manifestId nonce : String) : Bytes :=
  sealed (applyRequestCodec.write ⟨1, none, some podManifest, some manifestId⟩) nonce

/-- The node after the nonce has been checked. -/
def Node.noted (n : Node Pods) (peer nonce : String) : Node Pods :=
  { n with nonceStore := (checkNonce n.nonceStore n.now nonce nonceWindow peer).2 }

/-- The payload in an envelope signed at time zero by any key. -/
def sealedBy (key payload : Bytes) (nonce : String) : Bytes :=
  let c : Content := ⟨payload, "", nonce, 0, "ml-dsa-65", "", ""⟩
  c.bytes key c.canonicalBytes

/-- What a key has sealed is accepted under a nonce that is not live, where it has signed
everything. -/
theorem verify_sealedBy {issued : Bytes → Bytes → Bool} {key : Bytes}
    (hissued : ∀ m, issued key m = true) {n : Node Pods} {peer nonce : String}
    (hnonce : ¬ n.nonceStore.Live n.now nonceWindow peer nonce) (payload : Bytes) :
    ∃ parts, verifyEnvelopeAndCheckNonceForPeer (referenceNodePlatform issued) n
        (sealedBy key payload nonce) peer = (.ok parts, n.noted peer nonce) ∧
      parts.payload = payload ∧ parts.pubkey = key ∧ parts.timestampMs = 0 := by
  let c : Content := ⟨payload, "", nonce, 0, "ml-dsa-65", "", ""⟩
  refine ⟨⟨payload, key, c.canonicalBytes, 0, ""⟩, Prod.ext ?_ ?_, rfl, rfl, rfl⟩
  · exact (verify_bytes_ok_iff _ c key c.canonicalBytes _ _ _ peer _).mpr
      ⟨.inr hnonce, hissued _, rfl, rfl⟩
  · exact congrArg (fun store => { n with nonceStore := store })
      (verify_bytes_snd _ c key c.canonicalBytes _ _ _ peer)

/-- A sealed payload is accepted under a nonce that is not live. -/
theorem verify_sealed {n : Node Pods} {peer nonce : String}
    (hnonce : ¬ n.nonceStore.Live n.now nonceWindow peer nonce) (payload : Bytes) :
    ∃ parts, verifyEnvelopeAndCheckNonceForPeer trusting n (sealed payload nonce) peer =
        (.ok parts, n.noted peer nonce) ∧
      parts.payload = payload ∧ parts.pubkey = [7] ∧ parts.timestampMs = 0 :=
  verify_sealedBy (fun _ => rfl) hnonce payload

/-- A handler that verifies accepts it. -/
theorem verifiedParts_sealed {n : Node Pods} {handler : Handler} {peer nonce : String}
    (hverifies : handler.verifies n = true)
    (hnonce : ¬ n.nonceStore.Live n.now nonceWindow peer nonce) (payload : Bytes) :
    ∃ parts, verifiedParts trusting n handler peer (sealed payload nonce) = some parts := by
  obtain ⟨parts, hverify, -⟩ := verify_sealed hnonce payload
  rw [verifiedParts, if_pos hverifies, verifySignedMessage, hverify]
  exact ⟨parts, rfl⟩

section Tables

variable (issued : Bytes → Bytes → Bool)

theorem referenceNodePlatform_rootAsCapacityRequest (req : CapacityRequest) :
    (referenceNodePlatform issued).rootAsCapacityRequest (capacityRequestCodec.write req) =
      .ok req :=
  readOr_eq_ok_iff.mpr (Codec.read_write capacityRequestCodec req)

theorem referenceNodePlatform_rootAsCapacityReply (reply : CapacityReply) :
    (referenceNodePlatform issued).rootAsCapacityReply (capacityReplyCodec.write reply) =
      .ok reply :=
  readOr_eq_ok_iff.mpr (Codec.read_write capacityReplyCodec reply)

theorem referenceNodePlatform_rootAsApplyRequest (req : ApplyRequest) :
    (referenceNodePlatform issued).rootAsApplyRequest (applyRequestCodec.write req) = .ok req :=
  readOr_eq_ok_iff.mpr (Codec.read_write applyRequestCodec req)

theorem referenceNodePlatform_rootAsDeleteRequest (req : DeleteRequest) :
    (referenceNodePlatform issued).rootAsDeleteRequest (deleteRequestCodec.write req) =
      .ok req :=
  readOr_eq_ok_iff.mpr (Codec.read_write deleteRequestCodec req)

/-- A recipient blob in a `manifest` envelope decrypts to its text. -/
theorem referenceNodePlatform_decryptManifestContent {e : Envelope} {text : String}
    (htype : e.payloadType = some "manifest")
    (hpayload : e.payload = some (0x02 :: text.toUTF8.data.toList)) :
    (referenceNodePlatform issued).decryptManifestContent
      (Base64.encode (envelopeCodec.write e)) = .ok text.toUTF8.data.toList := by
  have hdecrypt : (referenceNodePlatform issued).decryptManifestFromEnvelope
      (0x02 :: text.toUTF8.data.toList) = .ok text.toUTF8.data.toList := by
    have hutf8 : (⟨⟨text.toUTF8.data.toList⟩⟩ : ByteArray).IsValidUTF8 := text.isValidUTF8
    have hsome : (String.fromUTF8? ⟨⟨text.toUTF8.data.toList⟩⟩).isSome = true := by
      rw [String.fromUTF8?, dif_pos hutf8]
      rfl
    rw [NodePlatform.decryptManifestFromEnvelope, if_neg (by simp)]
    change (if (String.fromUTF8? ⟨⟨text.toUTF8.data.toList⟩⟩).isSome then _ else _) = _
    rw [if_pos hsome]
    rfl
  rw [NodePlatform.decryptManifestContent]
  refine bind_eq_ok_iff.mpr ⟨_, referencePlatform_base64RoundTrip issued _, ?_⟩
  refine bind_eq_ok_iff.mpr ⟨_, referencePlatform_envelopeRoundTrip issued e, ?_⟩
  rw [htype, hpayload, Option.getD_some, if_pos rfl]
  simp only [hdecrypt]

end Tables

/-! ## Steps -/

/-- A capacity request for which there is room, under an id that names its manifest, is granted. -/
theorem answerCapacityRequest_granted {H : Type} (n : Node H) (req : CapacityRequest)
    (id m : String) (hid : req.requestId = some id)
    (hm : extractManifestIdFromRequestId id = some m) (hroom : n.verifier.hasRoom n.now req = true)
    (hok : ((n.verifier.pruned n.now).reserveCapacity (.at n.now) id (some m) req.resources).1 =
      .ok ()) :
    (answerCapacityRequest n req).act = some (.reserve id m) ∧
      (answerCapacityRequest n req).node = { n with
        verifier := ((n.verifier.pruned n.now).reserveCapacity (.at n.now) id (some m)
          req.resources).2 } := by
  have hcheck : (n.verifier.verifyCapacity n.now req.resources).1.hasCapacity = true := hroom
  cases hcall : (n.verifier.pruned n.now).reserveCapacity (.at n.now) id (some m) req.resources with
  | mk result v =>
    rw [hcall] at hok
    obtain rfl : result = .ok () := hok
    rw [ResourceVerifier.pruned] at hcall
    simp [answerCapacityRequest, hid, hm, hcheck, hcall]

/-- A fresh capacity message verifies, and carries its request. -/
theorem verifySignedMessage_capacityMessage {n : Node Pods} {peer nonce : String}
    (hnonce : ¬ n.nonceStore.Live n.now nonceWindow peer nonce) (req : CapacityRequest) :
    ∃ parts, verifySignedMessage trusting n (capacityMessage req nonce) peer =
        (some parts, n.noted peer nonce) ∧
      trusting.rootAsCapacityRequest parts.payload = .ok req ∧
      stale 0 parts.timestampMs = false := by
  obtain ⟨parts, hverify, hpayload, -, hts⟩ :=
    verify_sealed hnonce (capacityRequestCodec.write req)
  refine ⟨parts, ?_, ?_, ?_⟩
  · rw [verifySignedMessage, capacityMessage, hverify]
  · rw [hpayload]
    exact referenceNodePlatform_rootAsCapacityRequest _ req
  · rw [hts]
    rfl

/-- A fresh capacity message is answered. -/
theorem step_capacityMessage {n : Node Pods} {peer nonce : String}
    (hnonce : ¬ n.nonceStore.Live n.now nonceWindow peer nonce) (req : CapacityRequest) :
    step trusting n (.deliver .gossipsub 0 peer (capacityMessage req nonce)) =
      answerCapacityRequest (n.noted peer nonce) req := by
  obtain ⟨parts, hverify, hread, hfresh⟩ := verifySignedMessage_capacityMessage hnonce req
  simp only [step, dispatch, gossipsubMessage, hverify, hread, hfresh, Bool.false_eq_true,
    if_false]

/-- A manifest that decrypts, and asks for no engine, is deployed by podman. -/
theorem processManifestDeployment_podman {P : NodePlatform} {n : Node Pods} {req : ApplyRequest}
    {manifestJson m : String} {content content' owner : Bytes}
    (hregistry : n.registry = some podmanRegistry) (hm : req.manifestId = some m)
    (hdecrypt : P.decryptManifestContent manifestJson = .ok content)
    (hmodify : P.modifyManifestReplicas content = .ok content')
    (hrequested : P.runtimeEngineAnnotation content' = none) :
    let out := processManifestDeployment P n req manifestJson owner
    out.1 = .ok ("beemesh-" ++ m) ∧ out.2.registry = some podmanRegistry := by
  have hengine : podmanRegistry.getEngine "podman" = some podman := AList.lookup_insert _
  have hselect (host : Pods) : selectRuntimeEngine none (some podmanRegistry) host =
      .ok "podman" := by
    simp [selectRuntimeEngine, RuntimeRegistry.available, hengine, podman]
  have howner : (if owner = [] then n else { n with
      manifestOwners := n.manifestOwners.insert m owner }).registry = some podmanRegistry := by
    split_ifs <;> exact hregistry
  simp only [processManifestDeployment, hdecrypt, hm, Option.getD_some, hmodify, hrequested,
    howner, hselect, hengine]
  exact ⟨rfl, rfl⟩

/-- The request to apply the pod manifest under an id. -/
def applyPod (m : String) : ApplyRequest := ⟨1, none, some podManifest, some m⟩

/-- An apply request under an active reservation deploys its manifest, whoever signed it. -/
theorem applyRequest_podman {n : Node Pods} {m : String} (key : Bytes)
    (hregistry : n.registry = some podmanRegistry) (hm : m ≠ "")
    (hreserved : (n.verifier.hasActiveReservationForManifest n.now m).1 = true) :
    let out := applyRequest trusting n (applyRequestCodec.write (applyPod m)) key
    out.act = some (.deploy m ("beemesh-" ++ m)) ∧
      out.node.core = { n.core with verifier := n.verifier.pruned n.now } ∧
      out.node.registry = some podmanRegistry := by
  have hread : trusting.rootAsApplyRequest (applyRequestCodec.write (applyPod m)) =
      .ok (applyPod m) := referenceNodePlatform_rootAsApplyRequest _ _
  -- The node the deployment starts from: expired reservations dropped.
  let n' : Node Pods := { n with verifier := n.verifier.pruned n.now }
  have happly : applyRequest trusting n (applyRequestCodec.write (applyPod m)) key =
      deploymentHandled m (processManifestDeployment trusting n' (applyPod m) podManifest key) := by
    simp only [applyRequest, hread]
    simp only [applyPod, Option.getD_some, if_neg hm, hreserved, if_true]
    rfl
  intro out
  have hdecrypt : trusting.decryptManifestContent podManifest =
      .ok podYaml.toUTF8.data.toList :=
    referenceNodePlatform_decryptManifestContent _ rfl rfl
  have hdeployment : let out := processManifestDeployment trusting n' (applyPod m) podManifest key
      out.1 = .ok ("beemesh-" ++ m) ∧ out.2.registry = some podmanRegistry :=
    processManifestDeployment_podman hregistry rfl hdecrypt rfl rfl
  have hcore := processManifestDeployment_core trusting n' (applyPod m) podManifest key
  rw [show out = _ from happly]
  generalize processManifestDeployment trusting n' (applyPod m) podManifest key = result
    at hdeployment hcore
  obtain ⟨deployed, node⟩ := result
  obtain ⟨rfl, hkept⟩ := hdeployment
  exact ⟨rfl, hcore, hkept⟩

/-- A fresh apply message under an active reservation deploys its manifest. -/
theorem step_applyMessage (n : Node Pods) (peer nonce m : String)
    (hnonce : ¬ n.nonceStore.Live n.now nonceWindow peer nonce)
    (hregistry : n.registry = some podmanRegistry) (hm : m ≠ "")
    (hreserved : (n.verifier.hasActiveReservationForManifest n.now m).1 = true) :
    let out := step trusting n (.deliver .apply 0 peer (applyMessage m nonce))
    out.act = some (.deploy m ("beemesh-" ++ m)) ∧
      out.node.core = { (n.noted peer nonce).core with verifier := n.verifier.pruned n.now } ∧
      out.node.registry = some podmanRegistry := by
  obtain ⟨parts, hverify, hpayload, hpubkey, -⟩ :=
    verify_sealed hnonce (applyRequestCodec.write (applyPod m))
  have happly : step trusting n (.deliver .apply 0 peer (applyMessage m nonce)) =
      applyRequest trusting (n.noted peer nonce) (applyRequestCodec.write (applyPod m)) [7] := by
    change handleApplyMessage trusting n peer
      (sealed (applyRequestCodec.write (applyPod m)) nonce) = _
    simp only [handleApplyMessage, hverify, hpayload, hpubkey]
  rw [happly]
  exact applyRequest_podman (n := n.noted peer nonce) [7] hregistry hm hreserved

/-! ## One grant -/

/-- Peer `p` asks for half of the allocatable CPU for manifest `m`. -/
def bidAction : Action Pods :=
  .deliver .gossipsub 0 "p" (capacityMessage (bid "m" 1800) "a")

/-- The reference node once it has granted that. -/
def bidNode : Node Pods :=
  { referenceNode.noted "p" "a" with
    verifier := ((referenceNode.verifier.pruned 0).reserveCapacity (.at 0)
      "beemesh-free-capacity:m:1" (some "m") (bid "m" 1800).resources).2 }

theorem step_bidAction :
    (step trusting referenceNode bidAction).act =
        some (.reserve "beemesh-free-capacity:m:1" "m") ∧
      (step trusting referenceNode bidAction).node = bidNode := by
  have hstep : step trusting referenceNode bidAction =
      answerCapacityRequest (referenceNode.noted "p" "a") (bid "m" 1800) :=
    step_capacityMessage (by decide) _
  rw [hstep]
  exact answerCapacityRequest_granted _ _ "beemesh-free-capacity:m:1" "m" rfl (by decide)
    (by decide) (by decide)

/-- Peer `p` applies manifest `m`. -/
def applyAction (nonce : String) : Action Pods := .deliver .apply 0 "p" (applyMessage "m" nonce)

/-- While the grant is held every apply under a fresh nonce deploys, and the grant stays. -/
theorem step_applyAction {n : Node Pods} {store : NonceStore} (nonce : String)
    (hcore : n.core = { bidNode.core with nonceStore := store })
    (hregistry : n.registry = some podmanRegistry)
    (hnonce : ¬ store.Live 0 nonceWindow "p" nonce) :
    let out := step trusting n (applyAction nonce)
    out.act = some (.deploy "m" "beemesh-m") ∧
      out.node.core = { bidNode.core with
        nonceStore := (checkNonce store 0 nonce nonceWindow "p").2 } ∧
      out.node.registry = some podmanRegistry := by
  have hverifier : n.verifier = bidNode.verifier := congrArg Core.verifier hcore
  have hstore : n.nonceStore = store := congrArg Core.nonceStore hcore
  have htasks : n.deleteTasks = bidNode.deleteTasks := congrArg Core.deleteTasks hcore
  have hnow : n.now = 0 := congrArg Core.now hcore
  have hheld : bidNode.verifier.pruned 0 = bidNode.verifier := rfl
  obtain ⟨hact, hnode, hkept⟩ := step_applyMessage n "p" nonce "m"
    (by rwa [hstore, hnow]) hregistry (by decide) (by rw [hverifier, hnow]; decide)
  have hname : "beemesh-" ++ "m" = "beemesh-m" := by decide
  rw [hname] at hact
  rw [applyAction]
  refine ⟨hact, hnode.trans ?_, hkept⟩
  simp only [Node.noted, Node.core, hverifier, hstore, htasks, hnow, hheld]
  rfl

/-- Peer `p` asks for CPU for manifest `m2`. -/
def secondBidAction (cpuMilli : U32) : Action Pods :=
  .deliver .gossipsub 0 "p" (capacityMessage (bid "m2" cpuMilli) "c")

/-- The call that answers it, on the verifier with the first grant. -/
def secondBidCall (now : Instant) (cpuMilli : U32) : Except String Unit × ResourceVerifier :=
  (bidNode.verifier.pruned now).reserveCapacity (.at now) "beemesh-free-capacity:m2:1" (some "m2")
    (bid "m2" cpuMilli).resources

theorem step_secondBidAction {n : Node Pods} {store : NonceStore} {now : Instant} (cpuMilli : U32)
    (hcore : n.core = { bidNode.core with nonceStore := store, now := now })
    (hnonce : ¬ store.Live now nonceWindow "p" "c")
    (hroom : bidNode.verifier.hasRoom now (bid "m2" cpuMilli) = true)
    (hok : (secondBidCall now cpuMilli).1 = .ok ()) :
    let out := step trusting n (secondBidAction cpuMilli)
    out.act = some (.reserve "beemesh-free-capacity:m2:1" "m2") ∧
      out.node.verifier = (secondBidCall now cpuMilli).2 ∧ out.node.now = now := by
  have hverifier : n.verifier = bidNode.verifier := congrArg Core.verifier hcore
  have hstore : n.nonceStore = store := congrArg Core.nonceStore hcore
  have hnow : n.now = now := congrArg Core.now hcore
  have hstep : step trusting n (secondBidAction cpuMilli) =
      answerCapacityRequest (n.noted "p" "c") (bid "m2" cpuMilli) :=
    step_capacityMessage (by rwa [hstore, hnow]) _
  have hverifier' : (n.noted "p" "c").verifier = bidNode.verifier := hverifier
  have hnow' : (n.noted "p" "c").now = now := hnow
  have hid : (bid "m2" cpuMilli).requestId = some "beemesh-free-capacity:m2:1" := rfl
  obtain ⟨hact, hnode⟩ := answerCapacityRequest_granted (n.noted "p" "c") (bid "m2" cpuMilli)
    "beemesh-free-capacity:m2:1" "m2" hid (by decide) (by rwa [hverifier', hnow'])
    (by rw [hverifier', hnow']; exact hok)
  rw [hverifier', hnow'] at hnode
  rw [hstep]
  exact ⟨hact, congrArg Node.verifier hnode, congrArg Node.now hnode⟩

end Beemesh
