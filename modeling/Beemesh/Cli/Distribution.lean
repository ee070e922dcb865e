import Beemesh.Cli.Exchange
import Beemesh.Lib.Attempts
import Beemesh.Rest.Attribution

/-!
# The distribution of a manifest

`apply_file` encrypts a manifest for each of the nodes that it has selected, one node after the
other, and has its machine, the gateway, forward an apply request with it. The node unwraps the
manifest and deploys it. The gateway does not wait for the node: what it answers is that it has
forwarded the request. At the first node for which something fails the client gives up.

## Main definitions

* `ClientPlatform`: what client and machines share
* `buildNodeRequest`: the apply request for a node
* `throughGateway`: what the node does with a request that is posted to the gateway
* `Route`, `Posting`: a client, a gateway and a node with their keys, and a request between them
* `applyNode`, `applyNodes`: the loop over the nodes

## Main results

* `manifest_delivered`: the node runs its engine on the manifest that the client had
* `applyNodes_spec`: how far the loop gets
-/

namespace Beemesh

open Outcome CryptoPlatform

/-- The operations of the machines, with those of their crypto library, and the one that builds
apply requests: replicas, operation id, manifest, origin peer and manifest id. -/
structure ClientPlatform extends MachinePlatform, CryptoPlatform where
  buildApplyRequest : U32 → String → String → String → String → Bytes

/-- Reading an apply request gives back its fields. -/
def ClientPlatform.ApplyRequestRoundTrip (P : ClientPlatform) : Prop :=
  ∀ replicas operationId manifestJson originPeer manifestId,
    P.rootAsApplyRequest
        (P.buildApplyRequest replicas operationId manifestJson originPeer manifestId) =
      .ok ⟨replicas, some operationId, some manifestJson, some manifestId⟩

/-- What the request for a node draws. -/
structure NodeDraws where
  seed : Bytes
  nonceBytes : Bytes
  operationId : String
  /-- What posting it draws. -/
  post : RequestDraws

variable {H : Type} (P : ClientPlatform)

/-! ## One node -/

/-- The body of the loop of `apply_file`, up to the request that it sends. -/
def buildNodeRequest (ts : U64) (manifestStr manifestId : String) (draws : NodeDraws)
    (node : String × String) : Except AnyhowError Bytes := do
  let (nodeId, nodePubkey) := node
  let nodePubkeyBytes ← mapErr (s!"Failed to decode node public key for {nodeId}: " ++ ·)
    (P.base64Decode nodePubkey)
  let encryptedBlob ← P.toCryptoPlatform.encryptPayloadForRecipient draws.seed draws.nonceBytes
    nodePubkeyBytes (textBytes manifestStr)
  let encryptedManifestBytes := P.buildEnvelopeCanonicalWithPeer encryptedBlob "manifest" "" ts
    "ml-kem-512" "" none
  return P.buildApplyRequest 1 draws.operationId (P.base64Encode encryptedManifestBytes) ""
    manifestId

/-- What a node with this KEM key does when a gateway forwards it a request. -/
def deliver (env : Surroundings) (g t : Node H) (targetKey : Bytes) (metadata : EnvelopeMetadata)
    (peer : String) (body : Bytes) : Handled H :=
  match (applyDirect P.toMachinePlatform env .handled g metadata peer body).sent with
  | [] => { node := t }
  | (_, bytes) :: _ =>
    handleApplyMessage (P.toNodePlatform.withCrypto P.toCryptoPlatform targetKey) t g.localPeer
      bytes

/-- What it does when a client posts one to the gateway, and what the gateway answers. -/
def throughGateway (handler : EnvelopeHandler) (env : Surroundings) (g t : Node H)
    (targetKey : Bytes) (peer : String) (bytes : Bytes) : Handled H × Option Response :=
  match (P.toCryptoPlatform.envelopeMiddleware handler g.nonceStore g.now
    (envelopeRequest (.applyDirect peer) bytes)).1 with
  | .next ⟨.applyDirect peer, metadata, some body⟩ =>
    (deliver P env g t targetKey metadata.toEnvelopeMetadata peer body,
      some (applyDirect P.toMachinePlatform env .handled g metadata.toEnvelopeMetadata peer
        body).response)
  | _ => ({ node := t }, none)

section Deliver

variable {P}

/-- **What is encrypted for a node, it unwraps.** -/
theorem decryptManifestContent_nodeRequest (hround : P.EnvelopeRoundTrip)
    (hb64 : P.Base64RoundTrip) (haes : P.toCryptoPlatform.AesGcmRoundTrip)
    {targetPub targetKey : Bytes} (kems : P.toCryptoPlatform.KemKeyPair targetPub targetKey)
    {ts : U64} {manifestStr manifestId nodeId : String} {draws : NodeDraws}
    (hdraws : draws.nonceBytes.length = 12)
    (hfits : P.toCryptoPlatform.FieldsFit draws.seed draws.nonceBytes targetPub
      (textBytes manifestStr)) {request : Bytes}
    (h : buildNodeRequest P ts manifestStr manifestId draws (nodeId, P.base64Encode targetPub) =
      .ok request) :
    ∃ manifestJson, request = P.buildApplyRequest 1 draws.operationId manifestJson "" manifestId ∧
      (P.toNodePlatform.withCrypto P.toCryptoPlatform targetKey).decryptManifestContent
        manifestJson = .ok (textBytes manifestStr) := by
  simp only [buildNodeRequest, Beemesh.bind_eq_ok_iff, mapErr_eq_ok_iff] at h
  obtain ⟨key, hkey, blob, hblob, hrequest⟩ := h
  obtain rfl := Except.ok.inj ((hb64 targetPub).symm.trans hkey)
  refine ⟨_, (Except.ok.inj hrequest).symm, ?_⟩
  have hopens : P.Opens (P.base64Encode (P.buildEnvelopeCanonicalWithPeer blob "manifest" "" ts
      "ml-kem-512" "" none)) (Platform.envelopeArgs blob "manifest" "" ts "ml-kem-512" "" "" none
        "") :=
    ⟨_, hb64 _, hround _⟩
  have htype : (Platform.envelopeArgs blob "manifest" "" ts "ml-kem-512" "" "" none
      "").payloadType.getD "" = "manifest" := rfl
  apply (decryptManifestContent_of_opens hopens).mpr
  rw [if_pos htype]
  exact ⟨blob, rfl, (decryptManifestFromEnvelope_eq_ok_iff haes.toAesGcmLengths).mpr
    ⟨manifestStr, rfl, recipientBlob_of_encrypt haes kems hdraws hfits hblob⟩⟩

/-- A request for a manifest that the node has reserved for is deployed. -/
theorem applyRequest_of_reserved {Q : NodePlatform} {n : Node H} {request key : Bytes}
    {req : ApplyRequest} {manifestJson manifestId : String}
    (hread : Q.rootAsApplyRequest request = .ok req) (hjson : req.manifestJson = some manifestJson)
    (hmanifest : req.manifestId = some manifestId) (hid : manifestId ≠ "")
    (hreserved : (n.verifier.hasActiveReservationForManifest n.now manifestId).1 = true) :
    applyRequest Q n request key = deploymentHandled manifestId (processManifestDeployment Q
      { n with verifier := (n.verifier.hasActiveReservationForManifest n.now manifestId).2 } req
        manifestJson key) := by
  rw [applyRequest, hread]
  simp only [hjson, hmanifest, Option.getD_some, hid, if_false, hreserved, if_true]

/-- What a deployment comes to, once everything up to the engine has succeeded: what the engine
makes of the manifest. -/
theorem processManifestDeployment_of_engine {Q : NodePlatform} {n : Node H} {req : ApplyRequest}
    {manifestJson manifestId engineName : String} {key plain content : Bytes}
    {registry : RuntimeRegistry H} {engine : RuntimeEngine H}
    (hplain : Q.decryptManifestContent manifestJson = .ok plain)
    (hmanifest : req.manifestId = some manifestId)
    (hcontent : Q.modifyManifestReplicas plain = .ok content) (hregistry : n.registry = some registry)
    (hselect : selectRuntimeEngine (Q.runtimeEngineAnnotation content) n.registry n.host =
      .ok engineName)
    (hengine : registry.getEngine engineName = some engine) :
    let deployed := engine.deployWorkload n.host manifestId content (createDeploymentConfig req)
    let x := processManifestDeployment Q n req manifestJson key
    x.2.host = deployed.2 ∧ x.1 = deployed.1.map WorkloadInfo.id := by
  intro deployed x
  have hx : x = deployManifest Q (n.recordOwner manifestId key) req plain := by
    simp only [x, processManifestDeployment_eq, hplain, hmanifest, Option.getD_some]
  -- The owner that is recorded first is nothing that the engine is chosen by.
  simp only [hx, deployManifest, hcontent, recordOwner_registry, recordOwner_host, hselect,
    hmanifest, Option.getD_some]
  simp only [hregistry, hengine]
  cases hdeployed : engine.deployWorkload n.host manifestId content (createDeploymentConfig req) with
  | mk result host =>
    have hd : deployed = (result, host) := hdeployed
    rw [hd]
    cases result <;> exact ⟨rfl, rfl⟩

/-- A deployment is an act when it succeeds. -/
theorem deploymentHandled_act_iff {manifestId : String} {x : Except String String × Node H}
    {id : String} :
    (deploymentHandled manifestId x).act = some (.deploy manifestId id) ↔ x.1 = .ok id := by
  constructor
  · intro h
    exact (deploymentHandled_deploy h).2
  · obtain ⟨result, n⟩ := x
    rintro rfl
    rfl

/-- The engine that a node runs a manifest on, and what of the manifest it runs. -/
def EngineFor (Q : NodePlatform) (n : Node H) (plain content : Bytes) (engine : RuntimeEngine H) :
    Prop :=
  ∃ registry engineName, Q.modifyManifestReplicas plain = .ok content ∧
    n.registry = some registry ∧
    selectRuntimeEngine (Q.runtimeEngineAnnotation content) n.registry n.host = .ok engineName ∧
    registry.getEngine engineName = some engine

/-- The configuration of what a client has applied: one replica, and the operation. -/
def appliedConfig (operationId : String) : DeploymentConfig :=
  { replicas := 1, env := (∅ : Table String String).insert "BEEMESH_OPERATION_ID" operationId }

/-- A node with a reservation runs its engine on what is forwarded to it. -/
theorem deliver_deployed (hround : P.EnvelopeRoundTrip) (hb64 : P.Base64RoundTrip)
    (happly : P.ApplyRequestRoundTrip) {gPub gPriv : Bytes} (gatewayKeys : P.KeyPair gPub gPriv)
    {env : Surroundings} (henv : env.keypair = .ok (gPub, gPriv)) {g t : Node H}
    {peer target : String} (hparse : P.parsePeerId peer = .ok target) (htarget : target ≠ g.localPeer)
    {manifestJson manifestId operationId : String} (hid : manifestId ≠ "")
    (hfresh : ¬ t.nonceStore.Live t.now nonceWindow g.localPeer
      (makeNonce (some "apply") env.nonceRandom))
    (hreserved : (t.verifier.hasActiveReservationForManifest t.now manifestId).1 = true)
    {targetKey plain content : Bytes} {engine : RuntimeEngine H}
    (hplain : (P.toNodePlatform.withCrypto P.toCryptoPlatform targetKey).decryptManifestContent
      manifestJson = .ok plain)
    (hengine : EngineFor P.toNodePlatform t plain content engine) (metadata : EnvelopeMetadata) :
    let deployed := engine.deployWorkload t.host manifestId content (appliedConfig operationId)
    let handled := deliver P env g t targetKey metadata peer
      (P.buildApplyRequest 1 operationId manifestJson "" manifestId)
    handled.node.host = deployed.2 ∧
      ∀ id, handled.act = some (.deploy manifestId id) ↔ deployed.1.map WorkloadInfo.id = .ok id := by
  intro deployed handled
  let Q := P.toNodePlatform.withCrypto P.toCryptoPlatform targetKey
  let body := P.buildApplyRequest 1 operationId manifestJson "" manifestId
  obtain ⟨bytes, parts, hsent, hverify, hpayload, -⟩ := applyRequest_arrives P.toMachinePlatform
    hround hb64 env gatewayKeys henv htarget body t g.localPeer hfresh
  -- Verifying the envelope shows in the nonces of the node only.
  obtain ⟨store, hcall⟩ : ∃ store, verifyEnvelopeAndCheckNonceForPeer Q t bytes g.localPeer =
      (.ok parts, { t with nonceStore := store }) :=
    ⟨_, Prod.ext hverify rfl⟩
  let t' : Node H := { t with
    nonceStore := store
    verifier := (t.verifier.hasActiveReservationForManifest t.now manifestId).2 }
  let req : ApplyRequest := ⟨1, some operationId, some manifestJson, some manifestId⟩
  have hread : Q.rootAsApplyRequest parts.payload = .ok req :=
    hpayload ▸ happly 1 operationId manifestJson "" manifestId
  have hdirect : (applyDirect P.toMachinePlatform env .handled g metadata peer body).sent =
      [(target, bytes)] := by
    simp only [applyDirect, hparse]
    exact hsent
  have hhandled : handled = deploymentHandled manifestId
      (processManifestDeployment Q t' req manifestJson parts.pubkey) := by
    have hmessage : handled = handleApplyMessage Q t g.localPeer bytes := by
      simp only [handled, deliver]
      rw [hdirect]
    rw [hmessage, handleApplyMessage, hcall]
    exact applyRequest_of_reserved hread rfl rfl hid hreserved
  obtain ⟨registry, engineName, hcontent, hregistry, hselect, hget⟩ := hengine
  have hmanifest : req.manifestId = some manifestId := rfl
  obtain ⟨hhost, hresult⟩ :
      (processManifestDeployment Q t' req manifestJson parts.pubkey).2.host = deployed.2 ∧
        (processManifestDeployment Q t' req manifestJson parts.pubkey).1 =
          deployed.1.map WorkloadInfo.id :=
    processManifestDeployment_of_engine hplain hmanifest hcontent hregistry hselect hget
  refine ⟨?_, fun id => ?_⟩
  · rw [hhandled, deploymentHandled_node]
    exact hhost
  · rw [hhandled, deploymentHandled_act_iff, hresult]

/-- A forwarded request is answered whatever the node makes of it. -/
theorem applyDirect_forwarded {env : Surroundings} {g : Node H} {peer target : String}
    (hparse : P.parsePeerId peer = .ok target) (htarget : target ≠ g.localPeer)
    (metadata : EnvelopeMetadata) (body : Bytes) :
    (applyDirect P.toMachinePlatform env .handled g metadata peer body).response =
      .applyResponse true "forwarded" "Request forwarded successfully" := by
  simp only [applyDirect, hparse, handleSendApplyRequest, htarget, if_false]

end Deliver

/-- What the libraries promise. -/
structure ClientPlatform.Promises (P : ClientPlatform) : Prop where
  envelopes : P.EnvelopeRoundTrip
  base64 : P.Base64RoundTrip
  aesGcm : P.toCryptoPlatform.AesGcmRoundTrip
  applyRequests : P.ApplyRequestRoundTrip

/-- A client, its gateway and a node behind it, with their keys. The client has fetched the KEM key
of the gateway. -/
structure Route where
  client : FlatbufferClient
  pubBytes : Bytes
  skBytes : Bytes
  keys : P.KeyPair pubBytes skBytes
  signs : client.SignsWith P.toCryptoPlatform pubBytes skBytes
  handler : EnvelopeHandler
  gatewayPub : Bytes
  gatewayKems : P.toCryptoPlatform.KemKeyPair gatewayPub handler.kemPrivateKey
  fetched : client.machinePublicKey = some gatewayPub
  env : Surroundings
  gPub : Bytes
  gPriv : Bytes
  gatewayKeys : P.KeyPair gPub gPriv
  keypair : env.keypair = .ok (gPub, gPriv)
  targetPub : Bytes
  targetKey : Bytes
  targetKems : P.toCryptoPlatform.KemKeyPair targetPub targetKey

/-- A request of the client for the node, as it is built and posted. -/
structure Posting (R : Route P) (manifestStr manifestId : String) where
  ts : U64
  nodeId : String
  draws : NodeDraws
  request : Bytes
  bytes : Bytes
  nonce : draws.nonceBytes.length = 12
  fits : P.toCryptoPlatform.FieldsFit draws.seed draws.nonceBytes R.targetPub (textBytes manifestStr)
  built : buildNodeRequest P ts manifestStr manifestId draws (nodeId, P.base64Encode R.targetPub) =
    .ok request
  postNonce : draws.post.nonceBytes.length = 12
  postFits : P.toCryptoPlatform.FieldsFit draws.post.seed draws.post.nonceBytes R.gatewayPub request
  posted : R.client.requestEnvelope P.toCryptoPlatform draws.post request "apply_request" = .ok bytes

/-- Gateway and node have not seen the nonces that the request draws. -/
structure Posting.Fresh {P : ClientPlatform} {R : Route P} {manifestStr manifestId : String}
    (D : Posting P R manifestStr manifestId) (g t : Node H) : Prop where
  gateway : ¬ g.nonceStore.Live g.now nonceWindow "cli-client" D.draws.post.timeHash
  target : ¬ t.nonceStore.Live t.now nonceWindow g.localPeer
    (makeNonce (some "apply") R.env.nonceRandom)

/-- **A manifest is delivered**: what a client encrypts for a node and posts to a gateway, the node
unwraps, and runs its engine on, with the replicas rewritten, for one replica under the operation of
the client. The client is told that the request was forwarded, whatever the engine does. -/
theorem manifest_delivered (hP : P.Promises) (R : Route P) {manifestStr manifestId : String}
    (hid : manifestId ≠ "") (D : Posting P R manifestStr manifestId) {g t : Node H}
    (hfresh : D.Fresh g t) {peer target : String} (hparse : P.parsePeerId peer = .ok target)
    (htarget : target ≠ g.localPeer)
    (hreserved : (t.verifier.hasActiveReservationForManifest t.now manifestId).1 = true)
    {content : Bytes} {engine : RuntimeEngine H}
    (hengine : EngineFor P.toNodePlatform t (textBytes manifestStr) content engine) :
    let deployed := engine.deployWorkload t.host manifestId content
      (appliedConfig D.draws.operationId)
    let x := throughGateway P R.handler R.env g t R.targetKey peer D.bytes
    x.2 = some (.applyResponse true "forwarded" "Request forwarded successfully") ∧
      x.1.node.host = deployed.2 ∧
      ∀ id, x.1.act = some (.deploy manifestId id) ↔ deployed.1.map WorkloadInfo.id = .ok id := by
  intro deployed x
  have hnext := requestEnvelope_next hP.envelopes hP.base64 hP.aesGcm R.keys R.signs R.gatewayKems
    R.fetched D.postNonce D.postFits D.posted hfresh.gateway (.applyDirect peer)
  obtain ⟨manifestJson, hrequest, hplain⟩ :=
    decryptManifestContent_nodeRequest hP.envelopes hP.base64 hP.aesGcm R.targetKems D.nonce D.fits
      D.built
  have hx : x = (deliver P R.env g t R.targetKey
      (R.client.metadata R.pubBytes).toEnvelopeMetadata peer
      (P.buildApplyRequest 1 D.draws.operationId manifestJson "" manifestId),
      some (.applyResponse true "forwarded" "Request forwarded successfully")) := by
    simp only [x, throughGateway]
    rw [hnext]
    simp only [applyDirect_forwarded hparse htarget, hrequest]
  rw [hx]
  exact ⟨rfl, deliver_deployed hP.envelopes hP.base64 hP.applyRequests R.gatewayKeys R.keypair hparse
    htarget hid hfresh.target hreserved hplain hengine _⟩

/-! ## The nodes of an apply -/

section Nodes

variable {W : Type}
  -- A post to the gateway, and the table of its answer.
  (post : String → Bytes → W → Except AnyhowError (HttpAnswer × String) × W)
  (rootAsApplyResponse : Bytes → Except String (Bool × Option String))
  (client : FlatbufferClient) (ts : U64) (manifestStr manifestId : String)

/-- What `send_encrypted_request` comes to. -/
def sendEncryptedRequest (w : W) (url : String) (draws : RequestDraws) (payload : Bytes)
    (payloadType : String) : Outcome AnyhowError Bytes × W :=
  match client.requestEnvelope P.toCryptoPlatform draws payload payloadType with
  | .error e => (err e, w)
  | .ok envelope =>
    match post url envelope w with
    | (.error e, w) => (err e, w)
    | (.ok (answer, text), w) => (client.readAnswer P.toCryptoPlatform answer text, w)

/-- What the client makes of the answer of the gateway. -/
def checkApplyResponse (nodeId : String) (responseBytes : Bytes) : Outcome AnyhowError Unit :=
  match rootAsApplyResponse responseBytes with
  | .error e => err ["Failed to parse ApplyResponse: " ++ e]
  | .ok (true, _) => ok ()
  | .ok (false, message) =>
    err [s!"Direct apply failed for node {nodeId}: " ++ message.getD "unknown error"]

/-- The body of the loop of `apply_file`. -/
def applyNode (w : W) (node : (String × String) × NodeDraws) : Outcome AnyhowError Unit × W :=
  match buildNodeRequest P ts manifestStr manifestId node.2 node.1 with
  | .error e => (err e, w)
  | .ok request =>
    match sendEncryptedRequest P post client w ("/apply_direct/" ++ node.1.1) node.2.post request
      "apply_request" with
    | (response, w) => (response >>= checkApplyResponse rootAsApplyResponse node.1.1, w)

/-- The loop of `apply_file` over the nodes that it has selected. -/
def applyNodes (w : W) (nodes : List ((String × String) × NodeDraws)) :
    Outcome AnyhowError String × W :=
  let applied := Outcome.forEach
    (applyNode P post rootAsApplyResponse client ts manifestStr manifestId) w nodes
  (applied.1 >>= fun _ => ok manifestId, applied.2)

/-- The request for a node was posted, and the gateway has answered that it forwarded it. -/
def Forwarded (w : W) (node : (String × String) × NodeDraws) (w' : W) : Prop :=
  ∃ request envelope answer text response message,
    buildNodeRequest P ts manifestStr manifestId node.2 node.1 = .ok request ∧
      client.requestEnvelope P.toCryptoPlatform node.2.post request "apply_request" =
        .ok envelope ∧
      post ("/apply_direct/" ++ node.1.1) envelope w = (.ok (answer, text), w') ∧
      client.readAnswer P.toCryptoPlatform answer text = ok response ∧
      rootAsApplyResponse response = .ok (true, message)

variable {P post rootAsApplyResponse client ts manifestStr manifestId}

theorem checkApplyResponse_eq_ok_iff {nodeId : String} {response : Bytes} :
    checkApplyResponse rootAsApplyResponse nodeId response = ok () ↔
      ∃ message, rootAsApplyResponse response = .ok (true, message) := by
  unfold checkApplyResponse
  cases rootAsApplyResponse response with
  | error e => simp
  | ok table =>
    obtain ⟨done, message⟩ := table
    cases done <;> simp

theorem sendEncryptedRequest_eq_ok_iff {w w' : W} {url payloadType : String} {draws : RequestDraws}
    {payload response : Bytes} :
    sendEncryptedRequest P post client w url draws payload payloadType = (ok response, w') ↔
      ∃ envelope answer text,
        client.requestEnvelope P.toCryptoPlatform draws payload payloadType = .ok envelope ∧
          post url envelope w = (.ok (answer, text), w') ∧
          client.readAnswer P.toCryptoPlatform answer text = ok response := by
  unfold sendEncryptedRequest
  cases hrequest : client.requestEnvelope P.toCryptoPlatform draws payload payloadType with
  | error e => simp
  | ok envelope =>
    cases hpost : post url envelope w with
    | mk posted w₁ =>
      cases posted with
      | error e => simp [hpost]
      | ok answered =>
        obtain ⟨answer, text⟩ := answered
        simp only [hpost, Prod.mk.injEq]
        constructor
        · rintro ⟨hread, rfl⟩
          exact ⟨envelope, answer, text, rfl, hpost, hread⟩
        · rintro ⟨_, answer', text', ⟨⟩, hpost', hread⟩
          obtain ⟨hanswer, rfl⟩ := Prod.mk.inj (hpost.symm.trans hpost')
          obtain ⟨rfl, rfl⟩ := Prod.mk.inj (Except.ok.inj hanswer)
          exact ⟨hread, rfl⟩

/-- The client goes on after a request that was forwarded, and only then. -/
theorem applyNode_eq_ok_iff {w w' : W} {node : (String × String) × NodeDraws} :
    applyNode P post rootAsApplyResponse client ts manifestStr manifestId w node = (ok (), w') ↔
      Forwarded P post rootAsApplyResponse client ts manifestStr manifestId w node w' := by
  unfold applyNode Forwarded
  cases hrequest : buildNodeRequest P ts manifestStr manifestId node.2 node.1 with
  | error e => simp
  | ok request =>
    cases hsend : sendEncryptedRequest P post client w ("/apply_direct/" ++ node.1.1) node.2.post
        request "apply_request" with
    | mk result w₁ =>
      simp only [hsend, Prod.mk.injEq, Outcome.bind_eq_ok_iff, checkApplyResponse_eq_ok_iff]
      constructor
      · rintro ⟨⟨response, rfl, message, hmessage⟩, rfl⟩
        obtain ⟨envelope, answer, text, henvelope, hpost, hread⟩ :=
          sendEncryptedRequest_eq_ok_iff.mp hsend
        exact ⟨_, envelope, answer, text, response, message, rfl, henvelope, hpost, hread, hmessage⟩
      · rintro ⟨_, envelope, answer, text, response, message, ⟨⟩, henvelope, hpost, hread, hmessage⟩
        have hsend' := sendEncryptedRequest_eq_ok_iff.mpr ⟨envelope, answer, text, henvelope, hpost,
          hread⟩
        obtain ⟨rfl, rfl⟩ := Prod.mk.inj (hsend.symm.trans hsend')
        exact ⟨⟨response, rfl, message, hmessage⟩, rfl⟩

/-- **How far an apply gets**: the requests for the nodes in front were forwarded, one after the
other, and either there is no other node, and the manifest id is returned, or the request for the
next one was not forwarded. Then nothing is posted for the nodes after it, and nothing taken back
from those before. -/
theorem applyNodes_spec (w : W) (nodes : List ((String × String) × NodeDraws)) :
    let step := applyNode P post rootAsApplyResponse client ts manifestStr manifestId
    let applied := applyNodes P post rootAsApplyResponse client ts manifestStr manifestId w nodes
    ∃ done rest w₁, nodes = done ++ rest ∧ Outcome.Attempted step w done w₁ ∧
      (rest = [] ∧ applied = (ok manifestId, w₁) ∨
        ∃ node rest', rest = node :: rest' ∧
          (∀ w', ¬ Forwarded P post rootAsApplyResponse client ts manifestStr manifestId w₁ node
            w') ∧
          (∀ id, applied.1 ≠ ok id) ∧ applied.2 = (step w₁ node).2) := by
  intro step applied
  obtain ⟨done, rest, w₁, hnodes, hdone, ⟨hrest, hend⟩ | ⟨node, rest', r, w', hrest, hnode, hr,
    hend⟩⟩ := Outcome.exists_forEach (f := step) w nodes
  · refine ⟨done, rest, w₁, hnodes, hdone, .inl ⟨hrest, ?_⟩⟩
    simp only [applied, applyNodes]
    rw [hend]
    rfl
  · refine ⟨done, rest, w₁, hnodes, hdone, .inr ⟨node, rest', hrest, ?_, ?_, ?_⟩⟩
    · intro w'' hforwarded
      have hok := hnode.symm.trans (applyNode_eq_ok_iff.mpr hforwarded)
      exact hr (congrArg Prod.fst hok)
    · intro id
      simp only [applied, applyNodes]
      rw [hend]
      cases r <;> simp_all
    · simp only [applied, applyNodes]
      rw [hend, hnode]

end Nodes

/-! ## On a reference platform -/

section Reference

/-- The reference machine with the reference crypto library, and tables of apply requests. -/
def referenceClientPlatform : ClientPlatform :=
  { referenceMachine trusting, clientCrypto with
    buildApplyRequest := fun replicas operationId manifestJson _ manifestId =>
      applyRequestCodec.write ⟨replicas, some operationId, some manifestJson, some manifestId⟩ }

theorem referenceClientPlatform_applyRequestRoundTrip :
    referenceClientPlatform.ApplyRequestRoundTrip := fun _ _ _ _ _ =>
  readOr_eq_ok_iff.mpr (Codec.read_write applyRequestCodec _)

def someNodeDraws : NodeDraws := ⟨.replicate 768 0, .replicate 12 0, "op", someDraws⟩

/-- The length of an envelope, field by field. -/
theorem length_envelopeCodec (e : Envelope) :
    let str (s : Option String) := (Codec.string.option.encode s).length
    (envelopeCodec.write e).length = (Codec.bytes.option.encode e.payload).length +
      (str e.payloadType + (str e.nonce + (((Codec.bitVec 64).encode e.ts).length +
        (str e.alg + (str e.sig + (str e.pubkey + (str e.kemPubkey + str e.peerId))))))) := by
  intro str
  simp only [Codec.write, envelopeCodec, Codec.retract, Codec.prod, List.length_append]
  rfl

theorem length_applyRequestCodec (req : ApplyRequest) :
    let str (s : Option String) := (Codec.string.option.encode s).length
    (applyRequestCodec.write req).length = ((Codec.bitVec 32).encode req.replicas).length +
      (str req.operationId + (str req.manifestJson + str req.manifestId)) := by
  intro str
  simp only [Codec.write, applyRequestCodec, Codec.retract, Codec.prod, List.length_append]
  rfl

theorem length_option_string (s : String) :
    (Codec.string.option.encode (some s)).length ≤ 8 * s.length + 2 := by
  have hbytes := Text.length_toUTF8_le s
  change (1 :: Codec.encodeBytes s.toUTF8.data.toList).length ≤ _
  rw [List.length_cons, Codec.length_encodeBytes]
  omega

/-- The request for a manifest is not much longer than the blob in it. -/
theorem length_nodeRequest (payload : Bytes) :
    (referenceClientPlatform.buildApplyRequest 1 "op" (Base64.encode (envelopeCodec.write
      (Platform.envelopeArgs payload "manifest" "" 0 "ml-kem-512" "" "" none ""))) "" "m").length ≤
        64 * payload.length + 8000 := by
  let envelope := Platform.envelopeArgs payload "manifest" "" 0 "ml-kem-512" "" "" none ""
  have hpayload : (Codec.bytes.option.encode (some payload)).length = 2 * payload.length + 2 := by
    change (1 :: Codec.encodeBytes payload).length = _
    rw [List.length_cons, Codec.length_encodeBytes]
  have henvelope : (envelopeCodec.write envelope).length ≤ 2 * payload.length + 240 := by
    have hfields := length_envelopeCodec envelope
    simp only [envelope, Platform.envelopeArgs, Option.getD_none, hpayload] at hfields ⊢
    have hts : ((Codec.bitVec 64).encode 0).length = 1 := rfl
    have htype : (Codec.string.option.encode (some "manifest")).length = 18 := rfl
    have halg : (Codec.string.option.encode (some "ml-kem-512")).length = 22 := rfl
    have hempty : (Codec.string.option.encode (some "")).length = 2 := rfl
    rw [hfields, hts, htype, halg, hempty]
    omega
  have hbase64 : (Base64.encode (envelopeCodec.write envelope)).length ≤
      4 * (envelopeCodec.write envelope).length := by
    rw [Base64.encode, String.length_ofList]
    exact Base64.length_encodeChars_le _
  have hrequest := length_applyRequestCodec
    ⟨1, some "op", some (Base64.encode (envelopeCodec.write envelope)), some "m"⟩
  have hjson := length_option_string (Base64.encode (envelopeCodec.write envelope))
  have hreplicas : ((Codec.bitVec 32).encode 1).length = 3 := rfl
  have hop : (Codec.string.option.encode (some "op")).length = 6 := rfl
  have hid : (Codec.string.option.encode (some "m")).length = 4 := rfl
  simp only [hreplicas, hop, hid] at hrequest
  change (applyRequestCodec.write _).length ≤ _
  rw [hrequest]
  omega

theorem referenceClientPlatform_promises : referenceClientPlatform.Promises where
  envelopes := referencePlatform_envelopeRoundTrip _
  base64 := referencePlatform_base64RoundTrip _
  aesGcm := referenceCrypto_aesGcmRoundTrip _
  applyRequests := referenceClientPlatform_applyRequestRoundTrip

/-- A client of key `7` that knows a gateway of the same key, and a node. -/
def referenceRoute : Route referenceClientPlatform where
  client := referenceClient true
  pubBytes := [7]
  skBytes := [7]
  keys := trustedKeys
  signs := ⟨rfl, rfl⟩
  handler := referenceHandler
  gatewayPub := referenceKemPub
  gatewayKems := clientKems
  fetched := rfl
  env := quietSurroundings
  gPub := [7]
  gPriv := [7]
  gatewayKeys := trustedKeys
  keypair := rfl
  targetPub := referenceKemPub
  targetKey := referenceKemKey
  targetKems := clientKems

/-- The client can post a pod manifest. -/
theorem exists_posting : ∃ D : Posting referenceClientPlatform referenceRoute podYaml "m",
    D.draws = someNodeDraws := by
  have hseed : (List.replicate 768 (0 : UInt8)).length = 768 := List.length_replicate
  have hpub : referenceKemPub.length = 800 := List.length_replicate
  have hmanifest : (textBytes podYaml).length ≤ 4 * podYaml.length := Text.length_toUTF8_le podYaml
  have hyaml : podYaml.length = 25 := rfl
  have hnonce : someNodeDraws.nonceBytes.length = 12 := List.length_replicate
  have hblob := referenceCrypto_encryptPayload (P := trusting.toPlatform) rfl hseed hpub
    someNodeDraws.nonceBytes (textBytes podYaml)
  obtain ⟨request, hrequest, hlength⟩ : ∃ request, buildNodeRequest referenceClientPlatform 0 podYaml
      "m" someNodeDraws ("node", Base64.encode referenceKemPub) = .ok request ∧
        request.length < 2 ^ 30 := by
    refine ⟨_, ?_, (length_nodeRequest (writeBlob (.replicate 768 0) someNodeDraws.nonceBytes
      ((List.replicate 768 (0 : UInt8)).take 32 ++ someNodeDraws.nonceBytes ++
        textBytes podYaml))).trans_lt ?_⟩
    · simp only [buildNodeRequest, Beemesh.bind_eq_ok_iff, mapErr_eq_ok_iff]
      exact ⟨_, referencePlatform_base64RoundTrip _ _, _, hblob, rfl⟩
    · simp only [length_writeBlob, List.length_append, List.length_take, hseed, hnonce]
      omega
  obtain ⟨bytes, hbytes⟩ := referenceClient_posts true request "apply_request"
  exact ⟨⟨0, "node", someNodeDraws, request, bytes, hnonce,
    clientCrypto_fieldsFit hseed hpub (by omega), hrequest, List.length_replicate,
    clientCrypto_fieldsFit hseed hpub (by
      have hpost : someDraws.nonceBytes.length = 12 := List.length_replicate
      change someDraws.nonceBytes.length + request.length < 2 ^ 31
      omega), hbytes⟩, rfl⟩

end Reference

end Beemesh
