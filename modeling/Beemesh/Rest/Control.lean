import Beemesh.Node.Deployment
import Beemesh.Node.Handshake

/-!
# Deleting and applying through the REST interface

A client talks to one node, which passes its requests on: to itself, or to other nodes over the
control channel. The handlers of the control channel and the REST handlers that use them. What
happens on the way is decided here: an apply request is signed by the node that passes it on, a
delete request by nobody, and a deletion at the node itself asks for no owner.

## Main definitions

* `handleSendApplyRequest`, `handleSendDeleteRequest`: the senders of the control channel
* `deleteTask`, `handleLocalDelete`, `applyDirect`, `createTask`: the REST handlers
* `DeleteArrives`: a delete request that its receiver accepts and reads
* `RemovesNoMore`: a deletion that stays within another

## Main results

* `deleteTask_sent`: what `delete_task` sends to other nodes
* `deleteRequest_never_arrives`: no delete request sent to another node is accepted
* `localDelete_removesNoMore_iff`: when a local deletion takes no more than a remote one would
-/

namespace Beemesh

variable {H : Type} (P : MachinePlatform)

/-! ## The control channel -/

/-- What the handler of a control message does: the node it leaves, what it sends to other peers,
its reply and the act. -/
structure Controlled (H : Type) where
  node : Node H
  sent : List (String × Bytes) := []
  reply : Except String String
  act : Option Act := none

/-- `handle_send_apply_request`. -/
def handleSendApplyRequest (env : Surroundings) (n : Node H) (peer : String) (manifest : Bytes) :
    Controlled H :=
  if peer = n.localPeer then
    let handled := processEnhancedSelfApplyRequest P.toNodePlatform n manifest
    { node := handled.node
      reply := .ok s!"Apply request handled locally for {peer}"
      act := handled.act }
  else
    let signedApplyRequest := match P.signPayloadDefault env.keypair env.nonceRandom env.wallMs
        manifest "apply_request" (some "apply") with
      | .ok bytes => bytes
      -- What cannot be signed is sent as it is.
      | .error _ => manifest
    { node := n
      sent := [(peer, signedApplyRequest)]
      reply := .ok s!"Apply request sent to {peer}" }

/-- `handle_send_delete_request`: the answer does not wait for the peer. -/
def handleSendDeleteRequest (n : Node H) (peer : String) (deleteRequest : Bytes) : Controlled H :=
  { node := n, sent := [(peer, deleteRequest)], reply := .ok "Delete request sent" }

/-- What becomes of a control message while its sender waits. -/
inductive Delivery
  | refused (e : String)
  | handled
  | closed
  | timedOut

/-! ## REST handlers -/

/-- `EnvelopeMetadata`: what the handlers read of it. -/
structure EnvelopeMetadata where
  peerId : Option String
  signingPubkey : Bytes

/-- `handle_local_delete`. The flag is not looked at. -/
def handleLocalDelete (n : Node H) (manifestId : String) (_force : Bool) :
    Except String (List String) × Node H :=
  match removeWorkloadsByManifestId n manifestId with
  | (.ok removedWorkloads, n) => (.ok removedWorkloads, n)
  | (.error e, n) => (.error s!"local deletion failed: {e}", n)

/-- `send_delete_request_to_peer`. -/
def sendDeleteRequestToPeer (n : Node H) (delivery : Delivery) (peer : String)
    (deleteRequest : Bytes) : Controlled H :=
  match P.parsePeerId peer with
  | .error e => { node := n, reply := .error s!"Invalid peer ID '{peer}': {e}" }
  | .ok target =>
    match delivery with
    | .refused e =>
      { node := n, reply := .error s!"Failed to send delete request to libp2p control: {e}" }
    | .handled => handleSendDeleteRequest n target deleteRequest
    | .closed => { node := n, reply := .error "Reply channel closed" }
    | .timedOut => { node := n, reply := .error "Request timed out" }

/-- What the loop of `delete_task` over the providers carries. -/
structure DeleteRun (H : Type) where
  node : Node H
  successfulDeletes : List String := []
  failedDeletes : List String := []
  removedWorkloads : List String := []
  sent : List (String × Bytes) := []

/-- The loop body of `delete_task` for one provider. -/
def DeleteRun.provider (taskId : String) (force : Bool) (deleteRequest : Bytes) (r : DeleteRun H)
    (provider : String × Delivery) : DeleteRun H :=
  let peer := provider.1
  match P.parsePeerId peer with
  | .error _ => { r with failedDeletes := r.failedDeletes ++ [peer ++ ":invalid_peer_id"] }
  | .ok providerPeerId =>
    if providerPeerId = r.node.localPeer then
      match handleLocalDelete r.node taskId force with
      | (.ok removed, n) => { r with
          node := n
          successfulDeletes := r.successfulDeletes ++ [peer]
          removedWorkloads := r.removedWorkloads ++ removed }
      | (.error e, n) => { r with
          node := n
          failedDeletes := r.failedDeletes ++ [peer ++ ":self_delete_failed:" ++ e] }
    else
      let controlled := sendDeleteRequestToPeer P r.node provider.2 peer deleteRequest
      let r := { r with node := controlled.node, sent := r.sent ++ controlled.sent }
      match controlled.reply with
      | .ok _ => { r with successfulDeletes := r.successfulDeletes ++ [peer] }
      | .error e => { r with failedDeletes := r.failedDeletes ++ [peer ++ ":" ++ e] }

/-- What `delete_task` finds around it: the time, what becomes of its question for the local peer,
and the providers of the task with what becomes of a message to each. A search for providers that
fails finds none. -/
structure DeleteCall where
  timestamp : ℕ
  localPeer : Delivery
  providers : List (String × Delivery)

/-- What `delete_task` and `apply_direct` do. -/
structure Answered (H : Type) where
  node : Node H
  sent : List (String × Bytes) := []
  response : Response
  act : Option Act := none

/-- The delete request of a call: force is asked for anywhere in the body. -/
def DeleteCall.operationId (call : DeleteCall) (taskId : String) : String :=
  "delete-" ++ taskId ++ "-" ++ toString call.timestamp

def forceRequested (body : Bytes) : Bool := decide ("force=true".toUTF8.data.toList <:+: body)

/-- `delete_task`. Of the metadata it reads the peer, never the key that signed the request. -/
def deleteTask (call : DeleteCall) (n : Node H) (taskId : String) (metadata : EnvelopeMetadata)
    (body : Bytes) : Answered H :=
  let operationId := call.operationId taskId
  let originPeer := metadata.peerId.getD "unknown"
  let force := forceRequested body
  let answer (n : Node H) (ok : Bool) (message : String) (removed : List String)
      (sent : List (String × Bytes)) : Answered H :=
    { node := n, sent := sent, response := .deleteResponse ok operationId message taskId removed }
  if call.providers = [] then answer n true "No providers found for task" [] []
  else
    let deleteRequest := P.buildDeleteRequest taskId operationId originPeer force
    match call.localPeer with
    | .refused e => answer n false s!"Failed to get local peer ID: {e}" [] []
    | .closed | .timedOut => answer n false "Timeout getting local peer ID" [] []
    | .handled =>
      let r := call.providers.foldl (DeleteRun.provider P taskId force deleteRequest) { node := n }
      let successful := r.successfulDeletes.length
      let total := successful + r.failedDeletes.length
      let failures := P.debugStrings r.failedDeletes
      let message :=
        if r.successfulDeletes ≠ [] then
          if r.failedDeletes = [] then s!"Delete requests sent to {successful} providers"
          else s!"Delete requests sent to {successful}/{total} providers. Failures: {failures}"
        else s!"Failed to send delete requests to any providers: {failures}"
      answer r.node (decide (r.successfulDeletes ≠ [])) message r.removedWorkloads r.sent

/-- `apply_direct`. The metadata, and so the key that signed the request, is not looked at. -/
def applyDirect (env : Surroundings) (delivery : Delivery) (n : Node H)
    (_metadata : EnvelopeMetadata) (peer : String) (body : Bytes) : Answered H :=
  match P.parsePeerId peer with
  | .error e => { node := n, response := .applyResponse false "unknown" s!"Invalid peer ID: {e}" }
  | .ok target =>
    match delivery with
    | .refused _ =>
      { node := n
        response := .applyResponse false "unknown" "Failed to forward request to libp2p" }
    | .closed | .timedOut =>
      { node := n
        response := .applyResponse false "forwarded" "Timeout waiting for peer response" }
    | .handled =>
      let controlled := handleSendApplyRequest P env n target body
      { node := controlled.node
        sent := controlled.sent
        act := controlled.act
        response := match controlled.reply with
          | .ok _ => .applyResponse true "forwarded" "Request forwarded successfully"
          | .error e => .applyResponse false "forwarded" s!"Forward failed: {e}" }

/-- `create_task`, its effect on the owners: the key that signed the request owns the manifest. -/
def createTask (n : Node H) (metadata : EnvelopeMetadata) (manifestId : String) : Node H :=
  n.recordOwner manifestId metadata.signingPubkey

/-! ## Delete requests for other nodes -/

variable {P}

theorem sendDeleteRequestToPeer_sent (n : Node H) (delivery : Delivery) (peer : String)
    (deleteRequest : Bytes) :
    ∀ message ∈ (sendDeleteRequestToPeer P n delivery peer deleteRequest).sent,
      message.2 = deleteRequest := by
  intro message hmessage
  simp only [sendDeleteRequestToPeer] at hmessage
  cases hparse : P.parsePeerId peer with
  | error e => simp [hparse] at hmessage
  | ok target =>
    cases delivery with
    | handled =>
      simp only [hparse, handleSendDeleteRequest, List.mem_singleton] at hmessage
      rw [hmessage]
    | refused e => simp [hparse] at hmessage
    | closed => simp [hparse] at hmessage
    | timedOut => simp [hparse] at hmessage

/-- One provider adds at most the delete request to what is sent. -/
theorem DeleteRun.provider_sent (taskId : String) (force : Bool) (deleteRequest : Bytes)
    (r : DeleteRun H) (provider : String × Delivery) :
    ∀ message ∈ (r.provider P taskId force deleteRequest provider).sent,
      message ∈ r.sent ∨ message.2 = deleteRequest := by
  intro message hmessage
  simp only [DeleteRun.provider] at hmessage
  split at hmessage
  · exact .inl hmessage
  · split_ifs at hmessage
    · split at hmessage <;> exact .inl hmessage
    · have hsent : message ∈ r.sent ++
          (sendDeleteRequestToPeer P r.node provider.2 provider.1 deleteRequest).sent := by
        split at hmessage <;> exact hmessage
      rcases List.mem_append.mp hsent with hold | hnew
      · exact .inl hold
      · exact .inr (sendDeleteRequestToPeer_sent _ _ _ _ message hnew)

/-- The loop over the providers sends nothing but the delete request. -/
theorem DeleteRun.foldl_provider_sent (taskId : String) (force : Bool) (deleteRequest : Bytes)
    (providers : List (String × Delivery)) (r : DeleteRun H)
    (hr : ∀ message ∈ r.sent, message.2 = deleteRequest) :
    ∀ message ∈ (providers.foldl (DeleteRun.provider P taskId force deleteRequest) r).sent,
      message.2 = deleteRequest := by
  induction providers generalizing r with
  | nil => exact hr
  | cons provider providers ih =>
    refine ih _ fun message hmessage => ?_
    rcases DeleteRun.provider_sent taskId force deleteRequest r provider message hmessage with
      hold | hnew
    · exact hr message hold
    · exact hnew

/-- What `delete_task` sends to other nodes is the delete request, as it was built. -/
theorem deleteTask_sent (call : DeleteCall) (n : Node H) (taskId : String)
    (metadata : EnvelopeMetadata) (body : Bytes) :
    ∀ message ∈ (deleteTask P call n taskId metadata body).sent,
      message.2 = P.buildDeleteRequest taskId (call.operationId taskId)
        (metadata.peerId.getD "unknown") (forceRequested body) := by
  intro message hmessage
  by_cases hproviders : call.providers = []
  · simp [deleteTask, hproviders] at hmessage
  · simp only [deleteTask, hproviders, if_false] at hmessage
    cases hpeer : call.localPeer with
    | handled =>
      simp only [hpeer] at hmessage
      exact DeleteRun.foldl_provider_sent _ _ _ _ { node := n } (fun _ h => nomatch h) message
        hmessage
    | refused e => simp [hpeer] at hmessage
    | closed => simp [hpeer] at hmessage
    | timedOut => simp [hpeer] at hmessage

/-- The receiver accepts the bytes, and reads a delete request with these fields in them. -/
def DeleteArrives (P : NodePlatform) (n : Node H) (peer : String) (bytes : Bytes)
    (manifestId operationId : String) (force : Bool) : Prop :=
  ∃ parts req, (verifySignedMessage P n bytes peer).1 = some parts ∧
    P.rootAsDeleteRequest parts.payload = .ok req ∧ req.manifestId = some manifestId ∧
    req.operationId = some operationId ∧ req.force = force

/-- A buffer in which no reader finds a key does not verify. -/
theorem verifySignedMessage_of_no_pubkey {P : NodePlatform}
    (hempty : P.base64Decode "" = .ok []) (hkey : ∃ e, P.publicKeyFromBytes [] = .error e)
    {bytes : Bytes} (hbytes : ∀ e, P.rootAsEnvelope bytes = .ok e → e.pubkey = none)
    (n : Node H) (peer : String) : (verifySignedMessage P n bytes peer).1 = none := by
  cases hparts : (verifySignedMessage P n bytes peer).1 with
  | none => rfl
  | some parts =>
    obtain ⟨o, hopen, -, hsig, -⟩ :=
      verify_ok_iff.mp ((verifySignedMessage_eq_some_iff P).mp hparts)
    obtain ⟨henv, -, hpub⟩ := openEnvelope_ok_iff.mp hopen
    -- The absent key decodes to no bytes, of which no key is made.
    rw [hbytes _ henv, Option.getD_none, hempty] at hpub
    obtain ⟨e, herror⟩ := hkey
    rw [checkSignature_ok_iff, ← Except.ok.inj hpub] at hsig
    simp only [Platform.verifyEnvelope, bind_eq_ok_iff, anyhow_eq_ok_iff, herror] at hsig
    obtain ⟨_, _, _, ⟨⟩, _⟩ := hsig

/-- **No delete request for another node arrives**: what the control channel sends is the bare
table, in which the receiver finds no key. It answers that the envelope is invalid, and spawns no
task. -/
theorem deleteRequest_never_arrives (P : MachinePlatform)
    (hempty : P.base64Decode "" = .ok []) (hkey : ∃ e, P.publicKeyFromBytes [] = .error e)
    (hslots : ∀ m op origin force e,
      P.rootAsEnvelope (P.buildDeleteRequest m op origin force) = .ok e → e.pubkey = none)
    {H' : Type} (sender : Node H) (receiver : Node H') (m op origin : String) (force : Bool)
    (target peer : String) :
    ∀ message ∈ (handleSendDeleteRequest sender target
        (P.buildDeleteRequest m op origin force)).sent,
      ¬ DeleteArrives P.toNodePlatform receiver peer message.2 m op force ∧
        (deleteMessage P.toNodePlatform receiver peer message.2).node.deleteTasks =
          receiver.deleteTasks ∧
        (deleteMessage P.toNodePlatform receiver peer message.2).response =
          some (.deleteResponse false "unknown" "unsigned or invalid envelope" "unknown" []) := by
  intro message hmessage
  simp only [handleSendDeleteRequest, List.mem_singleton] at hmessage
  subst hmessage
  have hnone : (verifySignedMessage P.toNodePlatform receiver
      (P.buildDeleteRequest m op origin force) peer).1 = none :=
    verifySignedMessage_of_no_pubkey hempty hkey (hslots m op origin force) receiver peer
  refine ⟨?_, ?_⟩
  · rintro ⟨parts, -, hparts, -⟩
    exact nomatch hnone.symm.trans hparts
  · have hnode := verifySignedMessage_snd P.toNodePlatform receiver
      (P.buildDeleteRequest m op origin force) peer
    rw [deleteMessage]
    cases hverify : verifySignedMessage P.toNodePlatform receiver
        (P.buildDeleteRequest m op origin force) peer with
    | mk parts n =>
      rw [hverify] at hnone hnode
      obtain rfl : parts = none := hnone
      obtain rfl : n = _ := hnode
      exact ⟨rfl, rfl⟩

/-- The fields of a delete request in the slots of an envelope. Its table ends before the key. -/
def deleteAsEnvelope (req : DeleteRequest) (originPeer : String) : Envelope where
  payload := req.manifestId.map (·.toUTF8.data.toList)
  payloadType := req.operationId
  nonce := some originPeer
  ts := 0
  alg := none
  sig := none
  pubkey := none
  kemPubkey := none
  peerId := none

/-- A platform on which a delete request can be read as an envelope, and keys are not empty. -/
def slotPlatform : MachinePlatform :=
  let read (bs : Bytes) := (deleteRequestCodec.prod Codec.string).read bs
  referenceMachine { trusting with
    rootAsEnvelope := fun
      | 0xFF :: bs => readOr "invalid flatbuffer" ((read bs).map fun r => deleteAsEnvelope r.1 r.2)
      | bs => trusting.rootAsEnvelope bs
    rootAsDeleteRequest := fun
      | 0xFF :: bs => readOr "invalid flatbuffer" ((read bs).map Prod.fst)
      | _ => .error "invalid flatbuffer"
    publicKeyFromBytes := fun bs => if bs = [] then .error "invalid public key" else .ok bs }

theorem slotPlatform_pubkey (m op origin : String) (force : Bool) (e : Envelope)
    (h : slotPlatform.rootAsEnvelope (slotPlatform.buildDeleteRequest m op origin force) = .ok e) :
    e.pubkey = none := by
  change readOr _ (((deleteRequestCodec.prod Codec.string).read
    ((deleteRequestCodec.prod Codec.string).write
      (⟨some m, some op, force⟩, origin))).map fun r => deleteAsEnvelope r.1 r.2) = .ok e at h
  rw [Codec.read_write] at h
  exact (Except.ok.inj h) ▸ rfl

theorem deleteRequest_never_arrives_reference :
    let bytes := slotPlatform.buildDeleteRequest "m" "op" "o" false
    ("t", bytes) ∈ (handleSendDeleteRequest referenceNode "t" bytes).sent ∧
      (deleteMessage slotPlatform.toNodePlatform referenceNode "p" bytes).response =
        some (.deleteResponse false "unknown" "unsigned or invalid envelope" "unknown" []) := by
  intro bytes
  have hsent : ("t", bytes) ∈ (handleSendDeleteRequest referenceNode "t" bytes).sent := .head _
  exact ⟨hsent, (deleteRequest_never_arrives slotPlatform (by decide) ⟨_, rfl⟩ slotPlatform_pubkey
    referenceNode referenceNode "m" "op" "o" false "t" "p" _ hsent).2.2⟩

/-- A delete request for `m` is sent, and does not arrive. -/
theorem deleteRequest_sent_not_accepted :
    let bytes := slotPlatform.buildDeleteRequest "m" "op" "o" false
    (handleSendDeleteRequest referenceNode "t" bytes).sent = [("t", bytes)] ∧
      ¬ DeleteArrives slotPlatform.toNodePlatform referenceNode "p" bytes "m" "op" false := by
  intro bytes
  refine ⟨rfl, ?_⟩
  have hnone : (verifySignedMessage slotPlatform.toNodePlatform referenceNode bytes "p").1 = none :=
    verifySignedMessage_of_no_pubkey (by decide) ⟨_, rfl⟩ (slotPlatform_pubkey "m" "op" "o" false)
      referenceNode "p"
  rintro ⟨parts, -, hparts, -⟩
  exact nomatch hnone.symm.trans hparts

/-! ## Local deletions -/

/-- Of what a node has for manifest `m`, a deletion that leaves `n'` takes nothing that one that
leaves `n''` would keep. -/
structure RemovesNoMore (entries : String → H → List WorkloadInfo) (m : String)
    (n n' n'' : Node H) : Prop where
  workloads : ∀ name, ∀ w ∈ entries name n.host, w.manifestId = m → w ∉ entries name n'.host →
    w ∉ entries name n''.host
  provider : n.provider m ≠ none → n'.provider m = none → n''.provider m = none
  owner : n.owner m ≠ none → n'.owner m = none → n''.owner m = none

theorem RemovesNoMore.refl (entries : String → H → List WorkloadInfo) (m : String)
    (n n' : Node H) : RemovesNoMore entries m n n' n' :=
  ⟨fun _ _ _ _ h => h, fun _ h => h, fun _ h => h⟩

theorem handleLocalDelete_snd (n : Node H) (manifestId : String) (force : Bool) :
    (handleLocalDelete n manifestId force).2 = (removeWorkloadsByManifestId n manifestId).2 := by
  unfold handleLocalDelete
  split <;> simp_all

/-- At the node itself, `delete_task` removes what belongs to the manifest. -/
theorem DeleteRun.provider_local {r : DeleteRun H} {provider : String × Delivery}
    (hlocal : P.parsePeerId provider.1 = .ok r.node.localPeer) (taskId : String) (force : Bool)
    (deleteRequest : Bytes) :
    (r.provider P taskId force deleteRequest provider).node =
      (removeWorkloadsByManifestId r.node taskId).2 := by
  rw [← handleLocalDelete_snd r.node taskId force]
  simp only [DeleteRun.provider, hlocal, if_true]
  split <;> simp_all

/-- **A local deletion asks for no owner**: at a node that provides the manifest it takes no more
than a delete request of the same client would exactly when there is no registry, or the recorded
owner is the client or overridden. -/
theorem localDelete_removesNoMore_iff (P : MachinePlatform)
    (entries : String → H → List WorkloadInfo) (r : DeleteRun H) (provider : String × Delivery)
    (hlocal : P.parsePeerId provider.1 = .ok r.node.localPeer) (deleteRequest : Bytes)
    (task : DeleteTask) (hprovider : r.node.provider task.manifestId ≠ none) :
    RemovesNoMore entries task.manifestId r.node
        (r.provider P task.manifestId task.force deleteRequest provider).node
        (processDeleteRequest r.node task).node ↔
      r.node.registry = none ∨ Authorized r.node task := by
  rw [DeleteRun.provider_local hlocal]
  cases hregistry : r.node.registry with
  | none =>
    simp only [true_or, iff_true]
    have hlocalNode : (removeWorkloadsByManifestId r.node task.manifestId).2 = r.node := by
      simp [removeWorkloadsByManifestId, hregistry]
    rw [hlocalNode]
    exact ⟨fun _ w hw _ hgone => absurd hw hgone, fun h h' => absurd h' h,
      fun h h' => absurd h' h⟩
  | some registry =>
    simp only [reduceCtorEq, false_or]
    by_cases hauthorized : Authorized r.node task
    · obtain ⟨hnode, -⟩ := processDeleteRequest_of_authorized hauthorized hregistry
      rw [hnode]
      exact ⟨fun _ => hauthorized, fun _ => .refl _ _ _ _⟩
    · obtain ⟨hnode, -⟩ := processDeleteRequest_of_not_authorized hauthorized
      obtain ⟨-, -, hproviders, -⟩ :=
        removeWorkloadsByManifestId_of_registry (m := task.manifestId) hregistry
      rw [hnode]
      -- The local deletion takes the provider entry, which the refused one keeps.
      have hgone := hproviders task.manifestId
      rw [if_pos rfl] at hgone
      exact ⟨fun h => absurd (h.provider hprovider hgone) hprovider,
        fun h => absurd h hauthorized⟩

/-- The owner of `m` deletes it at the node itself. -/
theorem localDelete_owner_reference :
    RemovesNoMore podEntries "m" (deleteNode fun _ => false)
      (DeleteRun.provider (referenceMachine trusting) "m" false []
        { node := deleteNode fun _ => false } ("node", .handled)).node
      (processDeleteRequest (deleteNode fun _ => false) deleteTaskM).node :=
  (localDelete_removesNoMore_iff (referenceMachine trusting) podEntries
    { node := deleteNode fun _ => false } ("node", .handled) rfl [] deleteTaskM (by decide)).mpr
    (.inr ⟨[7], by decide, by decide, .inl rfl⟩)

/-- Key `8`, which does not own `m`, deletes it at the node itself, though its delete request is
refused. -/
theorem localDelete_by_stranger :
    let n := deleteNode fun _ => false
    let task : DeleteTask := { deleteTaskM with envelopePubkey := [8] }
    let deleted := (DeleteRun.provider (referenceMachine trusting) "m" task.force []
      { node := n } ("node", .handled)).node
    deleted.provider "m" = none ∧ deleted.owner "m" = none ∧
      (processDeleteRequest n task).succeeded = false ∧
      ¬ RemovesNoMore podEntries "m" n deleted (processDeleteRequest n task).node := by
  intro n task deleted
  have hprovider : deleted.provider "m" = none := by decide
  have hkept : (processDeleteRequest n task).node.provider "m" ≠ none := by decide
  exact ⟨hprovider, by decide, by decide, fun h => hkept (h.provider (by decide) hprovider)⟩

end Beemesh
