import Beemesh.Tasks.System

/-!
# Interleavings on the reference node

The steps of an apply of the pod manifest, and the arrival of the messages that start it and a
delete task, on a platform where every key has signed everything. Interleavings are tried on it.

## Main definitions

* `everyone`: the platform
* `podCall`: an apply of the pod manifest
* `deletePod`: a delete request

## Main results

* `step_applyMessage_pod`, `step_selfApply_pod`, `step_deleteMessage_pod`: messages that arrive
* `step_decrypt_pod`, `step_select_pod`, `step_deploy_pod`, `step_announce_pod`: the steps of an
  apply
-/

namespace Beemesh

/-- The platform on which every key has signed everything. -/
def everyone : NodePlatform := referenceNodePlatform fun _ _ => true

/-- The bytes of the pod manifest. -/
def podText : Bytes := podYaml.toUTF8.data.toList

/-- An apply of the pod manifest as `m` under a key. -/
def podCall (m : String) (key : Bytes) (stage : ApplyStage) : ApplyCall :=
  ⟨applyPod m, podManifest, key, stage⟩

/-- A delete request for `m`, signed by a key. -/
def deletePod (m : String) (key : Bytes) (nonce : String) : Bytes :=
  sealedBy key (deleteRequestCodec.write ⟨some m, some "op", false⟩) nonce

/-- The task that it spawns. -/
def podTask (m : String) (key : Bytes) (nonce : String) : DeleteTask :=
  ⟨m, "op", false, key, deletePod m key nonce⟩

variable {s : System Pods} {m : String} {key : Bytes}

/-! ## Messages -/

/-- Every key's envelope is accepted under a nonce that is not live. -/
theorem everyone_verifies (key : Bytes) {n : Node Pods} {peer nonce : String}
    (hnonce : ¬ n.nonceStore.Live n.now nonceWindow peer nonce) (payload : Bytes) :
    ∃ parts, verifyEnvelopeAndCheckNonceForPeer everyone n (sealedBy key payload nonce) peer =
        (.ok parts, n.noted peer nonce) ∧
      parts.payload = payload ∧ parts.pubkey = key ∧ parts.timestampMs = 0 :=
  verify_sealedBy (fun _ => rfl) hnonce payload

/-- An apply message under an active reservation starts an apply. -/
theorem step_applyMessage_pod {peer nonce : String} (hfree : s.busy = false)
    (hnonce : ¬ s.node.nonceStore.Live s.node.now nonceWindow peer nonce) (hm : m ≠ "")
    (hreserved : (s.node.verifier.hasActiveReservationForManifest s.node.now m).1 = true) :
    s.step everyone (.applyMessage peer
        (sealedBy key (applyRequestCodec.write (applyPod m)) nonce)) =
      { s with
        node := { s.node.noted peer nonce with verifier := s.node.verifier.pruned s.node.now }
        apply := some (podCall m key .decrypt) } := by
  obtain ⟨parts, hverify, hpayload, hpubkey, -⟩ := everyone_verifies key hnonce
    (applyRequestCodec.write (applyPod m))
  have hread : everyone.rootAsApplyRequest (applyRequestCodec.write (applyPod m)) =
      .ok (applyPod m) := referenceNodePlatform_rootAsApplyRequest _ _
  have hreserved' : ((s.node.noted peer nonce).verifier.hasActiveReservationForManifest
      (s.node.noted peer nonce).now m).1 = true := hreserved
  simp only [System.step, hfree, Bool.false_eq_true, if_false, receiveApply, hverify, hpayload,
    hread, hpubkey]
  simp only [applyPod, Option.getD_some, if_neg hm, hreserved', if_true]
  rfl

/-- A request of the node to itself starts an apply under its own key. -/
theorem step_selfApply_pod (hfree : s.busy = false) :
    s.step everyone (.selfApply (applyRequestCodec.write (applyPod m))) =
      { s with apply := some (podCall m s.node.signingPubkey .decrypt) } := by
  have hread : everyone.rootAsApplyRequest (applyRequestCodec.write (applyPod m)) =
      .ok (applyPod m) := referenceNodePlatform_rootAsApplyRequest _ _
  have hcall := receiveSelfApply_of_ok (n := s.node) hread rfl
  simp only [System.step, hfree, Bool.false_eq_true, if_false, hcall]
  rfl

/-- A delete message spawns a task. -/
theorem step_deleteMessage_pod {peer nonce : String} (hfree : s.busy = false)
    (hnonce : ¬ s.node.nonceStore.Live s.node.now nonceWindow peer nonce) :
    s.step everyone (.deleteMessage peer (deletePod m key nonce)) =
      { s with node := { s.node.noted peer nonce with
          deleteTasks := s.node.deleteTasks ++ [podTask m key nonce] } } := by
  obtain ⟨parts, hverify, hpayload, hpubkey, -⟩ := everyone_verifies key hnonce
    (deleteRequestCodec.write ⟨some m, some "op", false⟩)
  have hread : everyone.rootAsDeleteRequest
      (deleteRequestCodec.write ⟨some m, some "op", false⟩) = .ok ⟨some m, some "op", false⟩ :=
    referenceNodePlatform_rootAsDeleteRequest _ _
  simp only [System.step, hfree, Bool.false_eq_true, if_false, deleteMessage, verifySignedMessage,
    deletePod, hverify, hpayload, hread, hpubkey]
  rfl

/-! ## Steps -/

/-- The owner is recorded. -/
theorem step_decrypt_pod (happly : s.apply = some (podCall m key .decrypt)) :
    s.step everyone .applyStep =
      { s with
        node := s.node.recordOwner m key
        apply := some (podCall m key (.select podText)) } := by
  have hdecrypt : everyone.decryptManifestContent podManifest = .ok podText :=
    referenceNodePlatform_decryptManifestContent _ rfl rfl
  have hstep : applyStep everyone s.node (podCall m key .decrypt) =
      (s.node.recordOwner m key, podCall m key (.select podText)) :=
    applyStep_of_decrypt rfl hdecrypt
  simp only [System.step, happly, hstep]

/-- Podman is selected. -/
theorem step_select_pod (happly : s.apply = some (podCall m key (.select podText)))
    (hregistry : s.node.registry = some podmanRegistry) :
    s.step everyone .applyStep =
      { s with apply := some (podCall m key (.deploy podText "podman")) } := by
  have hselect : selectRuntimeEngine none (some podmanRegistry) s.node.host = .ok "podman" := rfl
  have htext : everyone.modifyManifestReplicas podText = .ok podText := rfl
  have hrequested : everyone.runtimeEngineAnnotation podText = none := rfl
  simp only [System.step, happly, applyStep, podCall, htext, hrequested, hregistry, hselect]

/-- The pod is deployed. -/
theorem step_deploy_pod (happly : s.apply = some (podCall m key (.deploy podText "podman")))
    (hregistry : s.node.registry = some podmanRegistry) :
    s.step everyone .applyStep =
      { s with
        node := { s.node with host := s.node.host.insert m ∅ }
        apply := some (podCall m key (.announce "podman" ⟨"beemesh-" ++ m, m, ∅⟩)) } := by
  have hengine : (s.node.registry.bind (·.getEngine "podman")) = some podman := by
    rw [hregistry]
    rfl
  simp only [System.step, happly, applyStep, podCall, hengine]
  rfl

/-- The node is announced. -/
theorem step_announce_pod {w : WorkloadInfo}
    (happly : s.apply = some (podCall m key (.announce "podman" w))) :
    s.step everyone .applyStep =
      { s with
        node := s.node.announce m (deploymentMetadata "podman" w.id)
        apply := some (podCall m key .done) } := by
  simp only [System.step, happly, applyStep, podCall]
  rfl

end Beemesh
