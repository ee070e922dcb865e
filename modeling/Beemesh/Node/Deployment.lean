import Beemesh.Node.Removal

/-!
# Deployment

`process_manifest_deployment` by its stages: the manifest is decrypted, its owner recorded, an
engine selected, the workload deployed and the node announced as its provider. What a deployment
that succeeds has gone through is said once.

## Main definitions

* `Node.recordOwner`: the node once it has recorded a key, if there is one
* `Node.announce`: the node once it provides a manifest
* `deployManifest`: a deployment once its owner is recorded
* `Deploys`: the stages of a deployment that succeeds

## Main results

* `deployManifest_ok`: a deployment that succeeds has gone through its stages
* `processManifestDeployment_owner`: a deployment records its key, if there is one
-/

namespace Beemesh

variable {H : Type}

/-! ## Stages -/

/-- The owner of `m` is recorded, unless the key is empty. -/
def Node.recordOwner (n : Node H) (m : String) (key : Bytes) : Node H :=
  if key = [] then n else { n with manifestOwners := n.manifestOwners.insert m key }

/-- The metadata a node announces with a workload. -/
def deploymentMetadata (engineName workloadId : String) : Table String String :=
  ((∅ : Table String String).insert "runtime_engine" engineName
    |>.insert "workload_id" workloadId).insert "node_type" "beemesh-machine"

/-- The provider manager gets a local entry for `m`. -/
def Node.announce (n : Node H) (m : String) (metadata : Table String String) : Node H :=
  { n with localProviders := n.localProviders.map (·.insert m metadata) }

section Fields

variable (n : Node H) (m : String) (key : Bytes)

@[simp] theorem recordOwner_registry : (n.recordOwner m key).registry = n.registry := by
  unfold Node.recordOwner
  split_ifs <;> rfl

@[simp] theorem recordOwner_host : (n.recordOwner m key).host = n.host := by
  unfold Node.recordOwner
  split_ifs <;> rfl

@[simp] theorem recordOwner_localProviders :
    (n.recordOwner m key).localProviders = n.localProviders := by
  unfold Node.recordOwner
  split_ifs <;> rfl

theorem recordOwner_owner (m' : String) :
    (n.recordOwner m key).owner m' =
      if key ≠ [] ∧ m' = m then some key else n.owner m' := by
  unfold Node.recordOwner
  by_cases hkey : key = []
  · simp [hkey]
  · rcases eq_or_ne m' m with rfl | hm
    · simp [hkey, Node.owner]
    · simp [hkey, hm, Node.owner, AList.lookup_insert_ne hm]

end Fields

/-- What `process_manifest_deployment` does once the manifest is decrypted and its owner recorded.
-/
def deployManifest (P : NodePlatform) (n : Node H) (req : ApplyRequest) (content : Bytes) :
    Except String String × Node H :=
  match P.modifyManifestReplicas content with
  | .error e => (.error e, n)
  | .ok content =>
    match selectRuntimeEngine (P.runtimeEngineAnnotation content) n.registry n.host with
    | .error e => (.error e, n)
    | .ok engineName =>
      match n.registry with
      | none => (.error "Runtime registry not initialized", n)
      | some registry =>
        match registry.getEngine engineName with
        | none => (.error s!"Runtime engine '{engineName}' not available", n)
        | some engine =>
          match engine.deployWorkload n.host (req.manifestId.getD "unknown") content
              (createDeploymentConfig req) with
          | (.error e, host) => (.error e, { n with host := host })
          | (.ok workload, host) =>
            (.ok workload.id, { n with host := host }.announce (req.manifestId.getD "unknown")
              (deploymentMetadata engineName workload.id))

/-- The stages of a deployment on the node `n`: the text that is deployed, the engine it goes to,
the workload that comes of it and the host it leaves. -/
def Deploys (P : NodePlatform) (n : Node H) (req : ApplyRequest) (content : Bytes)
    (engineName : String) (workload : WorkloadInfo) (host : H) : Prop :=
  ∃ text registry engine, P.modifyManifestReplicas content = .ok text ∧
    selectRuntimeEngine (P.runtimeEngineAnnotation text) n.registry n.host = .ok engineName ∧
    n.registry = some registry ∧ registry.getEngine engineName = some engine ∧
    engine.deployWorkload n.host (req.manifestId.getD "unknown") text
      (createDeploymentConfig req) = (.ok workload, host)

section Spec

variable (P : NodePlatform) {n : Node H} {req : ApplyRequest}

/-- A deployment, by its two halves. -/
theorem processManifestDeployment_eq (n : Node H) (req : ApplyRequest) (manifestJson : String)
    (key : Bytes) :
    processManifestDeployment P n req manifestJson key =
      match P.decryptManifestContent manifestJson with
      | .error e => (.error e, n)
      | .ok content =>
        deployManifest P (n.recordOwner (req.manifestId.getD "unknown") key) req content := rfl

/-- A deployment that succeeds has gone through its stages. -/
theorem deployManifest_ok {content : Bytes} {id : String} {n' : Node H}
    (h : deployManifest P n req content = (.ok id, n')) :
    ∃ engineName workload host, Deploys P n req content engineName workload host ∧
      id = workload.id ∧ n' = { n with host := host }.announce (req.manifestId.getD "unknown")
        (deploymentMetadata engineName workload.id) := by
  unfold deployManifest at h
  split at h
  · exact nomatch h
  · rename_i text htext
    split at h
    · exact nomatch h
    · rename_i engineName hselect
      split at h
      · exact nomatch h
      · rename_i registry hregistry
        split at h
        · exact nomatch h
        · rename_i engine hengine
          split at h
          · exact nomatch h
          · rename_i workload host hdeploy
            rw [Prod.mk.injEq, Except.ok.injEq] at h
            have hstages : Deploys P n req content engineName workload host :=
              ⟨text, registry, engine, htext, hselect, hregistry, hengine, hdeploy⟩
            exact ⟨engineName, workload, host, hstages, h.1.symm, h.2.symm⟩

/-- A deployment that succeeds records its key, if there is one, for its manifest. -/
theorem processManifestDeployment_owner {manifestJson : String} {key : Bytes} {id : String}
    (h : (processManifestDeployment P n req manifestJson key).1 = .ok id) (m : String) :
    (processManifestDeployment P n req manifestJson key).2.owner m =
      if key ≠ [] ∧ m = req.manifestId.getD "unknown" then some key else n.owner m := by
  rw [processManifestDeployment_eq] at h ⊢
  cases hdecrypt : P.decryptManifestContent manifestJson with
  | error e => simp [hdecrypt] at h
  | ok content =>
    simp only [hdecrypt] at h ⊢
    cases hdeploy : deployManifest P (n.recordOwner (req.manifestId.getD "unknown") key) req
        content with
    | mk result n' =>
      rw [hdeploy] at h
      obtain rfl : result = .ok id := h
      obtain ⟨engineName, workload, host, -, -, rfl⟩ := deployManifest_ok P hdeploy
      exact recordOwner_owner n _ key m

end Spec

end Beemesh
