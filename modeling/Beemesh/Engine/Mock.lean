import Beemesh.Engine.Command
import Beemesh.Rest.Candidates

/-!
# The mock engine

`MockEngine` runs nothing: it keeps what it was asked to deploy in a table under workload ids, and
lists the table by the time of deployment.

## Main definitions

* `MockWorkload`, `MockHost`: the table
* `MockEngine.parseManifestMetadata`: JSON, or else the lines that look like fields
* `MockEngine.engine`: the engine
* `MockEngine.deployWorkloadWithPeer`: a deployment under an id that also names the local peer

## Main results

* `MockEngine.deployed_lists`: a deployed workload is listed
-/

namespace Beemesh

/-- `MockWorkload`, with the time it was created. -/
structure MockWorkload where
  info : WorkloadInfo
  config : DeploymentConfig
  createdAt : ℕ

/-- The workloads of a mock engine, and the clock. -/
structure MockHost where
  workloads : Table String MockWorkload := ∅
  now : ℕ := 0

namespace MockEngine

/-! ## Manifests -/

/-- What a line of the manifest adds: the fields are known by the look of the line. -/
def noteLine (metadata : Table String String) (line : String) : Table String String :=
  let line := Text.trim line
  if Text.startsWith line "kind:" then
    note "kind" ((Text.stripPrefix line "kind:").map Text.trim) metadata
  else if Text.startsWith line "apiVersion:" then
    note "apiVersion" ((Text.stripPrefix line "apiVersion:").map Text.trim) metadata
  else if Text.contains line "name:" then
    note "name" (((Text.secondPiece line "name:").map Text.trim).filter (· ≠ "")) metadata
  else metadata

variable (serde : Serde)

def parseManifestMetadata (content : Bytes) : Table String String :=
  let manifest := Text.fromUtf8Lossy content
  match serde.fromJson manifest with
  | .ok json =>
    let sub := json.get "metadata"
    note "kind" (json.getStr "kind") ∅ |> note "apiVersion" (json.getStr "apiVersion")
      |> note "name" (sub.bind (Json.getStr "name"))
      |> note "namespace" (sub.bind (Json.getStr "namespace"))
  | .error _ => (Text.lines manifest).foldl noteLine ∅

def validateManifest (content : Bytes) : Except RuntimeError Unit :=
  let manifest := Text.fromUtf8Lossy content
  if Text.trim manifest = "" then .error (.invalidManifest "Empty manifest")
  else match serde.fromYaml manifest with
    | .error _ => .error (.invalidManifest "Invalid YAML format")
    | .ok _ => .ok ()

def generateWorkloadId (manifestId : String) (content : Bytes) : String :=
  let manifestName := ((parseManifestMetadata serde content).lookup "name").getD "unnamed"
  "mock-" ++ manifestName ++ "-" ++ manifestId

/-- The last twelve characters of a peer id, which are of one byte each. -/
def peerShort (peerId : PeerId) : String :=
  let peerStr := peerId.text.toList
  if peerStr.length > 12 then String.ofList (peerStr.drop (peerStr.length - 12)) else peerId.text

def generateWorkloadIdWithPeer (manifestId : String) (content : Bytes) (peerId : PeerId) :
    String :=
  let manifestName := ((parseManifestMetadata serde content).lookup "name").getD "unnamed"
  "mock-" ++ manifestName ++ "-" ++ manifestId ++ "-" ++ peerShort peerId

/-! ## Workloads -/

-- `should_deployment_succeed` draws a random number; what it comes to is an argument.
variable (shouldDeploymentSucceed : MockHost → Bool)

def deployWorkload (host : MockHost) (manifestId : String) (content : Bytes)
    (config : DeploymentConfig) : Except RuntimeError WorkloadInfo × MockHost :=
  match validateManifest serde content with
  | .error err => (.error err, host)
  | .ok () =>
    if shouldDeploymentSucceed host then
      let workloadId := generateWorkloadId serde manifestId content
      let info : WorkloadInfo := ⟨workloadId, manifestId, parseManifestMetadata serde content⟩
      (.ok info, { host with
        workloads := host.workloads.insert workloadId ⟨info, config, host.now⟩ })
    else (.error (.deploymentFailed "Mock deployment failure"), host)

/-- `deploy_workload_with_peer`: the manifest is not validated. -/
def deployWorkloadWithPeer (host : MockHost) (manifestId : String) (content : Bytes)
    (config : DeploymentConfig) (localPeerId : PeerId) :
    Except RuntimeError WorkloadInfo × MockHost :=
  if shouldDeploymentSucceed host then
    let workloadId := generateWorkloadIdWithPeer serde manifestId content localPeerId
    let metadata :=
      (parseManifestMetadata serde content).insert "local_peer_id" localPeerId.text
    let info : WorkloadInfo := ⟨workloadId, manifestId, metadata⟩
    (.ok info, { host with
      workloads := host.workloads.insert workloadId ⟨info, config, host.now⟩ })
  else (.error (.deploymentFailed "Mock deployment failure"), host)

def listWorkloads (host : MockHost) : List WorkloadInfo :=
  ((host.workloads.entries.map Sigma.snd).mergeSort fun a b => a.createdAt ≤ b.createdAt).map
    MockWorkload.info

def removeWorkload (host : MockHost) (workloadId : String) : Except RuntimeError Unit × MockHost :=
  match host.workloads.lookup workloadId with
  | some _ => (.ok (), { host with workloads := host.workloads.erase workloadId })
  | none => (.error (.workloadNotFound workloadId), host)

/-- `MockEngine` as a `RuntimeEngine`. -/
def engine : RuntimeEngine MockHost where
  isAvailable _ := true
  deployWorkload host manifestId content config :=
    displayed (deployWorkload serde shouldDeploymentSucceed host manifestId content config)
  listWorkloads host := .ok (listWorkloads host)
  removeWorkload host workloadId := displayed (removeWorkload host workloadId)

variable {serde shouldDeploymentSucceed}

theorem mem_listWorkloads {host : MockHost} {w : WorkloadInfo} :
    w ∈ listWorkloads host ↔ ∃ entry ∈ host.workloads.entries, entry.2.info = w := by
  rw [listWorkloads, List.mem_map]
  constructor
  · rintro ⟨workload, hworkload, rfl⟩
    obtain ⟨entry, hentry, rfl⟩ := List.mem_map.mp (List.mem_mergeSort.mp hworkload)
    exact ⟨entry, hentry, rfl⟩
  · rintro ⟨entry, hentry, rfl⟩
    exact ⟨entry.2, List.mem_mergeSort.mpr (List.mem_map_of_mem hentry), rfl⟩

/-- A deployment that succeeds has put its workload into the table. -/
theorem deployWorkload_ok {host host' : MockHost} {m : String} {content : Bytes}
    {config : DeploymentConfig} {info : WorkloadInfo}
    (h : (engine serde shouldDeploymentSucceed).deployWorkload host m content config =
      (.ok info, host')) :
    info.manifestId = m ∧
      host'.workloads = host.workloads.insert info.id ⟨info, config, host.now⟩ := by
  have h : deployWorkload serde shouldDeploymentSucceed host m content config = (.ok info, host') :=
    displayed_eq_ok_iff.mp h
  unfold deployWorkload at h
  split at h
  · exact nomatch h
  · dsimp only at h
    split_ifs at h
    · obtain ⟨hinfo, rfl⟩ := Prod.mk.inj h
      obtain rfl := Except.ok.inj hinfo
      exact ⟨rfl, rfl⟩
    · exact nomatch h

/-- **The mock engine finds a deployed workload again.** -/
theorem deployed_lists {host host' : MockHost} {m : String} {content : Bytes}
    {config : DeploymentConfig} {info : WorkloadInfo}
    (h : (engine serde shouldDeploymentSucceed).deployWorkload host m content config =
      (.ok info, host')) :
    (engine serde shouldDeploymentSucceed).Lists host' m info.id := by
  obtain ⟨hm, hworkloads⟩ := deployWorkload_ok h
  have hentry : ⟨info.id, info, config, host.now⟩ ∈ host'.workloads.entries := by
    rw [hworkloads, AList.entries_insert]
    exact .head _
  exact ⟨_, rfl, info, mem_listWorkloads.mpr ⟨_, hentry, rfl⟩, hm, rfl⟩

end MockEngine

end Beemesh
