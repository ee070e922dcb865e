import Beemesh.Lib.Table
import Beemesh.Workplane.SelfHeal

/-!
# Deployments with Podman

A machine deploys a task by making one pod, whose name it takes from the namespace and the name of
the workload, and in it a container for each container of the manifest, and an infra container
beside them. Every container is started once it is made. The first thing that goes wrong ends the
deployment.

What Podman and the file system do is a state, and what they answer, a step of the deployment at a
time, is given: each step may fail for a reason of its own.

## Main definitions

* `Podman`: pods, containers and files of a machine
* `Point`, `HostReplies`: the steps of a deployment, and what the machine answers to each
* `podPlan`: what a task says there is to deploy
* `deployFromManifest`, `deployWorkloadFromTask`: a deployment
-/

namespace Beemesh.Workplane

/-! ## Kubernetes objects -/

/-- `corev1.ContainerPort`. -/
structure ContainerPort where
  containerPort : ℤ
  protocol : String

/-- `corev1.Container`, as far as a deployment reads it. -/
structure ManifestContainer where
  name : String
  image : String
  command : List String
  args : List String
  /-- Names and values. -/
  env : List (String × String)
  /-- The names of volumes, and where they are mounted. -/
  volumeMounts : List (String × String)
  ports : List ContainerPort

/-- `corev1.Volume`: only a volume of the host has a path. -/
structure Volume where
  name : String
  hostPath : Option String

/-- `corev1.PodSpec`. -/
structure PodSpec where
  containers : List ManifestContainer
  volumes : List Volume

/-- A Deployment or a StatefulSet. -/
structure AppsObject where
  name : String
  namespaceName : String
  podSpec : PodSpec

/-- `runtime.Object`. -/
inductive RuntimeObject
  | deployment (o : AppsObject)
  | statefulSet (o : AppsObject)
  | other

/-- What manifests are decoded with. -/
structure ManifestDecoder where
  /-- The text that a JSON object has for its kind, if it has one. -/
  jsonKind : String → Except String (Option String)
  /-- The universal deserializer: an object and its kind. -/
  decode : String → Except String (RuntimeObject × String)

/-! ## Podman -/

/-- `specgen.Mount`. -/
structure Mount where
  source : String
  destination : String
  type : String
  options : List String

/-- `specgen.PortMapping`. -/
structure PortMapping where
  containerPort : ℤ
  hostPort : ℤ
  protocol : String

/-- `specgen.SpecGenerator`. -/
structure SpecGenerator where
  image : String
  name : String
  pod : String
  command : List String := []
  env : Table String String
  mounts : List Mount := []
  portMappings : List PortMapping := []
  /-- The pause container of its pod. -/
  init : Bool := false

structure Pod where
  id : String
  labels : List (String × String)

structure Container where
  id : String
  spec : SpecGenerator

/-- The machine that a deployment changes: its pods by name, its containers, which of them were
started, and its files. -/
structure Podman where
  pods : Table String Pod := ∅
  containers : List Container := []
  started : List String := []
  dirs : List String := []
  files : Table String String := ∅

/-- The steps of a deployment that can fail. -/
inductive Point
  | createPod
  | createContainer (i : ℕ)
  | startContainer (i : ℕ)
  | generateKey
  | derivePeerID
  | manifestDir
  | manifestFile
  | createInfra
  | startInfra
  deriving DecidableEq

/-- What the machine answers to the steps of one deployment. -/
structure HostReplies where
  /-- Why a step fails, if it does. -/
  fault : Point → Option String
  /-- The ID of what a step makes. -/
  newID : Point → String
  newID_ne_empty : ∀ p, newID p ≠ ""
  /-- What is said of a pod whose name is taken. -/
  nameInUse : String → String
  /-- A new private key, as text. -/
  privateKey : String
  /-- The identity of a private key. -/
  peerID : String → String
  getenv : String → String

section

variable (h : HostReplies)

/-- `CreatePod`. -/
def createPod (name : String) (labels : List (String × String)) (s : Podman) :
    Except String String × Podman :=
  match h.fault .createPod with
  | some e => (.error s!"failed to create pod: {e}", s)
  | none =>
    if name ∈ s.pods then (.error s!"failed to create pod: {h.nameInUse name}", s)
    else
      let id := h.newID .createPod
      (.ok id, { s with pods := s.pods.insert name ⟨id, labels⟩ })

/-- `CreateContainerFromSpec`. -/
def createContainerFromSpec (p : Point) (spec : SpecGenerator) (s : Podman) :
    Except String String × Podman :=
  match h.fault p with
  | some e => (.error s!"failed to create container: {e}", s)
  | none => (.ok (h.newID p), { s with containers := s.containers ++ [⟨h.newID p, spec⟩] })

/-- `StartContainer`. -/
def startContainer (p : Point) (containerID : String) (s : Podman) :
    Except String Unit × Podman :=
  if containerID = "" then (.error "container ID cannot be empty", s)
  else
    match h.fault p with
    | some e => (.error s!"failed to start container: {e}", s)
    | none => (.ok (), { s with started := s.started ++ [containerID] })

/-- `generateAndEncodePrivateKey`. -/
def generateAndEncodePrivateKey : Except String String :=
  match h.fault .generateKey with
  | some e => .error e
  | none => .ok h.privateKey

/-- `derivePeerIDFromPrivateKey`. -/
def derivePeerIDFromPrivateKey (b64PrivKey : String) : Except String String :=
  match h.fault .derivePeerID with
  | some e => .error e
  | none => .ok (h.peerID b64PrivKey)

/-- `os.MkdirAll`. -/
def mkdirAll (path : String) (s : Podman) : Except String Unit × Podman :=
  match h.fault .manifestDir with
  | some e => (.error e, s)
  | none => (.ok (), { s with dirs := s.dirs ++ [path] })

/-- `os.WriteFile`. -/
def writeFile (path content : String) (s : Podman) : Except String Unit × Podman :=
  match h.fault .manifestFile with
  | some e => (.error e, s)
  | none => (.ok (), { s with files := s.files.insert path content })

/-! ## What is deployed -/

/-- What a manifest says there is to deploy, its defaults filled in. -/
structure PodPlan where
  kind : String
  name : String
  namespaceName : String
  podSpec : PodSpec

/-- The first part of `deployFromManifest`: the object is decoded, and names that are missing are
filled in. -/
def podPlan (K : ManifestDecoder) (task : Task) : Except String PodPlan :=
  let plan (kind : String) (o : AppsObject) : PodPlan :=
    { kind := kind
      name := if o.name = "" then "unnamed-workload" else o.name
      namespaceName :=
        if o.namespaceName = "" then
          if task.namespaceName = "" then "default" else task.namespaceName
        else o.namespaceName
      podSpec := o.podSpec }
  match K.decode task.manifest with
  | .error e => .error s!"failed to decode manifest: {e}"
  | .ok (.deployment o, kind) => .ok (plan kind o)
  | .ok (.statefulSet o, kind) => .ok (plan kind o)
  -- The scheme knows objects that are no workload, such as services.
  | .ok (.other, kind) => .error s!"unsupported resource type: {kind}"

namespace PodPlan

variable (plan : PodPlan)

def podName : String := s!"{plan.namespaceName}-{plan.name}"

/-- The labels of the pod. -/
def labels (task : Task) : List (String × String) :=
  [("namespace", plan.namespaceName), ("workload", plan.name), ("k8s-kind", plan.kind),
    ("beemesh-task", task.taskID)]

/-- The name of the container at `i`. -/
def contName (i : ℕ) (container : ManifestContainer) : String :=
  if container.name ≠ "" then s!"{plan.podName}-{container.name}" else s!"{plan.podName}-{i + 1}"

/-- `findHostPathForVolume`. -/
def findHostPathForVolume (volumeName : String) (volumes : List Volume) : String :=
  match volumes with
  | [] => ""
  | vol :: volumes =>
    if vol.name = volumeName then vol.hostPath.getD (findHostPathForVolume volumeName volumes)
    else findHostPathForVolume volumeName volumes

/-- A map with these names and values, of which a later one counts. -/
def envOf (vars : List (String × String)) : Table String String :=
  vars.foldl (fun env e => env.insert e.1 e.2) ∅

/-- The container at `i`, in the pod with this ID. -/
def containerSpec (podID : String) (i : ℕ) (container : ManifestContainer) : SpecGenerator :=
  { image := container.image
    name := plan.contName i container
    pod := podID
    command := container.command ++ container.args
    env := envOf container.env
    mounts := container.volumeMounts.filterMap fun (volumeName, mountPath) =>
      let hostPath := findHostPathForVolume volumeName plan.podSpec.volumes
      if hostPath ≠ "" then some ⟨hostPath, mountPath, "bind", ["rw"]⟩ else none
    portMappings := container.ports.map fun port =>
      ⟨port.containerPort, port.containerPort, toLower port.protocol⟩ }

/-- The parts of a path from the root, cleaned: `filepath.Clean`. -/
def cleanParts (path : String) : List String :=
  (Text.split path "/").foldl (fun parts part =>
    if part = "" ∨ part = "." then parts
    else if part = ".." then parts.dropLast
    else parts ++ [part]) []

def rootedPath (parts : List String) : String := "/" ++ "/".intercalate parts

/-- Where the manifest is written to. -/
def manifestParts : List String := cleanParts s!"/tmp/{plan.podName}/manifest.yaml"

def manifestPath : String := rootedPath plan.manifestParts

def manifestDir : String := rootedPath plan.manifestParts.dropLast

/-- The infra container, which gets the manifest of the task. -/
def infraSpec (getenv : String → String) (privKey peerID : String) (task : Task) (podID : String) :
    SpecGenerator :=
  let image := getenv "BEE_WORKLOAD_INFRA_IMAGE"
  { image := if image = "" then "your-repo/beemesh-infra-container:latest" else image
    name := plan.podName ++ "-infra"
    pod := podID
    env := envOf
      [("BEE_WORKLOAD_PEER_ID", peerID), ("BEE_WORKLOAD_PRIVATE_KEY", privKey),
        ("BEE_WORKLOAD_NAMESPACE", plan.namespaceName), ("BEE_WORKLOAD_NAME", plan.name),
        ("BEE_WORKLOAD_POD_NAME", plan.podName), ("BEE_WORKLOAD_REPLICAS", toString task.replicas),
        ("BEEMESH_BOOTSTRAP_PEERS", getenv "BEEMESH_BOOTSTRAP_PEERS")]
    mounts := [⟨plan.manifestPath, "/etc/beemesh/manifest.yaml", "bind", ["ro"]⟩]
    init := true }

end PodPlan

/-! ## A deployment -/

/-- The loop over the containers of the manifest, from the container at `i`. -/
def deployContainers (plan : PodPlan) (podID : String) :
    ℕ → List ManifestContainer → Podman → Except String Unit × Podman
  | _, [], s => (.ok (), s)
  | i, container :: containers, s =>
    let contName := plan.contName i container
    match createContainerFromSpec h (.createContainer i) (plan.containerSpec podID i container) s with
    | (.error e, s) => (.error s!"failed to create container {contName}: {e}", s)
    | (.ok contID, s) =>
      match startContainer h (.startContainer i) contID s with
      | (.error e, s) => (.error s!"failed to start container {contName}: {e}", s)
      | (.ok (), s) => deployContainers plan podID (i + 1) containers s

/-- The infra container, which comes last. -/
def deployInfra (plan : PodPlan) (task : Task) (podID : String) (s : Podman) :
    Except String Unit × Podman :=
  match generateAndEncodePrivateKey h with
  | .error e => (.error s!"failed to generate infra container key: {e}", s)
  | .ok privKey =>
    match derivePeerIDFromPrivateKey h privKey with
    | .error e => (.error s!"failed to derive peer ID: {e}", s)
    | .ok peerID =>
      match mkdirAll h plan.manifestDir s with
      | (.error e, s) => (.error s!"failed to create manifest dir: {e}", s)
      | (.ok (), s) =>
        match writeFile h plan.manifestPath task.manifest s with
        | (.error e, s) => (.error s!"failed to write manifest file: {e}", s)
        | (.ok (), s) =>
          let infraSpec := plan.infraSpec h.getenv privKey peerID task podID
          match createContainerFromSpec h .createInfra infraSpec s with
          | (.error e, s) => (.error s!"failed to create infra container: {e}", s)
          | (.ok infraID, s) =>
            match startContainer h .startInfra infraID s with
            | (.error e, s) => (.error s!"failed to start infra container: {e}", s)
            | (.ok (), s) => (.ok (), s)

/-- `deployFromManifest`. -/
def deployFromManifest (K : ManifestDecoder) (task : Task) (s : Podman) :
    Except String Unit × Podman :=
  match podPlan K task with
  | .error e => (.error e, s)
  | .ok plan =>
    match createPod h plan.podName (plan.labels task) s with
    | (.error e, s) => (.error s!"failed to create pod: {e}", s)
    | (.ok podID, s) =>
      -- The pod stays, whatever fails from here on.
      match deployContainers h plan podID 0 plan.podSpec.containers s with
      | (.error e, s) => (.error e, s)
      | (.ok (), s) => deployInfra h plan task podID s

/-- `getManifestKind`. -/
def getManifestKind (K : ManifestDecoder) (manifest : String) : Except String String :=
  match K.jsonKind manifest with
  | .error e => .error e
  | .ok (some kind) => .ok kind
  | .ok none => .error "manifest is missing 'kind' field"

/-- `DeployWorkloadFromTask`. -/
def deployWorkloadFromTask (K : ManifestDecoder) (task : Task) (s : Podman) :
    Except String Unit × Podman :=
  if task.manifest = "" then (.error "task manifest cannot be empty", s)
  else
    match getManifestKind K task.manifest with
    | .error e => (.error s!"failed to determine manifest kind: {e}", s)
    | .ok kind =>
      if kind = "Deployment" ∨ kind = "StatefulSet" then deployFromManifest h K task s
      else (.error s!"unsupported manifest kind: {kind}", s)

end

end Beemesh.Workplane
