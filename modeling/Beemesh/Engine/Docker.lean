import Beemesh.Engine.Command

/-!
# The Docker engine

`DockerEngine` deploys a manifest as a compose project, whose name carries the manifest id. In what
`docker ps` prints it reads the names of containers, and takes each for a workload of its own, of an
unknown manifest.

## Main definitions

* `DockerEngine.generateWorkloadId`: the project of a manifest
* `DockerEngine.engine`: the engine

## Main results

* `DockerEngine.Obeys.lists_iff`: what the engine lists
* `DockerEngine.Obeys.deployed_lists_iff`: when it finds a deployed workload again
-/

namespace Beemesh

namespace DockerEngine

variable {T : Type} (serde : Serde) (cli : Cli T)

def isAvailable (t : T) : Bool :=
  match (cli t (words ["--version"])).1 with
  | .ok output => output.success
  | .error _ => false

/-! ## Manifests -/

/-- The names of the services of a compose file. -/
def serviceNames (services : List (Yaml × Yaml)) : String :=
  String.intercalate "," (services.filterMap fun service => service.1.asStr)

def parseManifestMetadata (content : Bytes) : Table String String :=
  match serde.fromYaml (Text.fromUtf8Lossy content) with
  | .error _ => ∅
  | .ok doc =>
    note "version" (doc.getStr "version") ∅
      |> note "services" (((doc.get "services").bind Yaml.asMapping).map serviceNames)
      |> note "name" ((doc.get "metadata").bind (Yaml.getStr "name"))

def validateManifest (content : Bytes) : Except RuntimeError Unit :=
  match serde.fromYaml (Text.fromUtf8Lossy content) with
  | .ok doc =>
    if (doc.get "services").isNone then
      .error (.invalidManifest "Missing services section in Docker Compose")
    else .ok ()
  | .error err => .error (.invalidManifest ("YAML parse error: " ++ err))

def generateWorkloadId (manifestId : String) (content : Bytes) : String :=
  let manifestName := ((parseManifestMetadata serde content).lookup "name").getD "unnamed"
  "beemesh-" ++ manifestName ++ "-" ++ manifestId

/-! ## Workloads -/

/-- The command that brings a project up. The service to scale is the word `service`. -/
def composeUp (config : DeploymentConfig) (content : Bytes) (workloadId : String) : List Arg :=
  words ["compose", "-f"] ++ [.file content] ++ words ["-p", workloadId] ++
    words (if config.replicas.toNat > 1 then ["up", "-d", "--scale", "service=1"] else ["up", "-d"])

def deployWorkload (t : T) (manifestId : String) (content : Bytes) (config : DeploymentConfig) :
    Except RuntimeError WorkloadInfo × T :=
  match validateManifest serde content with
  | .error err => (.error err, t)
  | .ok () =>
    let workloadId := generateWorkloadId serde manifestId content
    match cli.execute t (composeUp config content workloadId) with
    | (.error err, t) =>
      (.error (.deploymentFailed ("Docker deployment failed: " ++ err.display)), t)
    | (.ok _, t) => (.ok ⟨workloadId, manifestId, parseManifestMetadata serde content⟩, t)

/-- The command that lists the containers. -/
def dockerPs : List Arg := words ["ps", "-a", "--filter", "name=beemesh-", "--format", "json"]

/-- The names in what `docker ps` printed: a line that is no container counts as none. -/
def containersOf (output : String) : List String :=
  (Text.lines output).filterMap fun line =>
    match serde.fromJson line with
    | .ok container => container.getStr "Names"
    | .error _ => none

def listWorkloads (t : T) : Except RuntimeError (List WorkloadInfo) :=
  match (cli.execute t dockerPs).1 with
  | .error err => .error err
  | .ok output => .ok ((containersOf serde output).map fun name => ⟨name, "unknown", ∅⟩)

def removeWorkload (t : T) (workloadId : String) : Except RuntimeError Unit × T :=
  match cli.execute t (words ["compose", "-p", workloadId, "down", "-v"]) with
  | (.ok _, t) => (.ok (), t)
  -- A project that does not go down counts as removed, too.
  | (.error _, t) => (.ok (), (cli.execute t (words ["container", "rm", "-f", workloadId])).2)

/-- `DockerEngine` as a `RuntimeEngine`. -/
def engine : RuntimeEngine T where
  isAvailable := isAvailable cli
  deployWorkload t manifestId content config :=
    displayed (deployWorkload serde cli t manifestId content config)
  listWorkloads t := (listWorkloads serde cli t).mapError RuntimeError.display
  removeWorkload t workloadId := displayed (removeWorkload cli t workloadId)

/-! ## Deployed projects -/

/-- What the engine relies on in docker, which has the containers `names t` and makes the containers
`containerNames project content` of a compose file: it lists its containers, and bringing a project
up adds those that it makes of it. -/
structure Obeys (names : T → List String) (containerNames : String → Bytes → List String) :
    Prop where
  ps (t : T) : ∃ output, (cli.execute t dockerPs).1 = .ok output ∧
    containersOf serde output = names t
  up {t t' : T} {config : DeploymentConfig} {content : Bytes} {project output : String}
    (hup : cli.execute t (composeUp config content project) = (.ok output, t')) :
    ∀ name, name ∈ names t' ↔ name ∈ names t ∨ name ∈ containerNames project content

variable {serde cli}

/-- A deployment that succeeds has brought its project up. -/
theorem deployWorkload_ok {t t' : T} {m : String} {content : Bytes} {config : DeploymentConfig}
    {info : WorkloadInfo}
    (h : (engine serde cli).deployWorkload t m content config = (.ok info, t')) :
    ∃ output, cli.execute t (composeUp config content info.id) = (.ok output, t') ∧
      info.id = generateWorkloadId serde m content := by
  have h : deployWorkload serde cli t m content config = (.ok info, t') :=
    displayed_eq_ok_iff.mp h
  unfold deployWorkload at h
  split at h
  · exact nomatch h
  · dsimp only at h
    split at h
    · exact nomatch h
    · next output t₁ hup =>
      obtain ⟨hinfo, rfl⟩ := Prod.mk.inj h
      obtain rfl := Except.ok.inj hinfo
      exact ⟨output, hup, rfl⟩

variable {names : T → List String} {containerNames : String → Bytes → List String}
  (h : Obeys serde cli names containerNames)

include h

/-- **The workloads docker lists** are its containers, all of them of the manifest `unknown`. -/
theorem Obeys.lists_iff (t : T) (m id : String) :
    (engine serde cli).Lists t m id ↔ m = "unknown" ∧ id ∈ names t := by
  obtain ⟨output, hps, hnames⟩ := h.ps t
  have hlist : (engine serde cli).listWorkloads t =
      .ok ((names t).map fun name => ⟨name, "unknown", ∅⟩) := by
    simp only [engine, listWorkloads, hps, hnames, Except.mapError]
  constructor
  · rintro ⟨workloads, hworkloads, w, hw, rfl, rfl⟩
    obtain rfl := Except.ok.inj (hlist.symm.trans hworkloads)
    obtain ⟨name, hname, rfl⟩ := List.mem_map.mp hw
    exact ⟨rfl, hname⟩
  · rintro ⟨rfl, hid⟩
    exact ⟨_, hlist, _, List.mem_map_of_mem hid, rfl, rfl⟩

/-- **Docker finds a deployed workload again** if and only if its manifest id is `unknown` and one
of the containers that were there or were made has the name of the project. -/
theorem Obeys.deployed_lists_iff {t t' : T} {m : String} {content : Bytes}
    {config : DeploymentConfig} {info : WorkloadInfo}
    (hdeploy : (engine serde cli).deployWorkload t m content config = (.ok info, t')) :
    let project := generateWorkloadId serde m content
    (engine serde cli).Lists t' m info.id ↔
      m = "unknown" ∧ project ∈ names t ++ containerNames project content := by
  intro project
  obtain ⟨output, hup, hid⟩ := deployWorkload_ok hdeploy
  rw [h.lists_iff, h.up hup, List.mem_append, hid]

end DockerEngine

end Beemesh
