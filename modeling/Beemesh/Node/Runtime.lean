import Beemesh.Resource.Verifier

/-!
# Runtime engines

The engines that run workloads, as the node sees them: the `RuntimeEngine` trait over a host whose
state the engines read and change, and the registry that names them. An engine is any
implementation of the trait; what the node does with it is modelled here.

## Main definitions

* `WorkloadInfo`, `DeploymentConfig`, `RuntimeEngine`, `RuntimeRegistry`
* `selectRuntimeEngine`, `updateAllocatedResources`
* `removeWorkloads`: the removal loop over every engine
-/

namespace Beemesh

/-- `WorkloadInfo`: what the node reads of it. -/
structure WorkloadInfo where
  id : String
  manifestId : String
  metadata : Table String String

/-- `DeploymentConfig`: the fields an apply request sets, and those an engine reads. The cpu limit
is the text that the source prints for it. -/
structure DeploymentConfig where
  replicas : U32 := 1
  env : Table String String := ∅
  cpu : Option String := none
  memory : Option U64 := none
  runtimeOptions : Table String String := ∅

/-- `RuntimeEngine`, over hosts `H`. -/
structure RuntimeEngine (H : Type) where
  isAvailable : H → Bool
  deployWorkload : H → String → Bytes → DeploymentConfig → Except String WorkloadInfo × H
  listWorkloads : H → Except String (List WorkloadInfo)
  removeWorkload : H → String → Except String Unit × H

/-- `RuntimeRegistry`. -/
structure RuntimeRegistry (H : Type) where
  engines : Table String (RuntimeEngine H)
  defaultEngine : Option String

namespace RuntimeRegistry

variable {H : Type} (registry : RuntimeRegistry H)

def getEngine (name : String) : Option (RuntimeEngine H) := registry.engines.lookup name

def getDefaultEngine : Option (RuntimeEngine H) := registry.defaultEngine.bind registry.getEngine

/-- An entry of `check_available_engines`, absent engines counting as unavailable. -/
def available (host : H) (name : String) : Bool :=
  match registry.getEngine name with
  | some engine => engine.isAvailable host
  | none => false

end RuntimeRegistry

variable {H : Type}

/-- `select_runtime_engine`: the engine the manifest asks for, else the first available one. -/
def selectRuntimeEngine (requested : Option String) (registry : Option (RuntimeRegistry H))
    (host : H) : Except String String :=
  match requested, registry with
  -- An engine that is asked for need not exist: that shows at deployment.
  | some engine, _ => .ok engine
  | none, some registry =>
    if registry.available host "podman" then .ok "podman"
    else if registry.available host "docker" then .ok "docker"
    else if registry.available host "mock" then .ok "mock"
    else .error "No suitable runtime engine available"
  | none, none => .error "No suitable runtime engine available"

/-! ## Allocated resources -/

/-- `str::parse` for an unsigned word: decimal digits, a plus sign in front allowed. -/
def parseUnsigned (w : ℕ) (s : String) : Option (BitVec w) :=
  let digits : List Char := match s.toList with
    | '+' :: digits => digits
    | digits => digits
  let value : ℕ := digits.foldl (fun n c => n * 10 + (c.toNat - '0'.toNat)) 0
  if digits ≠ [] ∧ digits.all Char.isDigit ∧ value < 2 ^ w then some (BitVec.ofNat w value)
  else none

/-- The amount a workload's metadata gives under `key`, if it parses. -/
def metadataAmount (w : ℕ) (workload : WorkloadInfo) (key : String) : BitVec w :=
  ((workload.metadata.lookup key).bind (parseUnsigned w)).getD 0

/-- `update_allocated_resources`, on the workloads that the default engine lists. -/
def updateAllocatedResources (registry : Option (RuntimeRegistry H)) (host : H)
    (resources : SystemResources) : SystemResources :=
  match registry with
  | none => resources
  | some registry =>
    -- Only the default engine is asked, and a list that fails counts as empty.
    let workloads := match registry.getDefaultEngine with
      | none => []
      | some engine => match engine.listWorkloads host with
        | .ok workloads => workloads
        | .error _ => []
    { resources with
      allocatedCpuMilli := workloads.foldl (fun total w =>
        total.saturatingAdd (metadataAmount 32 w "cpu_milli")) 0
      allocatedMemoryBytes := workloads.foldl (fun total w =>
        total.saturatingAdd (metadataAmount 64 w "memory_bytes")) 0
      allocatedStorageBytes := workloads.foldl (fun total w =>
        total.saturatingAdd (metadataAmount 64 w "storage_bytes")) 0
      runningWorkloads := workloads.foldl (fun total _ => total + 1) 0 }

/-- No engine lists a workload. -/
def RuntimeRegistry.NoWorkloads (registry : RuntimeRegistry H) (host : H) : Prop :=
  ∀ engine, registry.getDefaultEngine = some engine → engine.listWorkloads host = .ok []

/-! ## Removal -/

/-- What the removal loop carries: the host, the ids removed and the errors met. -/
structure Removal (H : Type) where
  host : H
  removed : List String
  errors : List String

/-- The loop body for one workload of an engine. -/
def Removal.workload (engine : RuntimeEngine H) (engineName manifestId : String)
    (r : Removal H) (w : WorkloadInfo) : Removal H :=
  if w.manifestId = manifestId then
    match engine.removeWorkload r.host w.id with
    | (.ok (), host) => { r with host := host, removed := r.removed ++ [w.id] }
    -- The source goes on with the next workload.
    | (.error _, host) => { r with host := host, errors := r.errors ++ [engineName ++ ":" ++ w.id] }
  else r

/-- The loop body for one engine. -/
def Removal.engine (manifestId : String) (r : Removal H)
    (e : Sigma fun _ : String => RuntimeEngine H) : Removal H :=
  match e.2.listWorkloads r.host with
  | .ok workloads => workloads.foldl (Removal.workload e.2 e.1 manifestId) r
  | .error _ => { r with errors := r.errors ++ ["list:" ++ e.1] }

/-- The loop of `remove_workloads_by_manifest_id` over the engines of the registry. -/
def removeWorkloads (registry : RuntimeRegistry H) (host : H) (manifestId : String) : Removal H :=
  registry.engines.entries.foldl (Removal.engine manifestId) ⟨host, [], []⟩

end Beemesh
