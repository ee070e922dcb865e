import Beemesh.Node.Reference
import Beemesh.Provider.Manager
import Beemesh.Lib.Run

/-!
# The workload manager

`WorkloadManager` deploys workloads through a runtime engine, keeps a status for each, and announces
the manifests they come from. A status is stored before the announcement is made; that it was made
is noted in the copy that goes back to the caller, and in no other. A removal looks at the stored
status, so it never stops an announcement.

## Main definitions

* `ManagedEngine`, `WorkloadManager`, `Managed`: the engines, the manager and what it runs on
* `deployWorkload`, `removeWorkload`, `removeWorkloadsByManifestId`
* `Managed.Announces`: the announcements are those of what is deployed
* `Managed.Accepts`: a deployment gets through

## Main results

* `Managed.Unmarked.step`: no stored status ever says that its manifest is announced
* `announced_forever`: no manifest is ever taken out of the local providers
* `announces_iff`: the announcements are right as long as no deployment gets through
-/

namespace Beemesh

open Run

inductive WorkloadManagerError
  | runtimeError (e : String)
  | providerError (e : ProviderError)
  | workloadNotFound (workloadId : String)
  | noRuntimeEngineAvailable

/-- `WorkloadManagerConfig`: what the manager reads of it after its start. -/
structure WorkloadManagerConfig where
  announceAsProvider : Bool := true
  preferredRuntime : Option String := none
  validateManifests : Bool := true

/-- `DeploymentStatus`, but for the status and the times that it copies from the engine. -/
structure DeploymentStatus where
  workloadId : String
  manifestId : String
  runtimeEngine : String
  announcedAsProvider : Bool
  config : DeploymentConfig

inductive WorkloadEvent
  | workloadDeployed (workloadId manifestId runtimeEngine : String)
  | workloadRemoved (workloadId manifestId : String)
  | providerAnnounced (manifestId peerId : String)
  | providerStopped (manifestId : String)

/-- A runtime engine, with its name and its check of manifests. -/
structure ManagedEngine (H : Type) extends RuntimeEngine H where
  name : String
  validateManifest : H → Bytes → Except String Unit

structure WorkloadManager (H : Type) where
  engines : Table String (ManagedEngine H)
  defaultEngine : Option String
  providerManager : ProviderManager
  deployments : Table String DeploymentStatus
  config : WorkloadManagerConfig
  /-- What has been sent to the event channel, when there is one. -/
  events : Option (List WorkloadEvent)

/-- `WorkloadManager::new`, on the engines that the registry has. -/
def WorkloadManager.new {H : Type} (engines : Table String (ManagedEngine H))
    (defaultEngine : Option String) (providerTtlSeconds : U64) (config : WorkloadManagerConfig) :
    WorkloadManager H where
  engines := engines
  defaultEngine := defaultEngine
  providerManager := ⟨∅, providerTtlSeconds⟩
  deployments := ∅
  config := config
  events := none

/-- A manager, the host of its engines and the swarm that its calls are given. -/
structure Managed (H : Type) where
  manager : WorkloadManager H
  host : H
  swarm : Swarm

variable {H : Type}

namespace WorkloadManager

variable (wm : WorkloadManager H)

/-- `get_runtime_engine`. -/
def getRuntimeEngine (host : H) : Except WorkloadManagerError String :=
  let preferred := wm.config.preferredRuntime.filter fun name =>
    (wm.engines.lookup name).any fun engine => engine.isAvailable host
  let default := (wm.defaultEngine.bind fun name => wm.engines.lookup name).filter
    fun engine => engine.isAvailable host
  match preferred, default with
  | some name, _ => .ok name
  | none, some engine => .ok engine.name
  | none, none => .error .noRuntimeEngineAvailable

def getEngine (name : String) : Except WorkloadManagerError (ManagedEngine H) :=
  match wm.engines.lookup name with
  | some engine => .ok engine
  | none => .error .noRuntimeEngineAvailable

/-- `validate_manifest_content`. -/
def validateManifestContent (host : H) (content : Bytes) : Except WorkloadManagerError Unit := do
  let name ← wm.getRuntimeEngine host
  let engine ← wm.getEngine name
  match engine.validateManifest host content with
  | .ok () => .ok ()
  | .error e => .error (.runtimeError e)

/-- What `deploy_workload` does before it deploys: it finds an engine, and the name it goes by. -/
def admitted (host : H) (content : Bytes) :
    Except WorkloadManagerError (String × ManagedEngine H) := do
  let validated := if wm.config.validateManifests then wm.validateManifestContent host content
    else .ok ()
  validated
  let name ← wm.getRuntimeEngine host
  let engine ← wm.getEngine name
  return (name, engine)

def send (event : WorkloadEvent) : WorkloadManager H :=
  { wm with events := wm.events.map (· ++ [event]) }

@[simp] theorem send_config (event : WorkloadEvent) : (wm.send event).config = wm.config := rfl

@[simp] theorem send_deployments (event : WorkloadEvent) :
    (wm.send event).deployments = wm.deployments := rfl

@[simp] theorem send_providerManager (event : WorkloadEvent) :
    (wm.send event).providerManager = wm.providerManager := rfl

end WorkloadManager

namespace Managed

variable (w : Managed H)

/-- `announce_provider` of the manager. -/
def announceProvider (timeMs : ℕ) (stored : Except String Unit) (manifestId engineName : String) :
    Except WorkloadManagerError Unit × Managed H :=
  let metadata := ((∅ : Table String String).insert "runtime_engine" engineName).insert
    "node_type" "beemesh-machine"
  let (result, pm, swarm) :=
    w.manager.providerManager.announceProvider w.swarm timeMs stored manifestId metadata
  (result.mapError .providerError,
    { w with manager := { w.manager with providerManager := pm }, swarm := swarm })

/-- A status is stored under the id of its workload. -/
def store (status : DeploymentStatus) : Managed H :=
  let deployments := w.manager.deployments.insert status.workloadId status
  { w with manager := { w.manager with deployments := deployments } }

/-- What `deploy_workload` does when the engine has taken the workload: the status is stored, and
then the manifest announced if that is configured. It returns the status. -/
def recordDeployment (timeMs : ℕ) (stored : Except String Unit) (status : DeploymentStatus) :
    DeploymentStatus × Managed H :=
  let deployed :=
    WorkloadEvent.workloadDeployed status.workloadId status.manifestId status.runtimeEngine
  let w := w.store status
  if w.manager.config.announceAsProvider then
    match w.announceProvider timeMs stored status.manifestId status.runtimeEngine with
    | (.ok (), w) =>
      -- The flag is set in the copy for the caller.
      let manager := w.manager.send (.providerAnnounced status.manifestId w.swarm.localPeerId)
      ({ status with announcedAsProvider := true }, { w with manager := manager.send deployed })
    | (.error _, w) => (status, { w with manager := w.manager.send deployed })
  else (status, { w with manager := w.manager.send deployed })

/-- `deploy_workload`, at a system time and with what the store says to its announcement. -/
def deployWorkload (timeMs : ℕ) (stored : Except String Unit) (manifestId : String)
    (content : Bytes) (config : DeploymentConfig) :
    Except WorkloadManagerError DeploymentStatus × Managed H :=
  match w.manager.admitted w.host content with
  | .error e => (.error e, w)
  | .ok (engineName, engine) =>
    match engine.deployWorkload w.host manifestId content config with
    | (.error e, host) => (.error (.runtimeError e), { w with host := host })
    | (.ok info, host) =>
      let status : DeploymentStatus := ⟨info.id, manifestId, engineName, false, config⟩
      let (finalStatus, w) := { w with host := host }.recordDeployment timeMs stored status
      (.ok finalStatus, w)

/-- The end of an announcement, in `remove_workload`. -/
def stopProviding (manifestId : String) : Managed H :=
  match w.manager.providerManager.stopProviding manifestId with
  | (.ok (), pm) =>
    let manager := { w.manager with providerManager := pm }
    { w with manager := manager.send (.providerStopped manifestId) }
  -- A failure is logged.
  | (.error _, pm) => { w with manager := { w.manager with providerManager := pm } }

/-- `remove_workload`. -/
def removeWorkload (workloadId : String) : Except WorkloadManagerError Unit × Managed H :=
  match w.manager.deployments.lookup workloadId with
  | none => (.error (.workloadNotFound workloadId), w)
  | some status =>
    match w.manager.getEngine status.runtimeEngine with
    | .error e => (.error e, w)
    | .ok engine =>
      match engine.removeWorkload w.host workloadId with
      | (.error e, host) => (.error (.runtimeError e), { w with host := host })
      | (.ok (), host) =>
        let w := { w with host := host }
        let w := if status.announcedAsProvider then w.stopProviding status.manifestId else w
        let deployments := w.manager.deployments.erase workloadId
        let manager := { w.manager with deployments := deployments }
        (.ok (), { w with manager := manager.send (.workloadRemoved workloadId status.manifestId) })

/-- The loop body of `remove_workloads_by_manifest_id`: a failure is passed over. -/
def removeNext (r : List String × Managed H) (workloadId : String) : List String × Managed H :=
  match r.2.removeWorkload workloadId with
  | (.ok (), w) => (r.1 ++ [workloadId], w)
  | (.error _, w) => (r.1, w)

/-- `remove_workloads_by_manifest_id`. -/
def removeWorkloadsByManifestId (manifestId : String) : List String × Managed H :=
  let workloads :=
    (w.manager.deployments.retain fun _ status => status.manifestId = manifestId).keys
  workloads.foldl removeNext ([], w)

end Managed

/-! ## Steps -/

/-- A call of the manager, or a change of the host that it has no part in. -/
inductive ManagerAction (H : Type)
  | deployWorkload (timeMs : ℕ) (stored : Except String Unit) (manifestId : String)
      (content : Bytes) (config : DeploymentConfig)
  | removeWorkload (workloadId : String)
  | removeWorkloadsByManifestId (manifestId : String)
  | hostChange (host : H)

def managerStep (w : Managed H) : ManagerAction H → Managed H
  | .deployWorkload timeMs stored m content config =>
    (w.deployWorkload timeMs stored m content config).2
  | .removeWorkload workloadId => (w.removeWorkload workloadId).2
  | .removeWorkloadsByManifestId m => (w.removeWorkloadsByManifestId m).2
  | .hostChange host => { w with host := host }

/-- The announcement that a call makes, if any, is taken by the store. -/
def ManagerAction.AnnouncementSucceeds : ManagerAction H → Prop
  | .deployWorkload _ stored _ _ _ => stored = .ok ()
  | _ => True

namespace Managed

/-- What the manager announces is what it has deployed, and its statuses say so. -/
structure Announces (w : Managed H) : Prop where
  announced : ∀ m, m ∈ w.manager.providerManager.localProviders ↔
    ∃ id status, w.manager.deployments.lookup id = some status ∧ status.manifestId = m
  marked : ∀ id status, w.manager.deployments.lookup id = some status →
    (status.announcedAsProvider = true ↔
      status.manifestId ∈ w.manager.providerManager.localProviders)

/-- The call is a deployment that gets through: there is an engine, it finds the manifest valid
where that is asked, and it takes the workload. -/
def Accepts (w : Managed H) : ManagerAction H → Prop
  | .deployWorkload _ _ m content config =>
    ∃ name engine info, w.manager.admitted w.host content = .ok (name, engine) ∧
      (engine.deployWorkload w.host m content config).1 = .ok info
  | _ => False

end Managed

/-! ## What a call changes -/

namespace Managed

variable {w w' w'' : Managed H}

/-- No stored status says that its manifest is announced. -/
def Unmarked (w : Managed H) : Prop :=
  ∀ id status, w.manager.deployments.lookup id = some status → status.announcedAsProvider = false

/-- A change that leaves the announcements as they are and deploys nothing. -/
structure Shrinks (w w' : Managed H) : Prop where
  config : w'.manager.config = w.manager.config
  localProviders : w'.manager.providerManager = w.manager.providerManager
  deployments : ∀ id status, w'.manager.deployments.lookup id = some status →
    w.manager.deployments.lookup id = some status

theorem Shrinks.refl (w : Managed H) : w.Shrinks w := ⟨rfl, rfl, fun _ _ => id⟩

theorem Shrinks.trans (h : w.Shrinks w') (h' : w'.Shrinks w'') : w.Shrinks w'' :=
  ⟨h'.config.trans h.config, h'.localProviders.trans h.localProviders,
    fun id status hid => h.deployments id status (h'.deployments id status hid)⟩

theorem Shrinks.unmarked (h : w.Shrinks w') (hw : w.Unmarked) : w'.Unmarked :=
  fun id status hid => hw id status (h.deployments id status hid)

/-- A call of `deploy_workload` that is not accepted. -/
theorem shrinks_deployWorkload {timeMs : ℕ} {stored : Except String Unit} {m : String}
    {content : Bytes} {config : DeploymentConfig}
    (h : ¬ w.Accepts (.deployWorkload timeMs stored m content config)) :
    w.Shrinks (w.deployWorkload timeMs stored m content config).2 := by
  unfold deployWorkload
  split
  · exact .refl w
  · next name engine hadmit =>
    split
    · exact ⟨rfl, rfl, fun _ _ => id⟩
    · next info host hdeploy =>
      exact absurd ⟨name, engine, info, hadmit, congrArg Prod.fst hdeploy⟩ h

theorem announceProvider_spec (w : Managed H) (timeMs : ℕ) (stored : Except String Unit)
    (m engineName : String) :
    let w' := (w.announceProvider timeMs stored m engineName).2
    w'.manager.config = w.manager.config ∧ w'.manager.deployments = w.manager.deployments ∧
      ∀ k, k ∈ w'.manager.providerManager.localProviders ↔
        k = m ∨ k ∈ w.manager.providerManager.localProviders :=
  ⟨rfl, rfl, fun _ => AList.mem_insert _⟩

/-- What is recorded of a deployment. -/
theorem recordDeployment_spec (w : Managed H) (timeMs : ℕ) (stored : Except String Unit)
    (status : DeploymentStatus) :
    let w' := (w.recordDeployment timeMs stored status).2
    w'.manager.config = w.manager.config ∧
      w'.manager.deployments = w.manager.deployments.insert status.workloadId status ∧
      ∀ k, k ∈ w'.manager.providerManager.localProviders ↔
        (w.manager.config.announceAsProvider = true ∧ k = status.manifestId) ∨
          k ∈ w.manager.providerManager.localProviders := by
  unfold recordDeployment
  by_cases hannounce : w.manager.config.announceAsProvider = true
  · have hstore : (w.store status).manager.config.announceAsProvider = true := hannounce
    obtain ⟨hconfig, hdeployments, hlocal⟩ := (w.store status).announceProvider_spec timeMs stored
      status.manifestId status.runtimeEngine
    simp only [hstore, if_true, hannounce, true_and]
    -- Whether the announcement got through decides the flag in the copy, and the events.
    cases hresult : (w.store status).announceProvider timeMs stored status.manifestId
        status.runtimeEngine with
    | mk result w' =>
      rw [hresult] at hconfig hdeployments hlocal
      cases result <;> exact ⟨hconfig, hdeployments, hlocal⟩
  · have hstore : ¬ (w.store status).manager.config.announceAsProvider = true := hannounce
    simp only [hstore, Bool.false_eq_true, if_false, hannounce, false_and, false_or]
    exact ⟨rfl, rfl, fun _ => Iff.rfl⟩

/-- **A deployment that gets through**: the stored status does not say that its manifest is
announced. -/
theorem deployWorkload_of_accepts {timeMs : ℕ} {stored : Except String Unit} {m : String}
    {content : Bytes} {config : DeploymentConfig}
    (h : w.Accepts (.deployWorkload timeMs stored m content config)) :
    ∃ status : DeploymentStatus, status.manifestId = m ∧ status.announcedAsProvider = false ∧
      let w' := (w.deployWorkload timeMs stored m content config).2
      w'.manager.config = w.manager.config ∧
        w'.manager.deployments = w.manager.deployments.insert status.workloadId status ∧
        ∀ k, k ∈ w'.manager.providerManager.localProviders ↔
          (w.manager.config.announceAsProvider = true ∧ k = m) ∨
            k ∈ w.manager.providerManager.localProviders := by
  obtain ⟨name, engine, info, hadmit, hdeploy⟩ := h
  refine ⟨⟨info.id, m, name, false, config⟩, rfl, rfl, ?_⟩
  simp only [deployWorkload, hadmit]
  cases hresult : engine.deployWorkload w.host m content config with
  | mk result host =>
    obtain rfl : result = .ok info := (congrArg Prod.fst hresult).symm.trans hdeploy
    exact recordDeployment_spec { w with host := host } timeMs stored _

/-- A removal, where no status says that its manifest is announced. -/
theorem shrinks_removeWorkload (hw : w.Unmarked) (workloadId : String) :
    w.Shrinks (w.removeWorkload workloadId).2 := by
  unfold removeWorkload
  split
  · exact .refl w
  · next status hstatus =>
    split
    · exact .refl w
    · split
      · exact ⟨rfl, rfl, fun _ _ => id⟩
      · simp only [hw workloadId status hstatus, Bool.false_eq_true, if_false]
        refine ⟨rfl, rfl, fun id status' hid => ?_⟩
        exact AList.lookup_of_lookup_erase hid

theorem shrinks_removeWorkloadsByManifestId (hw : w.Unmarked) (m : String) :
    w.Shrinks (w.removeWorkloadsByManifestId m).2 := by
  have hloop (ids : List String) (removed : List String) {w' : Managed H} (h : w.Shrinks w') :
      w.Shrinks (ids.foldl removeNext (removed, w')).2 := by
    induction ids generalizing removed w' with
    | nil => exact h
    | cons id ids ih =>
      have hnext := h.trans (shrinks_removeWorkload (h.unmarked hw) id)
      rw [List.foldl_cons, removeNext]
      cases hresult : w'.removeWorkload id with
      | mk result w'' =>
        rw [hresult] at hnext
        cases result <;> exact ih _ hnext
  exact hloop _ _ (.refl w)

/-- A step that is not a deployment getting through. -/
theorem shrinks_managerStep (hw : w.Unmarked) {a : ManagerAction H} (h : ¬ w.Accepts a) :
    w.Shrinks (managerStep w a) := by
  cases a with
  | deployWorkload timeMs stored m content config => exact shrinks_deployWorkload h
  | removeWorkload workloadId => exact shrinks_removeWorkload hw workloadId
  | removeWorkloadsByManifestId m => exact shrinks_removeWorkloadsByManifestId hw m
  | hostChange host => exact ⟨rfl, rfl, fun _ _ => id⟩

/-- What one step can do: it leaves the announcements as they are and deploys nothing, or it is a
deployment that gets through. -/
theorem managerStep_cases (hw : w.Unmarked) (a : ManagerAction H) :
    w.Shrinks (managerStep w a) ∨
      ∃ status : DeploymentStatus, status.announcedAsProvider = false ∧
        (managerStep w a).manager.config = w.manager.config ∧
        (managerStep w a).manager.deployments =
          w.manager.deployments.insert status.workloadId status ∧
        ∀ k, k ∈ (managerStep w a).manager.providerManager.localProviders ↔
          (w.manager.config.announceAsProvider = true ∧ k = status.manifestId) ∨
            k ∈ w.manager.providerManager.localProviders := by
  by_cases h : w.Accepts a
  · cases a with
    | deployWorkload timeMs stored m content config =>
      obtain ⟨status, rfl, hmark, hspec⟩ := deployWorkload_of_accepts h
      exact .inr ⟨status, hmark, hspec⟩
    | _ => exact h.elim
  · exact .inl (shrinks_managerStep hw h)

/-- **No status is ever marked.** -/
theorem Unmarked.step (hw : w.Unmarked) (a : ManagerAction H) : (managerStep w a).Unmarked := by
  rcases managerStep_cases hw a with hshrinks | ⟨status, hmark, -, hdeployments, -⟩
  · exact hshrinks.unmarked hw
  · intro id status' hid
    rw [hdeployments] at hid
    rcases eq_or_ne id status.workloadId with rfl | hne
    · rw [AList.lookup_insert] at hid
      exact Option.some.inj hid ▸ hmark
    · rw [AList.lookup_insert_ne hne] at hid
      exact hw id status' hid

theorem localProviders_subset_step (hw : w.Unmarked) (a : ManagerAction H) {m : String}
    (hm : m ∈ w.manager.providerManager.localProviders) :
    m ∈ (managerStep w a).manager.providerManager.localProviders := by
  rcases managerStep_cases hw a with hshrinks | ⟨status, -, -, -, hlocal⟩
  · exact hshrinks.localProviders ▸ hm
  · exact (hlocal m).mpr (.inr hm)

end Managed

/-! ## Runs -/

/-- **Announced forever**: whatever is removed, a manifest that has been announced stays in the
local providers. -/
theorem announced_forever {w : Managed H} (hw : w.Unmarked) (acts acts' : List (ManagerAction H))
    {m : String} (hm : m ∈ (run managerStep w acts).manager.providerManager.localProviders) :
    m ∈ (run managerStep w (acts ++ acts')).manager.providerManager.localProviders := by
  have hkeep (w : Managed H) (a : ManagerAction H) (hw : w.Unmarked) :
      (managerStep w a).Unmarked := hw.step a
  have hunmarked := run_invariant hkeep acts hw
  have hstep (w : Managed H) (a : ManagerAction H)
      (h : w.Unmarked ∧ m ∈ w.manager.providerManager.localProviders) :
      (managerStep w a).Unmarked ∧
        m ∈ (managerStep w a).manager.providerManager.localProviders :=
    ⟨h.1.step a, Managed.localProviders_subset_step h.1 a h.2⟩
  rw [run_append]
  exact (run_invariant hstep acts' ⟨hunmarked, hm⟩).2

/-- A manager that has deployed and announced nothing, and announces what it deploys. -/
structure Managed.Idle (w : Managed H) : Prop where
  announces : w.manager.config.announceAsProvider = true
  deployments : ∀ id, w.manager.deployments.lookup id = none
  localProviders : ∀ m, m ∉ w.manager.providerManager.localProviders

theorem Managed.Idle.no_status {w : Managed H} (hw : w.Idle) {id : String}
    {status : DeploymentStatus} : w.manager.deployments.lookup id ≠ some status := by
  rw [hw.deployments id]
  exact (Option.some_ne_none status).symm

theorem Managed.Idle.unmarked {w : Managed H} (hw : w.Idle) : w.Unmarked :=
  fun _ _ hid => absurd hid hw.no_status

theorem Managed.Idle.of_shrinks {w w' : Managed H} (hw : w.Idle) (h : w.Shrinks w') : w'.Idle where
  announces := h.config ▸ hw.announces
  deployments id := Option.eq_none_iff_forall_ne_some.mpr fun status hid =>
    hw.no_status (h.deployments id status hid)
  localProviders := h.localProviders ▸ hw.localProviders

/-- A node that runs nothing announces nothing. -/
theorem Managed.Idle.right {w : Managed H} (hw : w.Idle) : w.Announces where
  announced m := iff_of_false (hw.localProviders m) fun ⟨_, _, hid, _⟩ => hw.no_status hid
  marked _ _ hid := absurd hid hw.no_status

/-- Right after a deployment its status does not say what is the case. -/
theorem not_announces_of_accepts {w : Managed H} {a : ManagerAction H}
    (hannounce : w.manager.config.announceAsProvider = true) (h : w.Accepts a) :
    ¬ (managerStep w a).Announces := by
  cases a with
  | deployWorkload timeMs stored m content config =>
    obtain ⟨status, rfl, hmark, -, hdeployments, hlocal⟩ := Managed.deployWorkload_of_accepts h
    intro hright
    have hstored : (managerStep w (.deployWorkload timeMs stored status.manifestId content
        config)).manager.deployments.lookup status.workloadId = some status := by
      rw [managerStep, hdeployments, AList.lookup_insert]
    have hmarked := (hright.marked _ _ hstored).mpr ((hlocal _).mpr (.inl ⟨hannounce, rfl⟩))
    exact Bool.false_ne_true (hmark.symm.trans hmarked)
  | _ => exact h.elim

/-- **The announcements are right as long as nothing is deployed**: with every announcement taken
by the store, every state of a run has them right exactly when no deployment of the run gets
through. -/
theorem announces_iff (engines : Table String (ManagedEngine H)) (defaultEngine : Option String)
    (ttlSeconds : U64) (config : WorkloadManagerConfig) (host : H) (swarm : Swarm)
    (hannounce : config.announceAsProvider = true) (acts : List (ManagerAction H))
    (hstored : ∀ a ∈ acts, a.AnnouncementSucceeds) :
    Always managerStep Managed.Announces
        ⟨.new engines defaultEngine ttlSeconds config, host, swarm⟩ acts ↔
      Guarded managerStep (fun w a => ¬ w.Accepts a)
        ⟨.new engines defaultEngine ttlSeconds config, host, swarm⟩ acts := by
  have hidle : (⟨.new engines defaultEngine ttlSeconds config, host, swarm⟩ : Managed H).Idle :=
    ⟨hannounce, fun _ => AList.lookup_empty _, fun _ => AList.notMem_empty _⟩
  refine always_iff_guarded (fun _ => Managed.Idle.right) (fun w a hw hguard => ?_)
    (fun w a _ hw hguard => ?_) hstored hidle
  · exact hw.of_shrinks (Managed.shrinks_managerStep hw.unmarked hguard)
  · exact not_announces_of_accepts hw.announces (not_not.mp hguard)

/-! ## On one engine -/

/-- The reference engine, which finds every manifest valid. -/
def managedPodman : ManagedEngine Pods where
  toRuntimeEngine := podman
  name := "podman"
  validateManifest _ _ := .ok ()

/-- A new manager over that engine. -/
def podmanManager : Managed Pods where
  manager := .new ((∅ : Table String (ManagedEngine Pods)).insert "podman" managedPodman)
    (some "podman") 3600 {}
  host := ∅
  swarm := ⟨"node", ["peer"], ∅⟩

/-- A workload is deployed and removed again. -/
def deployAndRemove : List (ManagerAction Pods) :=
  [.deployWorkload 0 (.ok ()) "m" [] {}, .removeWorkload "beemesh-m"]

/-- Where there is no engine, nothing gets through. -/
theorem announces_without_engine :
    Always managerStep Managed.Announces
      ⟨.new (∅ : Table String (ManagedEngine Pods)) none 3600 {}, ∅, ⟨"node", [], ∅⟩⟩
      deployAndRemove := by
  refine (announces_iff ∅ none 3600 {} ∅ ⟨"node", [], ∅⟩ rfl deployAndRemove ?_).mpr ?_
  · simp [deployAndRemove, ManagerAction.AnnouncementSucceeds]
  · rw [deployAndRemove, guarded_cons, guarded_cons]
    refine ⟨?_, id, trivial⟩
    rintro ⟨name, engine, info, hadmit, -⟩
    cases hadmit

/-- The workload is deployed, its manifest announced and its status not marked; then it is removed,
and the manifest stays announced. -/
theorem removed_still_announced :
    let deployed := run managerStep podmanManager (deployAndRemove.take 1)
    let removed := run managerStep podmanManager deployAndRemove
    (∀ a ∈ deployAndRemove, a.AnnouncementSucceeds) ∧
      (deployed.manager.deployments.lookup "beemesh-m").map DeploymentStatus.announcedAsProvider =
        some false ∧
      "m" ∈ deployed.manager.providerManager.localProviders ∧
      removed.manager.deployments.keys = [] ∧
      "m" ∈ removed.manager.providerManager.localProviders ∧
      ¬ Always managerStep Managed.Announces podmanManager deployAndRemove := by
  intro deployed removed
  have hempty : removed.manager.deployments.keys = [] := by decide
  have hannounced : "m" ∈ removed.manager.providerManager.localProviders := by decide
  refine ⟨by simp [deployAndRemove, ManagerAction.AnnouncementSucceeds], by decide, by decide,
    hempty, hannounced, fun h => ?_⟩
  obtain ⟨id, status, hid, -⟩ := (h.last.announced "m").mp hannounced
  have hkey : id ∈ removed.manager.deployments.keys :=
    AList.mem_keys.mp (AList.lookup_isSome.mp (Option.isSome_iff_exists.mpr ⟨status, hid⟩))
  rw [hempty] at hkey
  exact List.not_mem_nil hkey

end Beemesh
