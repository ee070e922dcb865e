import Beemesh.Node.Deployment

/-!
# Applies and delete tasks in steps

The event loop of a node works on one apply at a time, while spawned delete tasks run beside it.
Each gives way at its `.await` points, between which it changes one of the stores: the owners, the
engines or the provider entries. Here a call takes one such step after the other. What a step can do
is said once for each kind of call.

## Main definitions

* `ApplyCall`, `applyStep`: a call of `process_manifest_deployment` and the step it takes
* `TaskCall`, `taskStep`: a delete task and the step it takes
* `Applies`, `Deletes`: what a step can do

## Main results

* `run_applyStep`: the steps of an undisturbed apply are `process_manifest_deployment`
* `run_taskStep`: the steps of an undisturbed delete task are `process_delete_request`
* `applyStep_applies`, `taskStep_deletes`: the steps, by cases
-/

namespace Beemesh

variable {H : Type}

/-! ## Applies -/

/-- Where a call of `process_manifest_deployment` stands. -/
inductive ApplyStage
  | decrypt
  | select (content : Bytes)
  | deploy (text : Bytes) (engineName : String)
  | announce (engineName : String) (workload : WorkloadInfo)
  | done

/-- A call of `process_manifest_deployment`. -/
structure ApplyCall where
  req : ApplyRequest
  manifestJson : String
  key : Bytes
  stage : ApplyStage := .decrypt

def ApplyCall.manifestId (c : ApplyCall) : String := c.req.manifestId.getD "unknown"

/-- The step of an apply up to its next `.await`. -/
def applyStep (P : NodePlatform) (n : Node H) (c : ApplyCall) : Node H × ApplyCall :=
  match c.stage with
  | .decrypt =>
    match P.decryptManifestContent c.manifestJson with
    | .error _ => (n, { c with stage := .done })
    | .ok content => (n.recordOwner c.manifestId c.key, { c with stage := .select content })
  | .select content =>
    match P.modifyManifestReplicas content with
    | .error _ => (n, { c with stage := .done })
    | .ok text =>
      match selectRuntimeEngine (P.runtimeEngineAnnotation text) n.registry n.host with
      | .error _ => (n, { c with stage := .done })
      | .ok engineName => (n, { c with stage := .deploy text engineName })
  | .deploy text engineName =>
    match n.registry.bind (·.getEngine engineName) with
    | none => (n, { c with stage := .done })
    | some engine =>
      match engine.deployWorkload n.host c.manifestId text (createDeploymentConfig c.req) with
      | (.error _, host) => ({ n with host := host }, { c with stage := .done })
      | (.ok workload, host) =>
        ({ n with host := host }, { c with stage := .announce engineName workload })
  | .announce engineName workload =>
    (n.announce c.manifestId (deploymentMetadata engineName workload.id), { c with stage := .done })
  | .done => (n, c)

theorem applyStep_of_decrypt {P : NodePlatform} {n : Node H} {c : ApplyCall} {content : Bytes}
    (hstage : c.stage = .decrypt)
    (hdecrypt : P.decryptManifestContent c.manifestJson = .ok content) :
    applyStep P n c =
      (n.recordOwner c.manifestId c.key, { c with stage := .select content }) := by
  simp only [applyStep, hstage, hdecrypt]

/-! ## Delete tasks -/

/-- Where a delete task stands: before its ownership check, in the removal loop over engines and
workloads, or at the bookkeeping after it. -/
inductive TaskStage (H : Type)
  | check
  | engines (pending : List (Sigma fun _ : String => RuntimeEngine H))
  | workloads (engine : Sigma fun _ : String => RuntimeEngine H) (pending : List WorkloadInfo)
      (rest : List (Sigma fun _ : String => RuntimeEngine H))
  | stopProviding
  | dropOwner
  | done

/-- A delete task in flight, with the errors it has met. -/
structure TaskCall (H : Type) where
  task : DeleteTask
  stage : TaskStage H := .check
  errors : List String := []

/-- The step of a delete task up to its next `.await`. -/
def taskStep (n : Node H) (c : TaskCall H) : Node H × TaskCall H :=
  let remove : Node H × TaskCall H :=
    match n.registry with
    | none => (n, { c with stage := .done })
    | some registry => (n, { c with stage := .engines registry.engines.entries })
  match c.stage with
  | .check =>
    match verifyDeleteOwnership n c.task.manifestId c.task.envelopePubkey with
    | .match => remove
    | .mismatch => if c.task.force then remove else (n, { c with stage := .done })
    | .unknown => (n, { c with stage := .done })
  | .engines [] => (n, { c with stage := .stopProviding })
  | .engines (engine :: rest) =>
    match engine.2.listWorkloads n.host with
    | .ok workloads => (n, { c with stage := .workloads engine workloads rest })
    | .error _ =>
      (n, { c with stage := .engines rest, errors := c.errors ++ ["list:" ++ engine.1] })
  | .workloads _ [] rest => (n, { c with stage := .engines rest })
  | .workloads engine (w :: pending) rest =>
    if w.manifestId = c.task.manifestId then
      match engine.2.removeWorkload n.host w.id with
      | (.ok (), host) =>
        ({ n with host := host }, { c with stage := .workloads engine pending rest })
      | (.error _, host) =>
        ({ n with host := host }, { c with
          stage := .workloads engine pending rest
          errors := c.errors ++ [engine.1 ++ ":" ++ w.id] })
    else (n, { c with stage := .workloads engine pending rest })
  | .stopProviding =>
    ({ n with localProviders := n.localProviders.map (·.erase c.task.manifestId) },
      { c with stage := .dropOwner })
  | .dropOwner =>
    (if c.errors = [] then { n with manifestOwners := n.manifestOwners.erase c.task.manifestId }
      else n, { c with stage := .done })
  | .done => (n, c)

/-! ## Undisturbed calls -/

/-- The steps of an apply that nothing disturbs. -/
def ApplySteps (P : NodePlatform) : Node H × ApplyCall → Node H × ApplyCall → Prop :=
  Relation.ReflTransGen fun s s' => applyStep P s.1 s.2 = s'

/-- **An undisturbed apply**: its steps are `process_manifest_deployment`. -/
theorem run_applyStep (P : NodePlatform) (n : Node H) (req : ApplyRequest) (manifestJson : String)
    (key : Bytes) :
    ApplySteps P (n, ⟨req, manifestJson, key, .decrypt⟩)
      ((processManifestDeployment P n req manifestJson key).2,
        ⟨req, manifestJson, key, .done⟩) := by
  rw [processManifestDeployment_eq]
  cases hdecrypt : P.decryptManifestContent manifestJson with
  | error e =>
    refine .single ?_
    simp only [applyStep, hdecrypt]
  | ok content =>
    simp only
    refine .head (b := (n.recordOwner (req.manifestId.getD "unknown") key,
      ⟨req, manifestJson, key, .select content⟩)) (by simp only [applyStep, hdecrypt]; rfl) ?_
    generalize n.recordOwner (req.manifestId.getD "unknown") key = n
    unfold deployManifest
    cases htext : P.modifyManifestReplicas content with
    | error e =>
      refine .single ?_
      simp only [applyStep, htext]
    | ok text =>
      simp only
      cases hselect : selectRuntimeEngine (P.runtimeEngineAnnotation text) n.registry n.host with
      | error e =>
        refine .single ?_
        simp only [applyStep, htext, hselect]
      | ok engineName =>
        simp only
        refine .head (b := (n, ⟨req, manifestJson, key, .deploy text engineName⟩))
          (by simp only [applyStep, htext, hselect]) ?_
        split
        · rename_i hregistry
          refine .single ?_
          simp only [applyStep, hregistry, Option.bind_none]
        · rename_i registry hregistry
          split
          · rename_i hengine
            refine .single ?_
            simp only [applyStep, hregistry, Option.bind_some, hengine]
          · rename_i engine hengine
            have hdeploying : (n.registry.bind (·.getEngine engineName)) = some engine := by
              rw [hregistry, Option.bind_some, hengine]
            split
            · rename_i e host hdeploy
              refine .single ?_
              simp only [applyStep, hdeploying, ApplyCall.manifestId, hdeploy]
            · rename_i workload host hdeploy
              refine .head (b := ({ n with host := host },
                ⟨req, manifestJson, key, .announce engineName workload⟩))
                (by simp only [applyStep, hdeploying, ApplyCall.manifestId, hdeploy]) (.single rfl)

/-- The steps of a delete task that nothing disturbs. -/
def TaskSteps : Node H × TaskCall H → Node H × TaskCall H → Prop :=
  Relation.ReflTransGen fun s s' => taskStep s.1 s.2 = s'

/-- One step, to the node `n'` and the call `c'`, and the steps from there. -/
theorem TaskSteps.head {n : Node H} {c : TaskCall H} {s : Node H × TaskCall H} (n' : Node H)
    (c' : TaskCall H) (hstep : taskStep n c = (n', c')) (hrest : TaskSteps (n', c') s) :
    TaskSteps (n, c) s :=
  Relation.ReflTransGen.head hstep hrest

/-- The steps over the workloads of an engine are the inner loop. -/
theorem taskSteps_workloads (n : Node H) (task : DeleteTask)
    (engine : Sigma fun _ : String => RuntimeEngine H) (ws : List WorkloadInfo)
    (rest : List (Sigma fun _ : String => RuntimeEngine H)) (removed errors : List String) :
    let r := ws.foldl (Removal.workload engine.2 engine.1 task.manifestId)
      ⟨n.host, removed, errors⟩
    TaskSteps (n, ⟨task, .workloads engine ws rest, errors⟩)
      ({ n with host := r.host }, ⟨task, .engines rest, r.errors⟩) := by
  induction ws generalizing n removed errors with
  | nil => exact .single rfl
  | cons w ws ih =>
    simp only [List.foldl_cons]
    by_cases hm : w.manifestId = task.manifestId
    · cases hcall : engine.2.removeWorkload n.host w.id with
      | mk result host =>
        cases result with
        | ok u =>
          have hloop : Removal.workload engine.2 engine.1 task.manifestId
              ⟨n.host, removed, errors⟩ w = ⟨host, removed ++ [w.id], errors⟩ := by
            simp [Removal.workload, hm, hcall]
          rw [hloop]
          refine TaskSteps.head { n with host := host } ⟨task, .workloads engine ws rest, errors⟩ ?_
            (ih _ (removed ++ [w.id]) errors)
          simp only [taskStep, hm, if_true, hcall]
        | error e =>
          have hloop : Removal.workload engine.2 engine.1 task.manifestId
              ⟨n.host, removed, errors⟩ w =
                ⟨host, removed, errors ++ [engine.1 ++ ":" ++ w.id]⟩ := by
            simp [Removal.workload, hm, hcall]
          rw [hloop]
          refine TaskSteps.head { n with host := host }
            ⟨task, .workloads engine ws rest, errors ++ [engine.1 ++ ":" ++ w.id]⟩ ?_
            (ih _ removed _)
          simp only [taskStep, hm, if_true, hcall]
    · have hloop : Removal.workload engine.2 engine.1 task.manifestId ⟨n.host, removed, errors⟩ w =
          ⟨n.host, removed, errors⟩ := by
        simp [Removal.workload, hm]
      rw [hloop]
      refine TaskSteps.head n ⟨task, .workloads engine ws rest, errors⟩ ?_ (ih n removed errors)
      simp only [taskStep, hm, if_false]

/-- The steps over the engines are the outer loop. -/
theorem taskSteps_engines (n : Node H) (task : DeleteTask)
    (engines : List (Sigma fun _ : String => RuntimeEngine H)) (removed errors : List String) :
    let r := engines.foldl (Removal.engine task.manifestId) ⟨n.host, removed, errors⟩
    TaskSteps (n, ⟨task, .engines engines, errors⟩)
      ({ n with host := r.host }, ⟨task, .stopProviding, r.errors⟩) := by
  induction engines generalizing n removed errors with
  | nil => exact .single rfl
  | cons engine engines ih =>
    simp only [List.foldl_cons]
    cases hlist : engine.2.listWorkloads n.host with
    | ok ws =>
      have hloop : Removal.engine task.manifestId ⟨n.host, removed, errors⟩ engine =
          ws.foldl (Removal.workload engine.2 engine.1 task.manifestId)
            ⟨n.host, removed, errors⟩ := by
        simp only [Removal.engine, hlist]
      rw [hloop]
      refine TaskSteps.head n ⟨task, .workloads engine ws engines, errors⟩
        (by simp only [taskStep, hlist]) ?_
      exact (taskSteps_workloads n task engine ws engines removed errors).trans
        (ih { n with host := _ } _ _)
    | error e =>
      have hloop : Removal.engine task.manifestId ⟨n.host, removed, errors⟩ engine =
          ⟨n.host, removed, errors ++ ["list:" ++ engine.1]⟩ := by
        simp only [Removal.engine, hlist]
      rw [hloop]
      refine TaskSteps.head n ⟨task, .engines engines, errors ++ ["list:" ++ engine.1]⟩ ?_
        (ih n removed _)
      simp only [taskStep, hlist]

/-- The steps of a removal. -/
theorem taskSteps_removal {n : Node H} {registry : RuntimeRegistry H}
    (hregistry : n.registry = some registry) (task : DeleteTask) :
    ∃ errors, TaskSteps (n, ⟨task, .engines registry.engines.entries, []⟩)
      ((removeWorkloadsByManifestId n task.manifestId).2, ⟨task, .done, errors⟩) := by
  let r := removeWorkloads registry n.host task.manifestId
  have hnode : (removeWorkloadsByManifestId n task.manifestId).2 = { n with
      host := r.host
      localProviders := n.localProviders.map (·.erase task.manifestId)
      manifestOwners :=
        if r.errors = [] then n.manifestOwners.erase task.manifestId else n.manifestOwners } := by
    simp only [removeWorkloadsByManifestId, hregistry, r]
  refine ⟨r.errors, (taskSteps_engines n task registry.engines.entries [] []).trans ?_⟩
  refine TaskSteps.head _ ⟨task, .dropOwner, r.errors⟩ rfl ?_
  refine TaskSteps.head _ ⟨task, .done, r.errors⟩ rfl ?_
  rw [hnode]
  by_cases herrors : r.errors = []
  · simp only [herrors, if_true]
    exact .refl
  · simp only [herrors, if_false]
    exact .refl

/-- A task that goes ahead starts with the engines. -/
theorem taskStep_of_authorized {n : Node H} {registry : RuntimeRegistry H}
    (hregistry : n.registry = some registry) {task : DeleteTask} (h : Authorized n task)
    (errors : List String) :
    taskStep n ⟨task, .check, errors⟩ = (n, ⟨task, .engines registry.engines.entries, errors⟩) := by
  simp only [taskStep, hregistry]
  rcases authorized_iff.mp h with hstatus | ⟨hstatus, hforce⟩
  · rw [hstatus]
  · rw [hstatus, hforce, if_pos rfl]

/-- A task that is refused, or finds no registry, is done. -/
theorem taskStep_of_refused {n : Node H} {task : DeleteTask}
    (h : ¬ Authorized n task ∨ n.registry = none) (errors : List String) :
    taskStep n ⟨task, .check, errors⟩ = (n, ⟨task, .done, errors⟩) := by
  rw [authorized_iff] at h
  simp only [taskStep]
  cases hstatus : verifyDeleteOwnership n task.manifestId task.envelopePubkey with
  | unknown => rfl
  | «match» =>
    have hnone : n.registry = none := h.resolve_left fun hnot => hnot (.inl hstatus)
    simp only [hnone]
  | mismatch =>
    cases hforce : task.force with
    | false => rfl
    | true =>
      have hnone : n.registry = none := h.resolve_left fun hnot => hnot (.inr ⟨hstatus, hforce⟩)
      simp only [hnone, if_true]

/-- **An undisturbed delete task**: its steps are `process_delete_request`. -/
theorem run_taskStep (n : Node H) (task : DeleteTask) :
    ∃ errors, TaskSteps (n, ⟨task, .check, []⟩)
      ((processDeleteRequest n task).node, ⟨task, .done, errors⟩) := by
  have hrefused (h : ¬ Authorized n task ∨ n.registry = none)
      (hnode : (processDeleteRequest n task).node = n) :
      ∃ errors, TaskSteps (n, ⟨task, .check, []⟩)
        ((processDeleteRequest n task).node, ⟨task, .done, errors⟩) := by
    rw [hnode]
    exact ⟨[], TaskSteps.head _ _ (taskStep_of_refused h []) .refl⟩
  by_cases hauthorized : Authorized n task
  · cases hregistry : n.registry with
    | none => exact hrefused (.inr hregistry) (processDeleteRequest_of_no_registry hregistry task)
    | some registry =>
      rw [(processDeleteRequest_of_authorized hauthorized hregistry).1]
      obtain ⟨errors, hsteps⟩ := taskSteps_removal hregistry task
      exact ⟨errors, TaskSteps.head _ _ (taskStep_of_authorized hregistry hauthorized []) hsteps⟩
  · exact hrefused (.inl hauthorized) (processDeleteRequest_of_not_authorized hauthorized).1

/-! ## What a step does -/

/-- What a step of an apply can do: go on or give up without an effect, record the owner, deploy or
fail to, and announce. -/
inductive Applies (n : Node H) (c : ApplyCall) : Node H × ApplyCall → Prop
  | quiet (stage : ApplyStage) (hbefore : ∀ name w, c.stage ≠ .announce name w)
      (hafter : stage = .done ∨
        ∃ content text name, c.stage = .select content ∧ stage = .deploy text name) :
      Applies n c (n, { c with stage := stage })
  | records (content : Bytes) (hstage : c.stage = .decrypt) :
      Applies n c (n.recordOwner c.manifestId c.key, { c with stage := .select content })
  | fails {text : Bytes} {name : String} (hstage : c.stage = .deploy text name)
      {engine : RuntimeEngine H} (hengine : n.registry.bind (·.getEngine name) = some engine)
      {e : String} {host : H} (hdeploy : engine.deployWorkload n.host c.manifestId text
        (createDeploymentConfig c.req) = (.error e, host)) :
      Applies n c ({ n with host := host }, { c with stage := .done })
  | deploys {text : Bytes} {name : String} (hstage : c.stage = .deploy text name)
      {engine : RuntimeEngine H} (hengine : n.registry.bind (·.getEngine name) = some engine)
      {w : WorkloadInfo} {host : H} (hdeploy : engine.deployWorkload n.host c.manifestId text
        (createDeploymentConfig c.req) = (.ok w, host)) :
      Applies n c ({ n with host := host }, { c with stage := .announce name w })
  | announces {name : String} {w : WorkloadInfo} (hstage : c.stage = .announce name w) :
      Applies n c (n.announce c.manifestId (deploymentMetadata name w.id),
        { c with stage := .done })

theorem applyStep_applies (P : NodePlatform) (n : Node H) (c : ApplyCall) :
    Applies n c (applyStep P n c) := by
  obtain ⟨req, manifestJson, key, stage⟩ := c
  unfold applyStep
  cases stage with
  | decrypt =>
    dsimp only
    cases P.decryptManifestContent manifestJson with
    | error e => exact .quiet .done (by simp) (.inl rfl)
    | ok content => exact .records content rfl
  | select content =>
    dsimp only
    cases P.modifyManifestReplicas content with
    | error e => exact .quiet .done (by simp) (.inl rfl)
    | ok text =>
      dsimp only
      cases selectRuntimeEngine (P.runtimeEngineAnnotation text) n.registry n.host with
      | error e => exact .quiet .done (by simp) (.inl rfl)
      | ok engineName => exact .quiet _ (by simp) (.inr ⟨content, text, engineName, rfl, rfl⟩)
  | deploy text name =>
    dsimp only
    cases hengine : n.registry.bind (·.getEngine name) with
    | none => exact .quiet .done (by simp) (.inl rfl)
    | some engine =>
      dsimp only
      -- The host may have changed, whether the deployment succeeds or not.
      cases hdeploy : engine.deployWorkload n.host
          (ApplyCall.manifestId ⟨req, manifestJson, key, .deploy text name⟩) text
          (createDeploymentConfig req) with
      | mk result host =>
        cases result with
        | error e => exact .fails rfl hengine hdeploy
        | ok w => exact .deploys rfl hengine hdeploy
  | announce name w => exact .announces rfl
  | done => exact .quiet .done (by simp) (.inl rfl)

/-- The task is past its ownership check, and not done. -/
def TaskCall.Checked (c : TaskCall H) : Prop :=
  match c.stage with
  | .check | .done => False
  | _ => True

/-- The engines that a task is yet to work on. -/
def TaskStage.ahead : TaskStage H → List (Sigma fun _ : String => RuntimeEngine H)
  | .engines pending => pending
  | .workloads engine _ rest => engine :: rest
  | _ => []

/-- What a step of a delete task can do: go on without an effect, pass its check, remove a workload
or fail to, and drop the provider entry and the owner. -/
inductive Deletes (n : Node H) (c : TaskCall H) : Node H × TaskCall H → Prop
  | quiet (stage : TaskStage H) (errors : List String)
      (hchecked : TaskCall.Checked { c with stage := stage, errors := errors } → c.Checked)
      (hahead : stage.ahead ⊆ c.stage.ahead) :
      Deletes n c (n, { c with stage := stage, errors := errors })
  | passes (hauthorized : Authorized n c.task) {registry : RuntimeRegistry H}
      (hregistry : n.registry = some registry) :
      Deletes n c (n, { c with stage := .engines registry.engines.entries })
  | removes {engine : Sigma fun _ : String => RuntimeEngine H} {w : WorkloadInfo}
      {pending : List WorkloadInfo} {rest : List (Sigma fun _ : String => RuntimeEngine H)}
      (hstage : c.stage = .workloads engine (w :: pending) rest)
      (hm : w.manifestId = c.task.manifestId) {host : H}
      (hcall : engine.2.removeWorkload n.host w.id = (.ok (), host)) :
      Deletes n c ({ n with host := host }, { c with stage := .workloads engine pending rest })
  | fails {engine : Sigma fun _ : String => RuntimeEngine H} {w : WorkloadInfo}
      {pending : List WorkloadInfo} {rest : List (Sigma fun _ : String => RuntimeEngine H)}
      (hstage : c.stage = .workloads engine (w :: pending) rest)
      (hm : w.manifestId = c.task.manifestId) {e : String} {host : H}
      (hcall : engine.2.removeWorkload n.host w.id = (.error e, host)) :
      Deletes n c ({ n with host := host }, { c with
        stage := .workloads engine pending rest
        errors := c.errors ++ [engine.1 ++ ":" ++ w.id] })
  | stops (hstage : c.stage = .stopProviding) :
      Deletes n c ({ n with localProviders := n.localProviders.map (·.erase c.task.manifestId) },
        { c with stage := .dropOwner })
  | drops (hstage : c.stage = .dropOwner) (herrors : c.errors = []) :
      Deletes n c ({ n with manifestOwners := n.manifestOwners.erase c.task.manifestId },
        { c with stage := .done })

theorem taskStep_deletes (n : Node H) (c : TaskCall H) : Deletes n c (taskStep n c) := by
  obtain ⟨task, stage, errors⟩ := c
  cases stage with
  | check =>
    by_cases hauthorized : Authorized n task
    · cases hregistry : n.registry with
      | none =>
        rw [taskStep_of_refused (.inr hregistry)]
        exact .quiet .done errors (by simp [TaskCall.Checked]) (List.nil_subset _)
      | some registry =>
        rw [taskStep_of_authorized hregistry hauthorized]
        exact .passes hauthorized hregistry
    · rw [taskStep_of_refused (.inl hauthorized)]
      exact .quiet .done errors (by simp [TaskCall.Checked]) (List.nil_subset _)
  | engines pending =>
    cases pending with
    | nil => exact .quiet .stopProviding errors (by simp [TaskCall.Checked]) (List.nil_subset _)
    | cons engine rest =>
      simp only [taskStep]
      split
      · exact .quiet _ errors (by simp [TaskCall.Checked]) (List.Subset.refl _)
      · exact .quiet _ _ (by simp [TaskCall.Checked]) (List.subset_cons_self _ _)
  | workloads engine pending rest =>
    cases pending with
    | nil => exact .quiet _ errors (by simp [TaskCall.Checked]) (List.subset_cons_self _ _)
    | cons w pending =>
      simp only [taskStep]
      split_ifs with hm
      · split
        · rename_i host hcall
          exact .removes rfl hm hcall
        · rename_i e host hcall
          exact .fails rfl hm hcall
      · exact .quiet _ errors (by simp [TaskCall.Checked]) (List.Subset.refl _)
  | stopProviding => exact .stops rfl
  | dropOwner =>
    simp only [taskStep]
    split_ifs with herrors
    · exact .drops rfl herrors
    · exact .quiet .done errors (by simp [TaskCall.Checked]) (List.nil_subset _)
  | done => exact .quiet .done errors (by simp [TaskCall.Checked]) (List.nil_subset _)

end Beemesh
