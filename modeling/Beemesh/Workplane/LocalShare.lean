import Beemesh.Workplane.Agreement
import Beemesh.Workplane.Deployment

/-!
# The local share of a round

A machine carries out its own share of an assignment by deploying the task as often as it got
replicas, and does not look at what comes of it. The pod of a deployment has its name from the
workload alone, so that the second deployment finds the name taken: there is one pod at most, however
large the share.

## Main definitions

* `performCalls`: what the calls of a round do to the machine's own Podman
* `podsOf`: the pods of a task
* `Accepts`: a task that a machine deploys

## Main results

* `countP_isLocal`: a round deploys as often as its machine got replicas
* `podsOf_performCalls`: the pods that these deployments bring
* `localShare_iff`: the rounds that realise the share of their machine
-/

namespace Beemesh.Workplane

/-! ## Deployments without a fault -/

section

variable (K : ManifestDecoder) (task : Task)

/-- A task that is deployed: its manifest reads, as JSON, as a Deployment or a StatefulSet. -/
def Accepts : Prop :=
  task.manifest ≠ "" ∧ (getManifestKind K task.manifest = .ok "Deployment" ∨
    getManifestKind K task.manifest = .ok "StatefulSet")

instance : Decidable (Accepts K task) := inferInstanceAs (Decidable (_ ∧ _))

variable {K task}

theorem deployWorkloadFromTask_of_accepts (h : HostReplies) (haccepts : Accepts K task)
    (s : Podman) : deployWorkloadFromTask h K task s = deployFromManifest h K task s := by
  obtain ⟨hne, hkind⟩ := haccepts
  rw [deployWorkloadFromTask, if_neg hne]
  rcases hkind with hkind | hkind
  · rw [hkind]
    rfl
  · rw [hkind]
    rfl

theorem deployWorkloadFromTask_of_not_accepts (h : HostReplies) (haccepts : ¬ Accepts K task)
    (s : Podman) : (deployWorkloadFromTask h K task s).2 = s := by
  rw [deployWorkloadFromTask]
  split_ifs with hempty
  · rfl
  · cases hkind : getManifestKind K task.manifest with
    | error e => rfl
    | ok kind =>
      have hother : ¬ (kind = "Deployment" ∨ kind = "StatefulSet") := by
        rintro (rfl | rfl)
        · exact haccepts ⟨hempty, .inl hkind⟩
        · exact haccepts ⟨hempty, .inr hkind⟩
      simp only [if_neg hother]

/-- Where no step goes wrong of its own, a deployment makes the pod if it is wanted and its name is
free. -/
theorem deployWorkloadFromTask_pods {h : HostReplies} (hfault : ∀ p, h.fault p = none)
    {plan : PodPlan} (hplan : podPlan K task = .ok plan) (s : Podman) :
    (deployWorkloadFromTask h K task s).2.pods =
      if Accepts K task ∧ plan.podName ∉ s.pods then
        s.pods.insert plan.podName (plan.pod h task)
      else s.pods := by
  by_cases haccepts : Accepts K task
  · rw [deployWorkloadFromTask_of_accepts h haccepts, deployFromManifest_pods h hplan (hfault _)]
    split_ifs with htaken hboth hboth
    · exact absurd htaken hboth.2
    · rfl
    · rfl
    · exact absurd ⟨haccepts, htaken⟩ hboth
  · rw [deployWorkloadFromTask_of_not_accepts h haccepts, if_neg fun h => haccepts h.1]

end

/-! ## The pods of a task -/

/-- The pods with the label of a task. -/
def podsOf (taskID : String) (pods : Table String Pod) : ℕ :=
  pods.total fun pod => if pod.labels.lookup "beemesh-task" = some taskID then 1 else 0

theorem podsOf_insert {pods : Table String Pod} {plan : PodPlan} (hfree : plan.podName ∉ pods)
    (h : HostReplies) (task : Task) :
    podsOf task.taskID (pods.insert plan.podName (plan.pod h task)) =
      podsOf task.taskID pods + 1 := by
  have hlabel : (plan.pod h task).labels.lookup "beemesh-task" = some task.taskID := rfl
  rw [podsOf, AList.total_insert_of_notMem _ _ hfree, if_pos hlabel, Nat.add_comm]
  rfl

/-! ## The calls of a round -/

section

variable {F M : Type}

def Call.isLocal : Call F → Bool
  | .deployLocal _ => true
  | _ => false

/-- What a call does to the machine's own Podman. Whether it goes wrong is not looked at. -/
def Call.perform (h : HostReplies) (K : ManifestDecoder) (s : Podman) : Call F → Podman
  | .publishProposal _ => s
  | .deployLocal task => (deployWorkloadFromTask h K task s).2
  | .delegateTask _ _ => s

/-- What calls do, the first of them answered by the machine as the call `n`. -/
def performCalls (K : ManifestDecoder) (replies : ℕ → HostReplies) :
    ℕ → List (Call F) → Podman → Podman
  | _, [], s => s
  | n, call :: calls, s => performCalls K replies (n + 1) calls (call.perform (replies n) K s)

/-- **The pods that the deployments of a task bring**: one, if there is a deployment, and the
machine deploys the task, and the name of its pod is free. -/
theorem podsOf_performCalls {K : ManifestDecoder} {replies : ℕ → HostReplies}
    (hfault : ∀ n p, (replies n).fault p = none) {task : Task} {plan : PodPlan}
    (hplan : podPlan K task = .ok plan) {calls : List (Call F)}
    (hcalls : ∀ t, .deployLocal t ∈ calls → t = task) (n : ℕ) (s : Podman) :
    podsOf task.taskID (performCalls K replies n calls s).pods =
      podsOf task.taskID s.pods +
        if 0 < calls.countP Call.isLocal ∧ Accepts K task ∧ plan.podName ∉ s.pods then 1
        else 0 := by
  induction calls generalizing n s with
  | nil => rfl
  | cons call calls ih =>
    have hrest : ∀ t, .deployLocal t ∈ calls → t = task := fun t ht =>
      hcalls t (List.mem_cons_of_mem call ht)
    cases call with
    | publishProposal p =>
      rw [performCalls, ih hrest]
      rfl
    | delegateTask nodeID t =>
      rw [performCalls, ih hrest]
      rfl
    | deployLocal t =>
      obtain rfl := hcalls t List.mem_cons_self
      have hpods := deployWorkloadFromTask_pods (hfault n) hplan s
      have hlocal : 0 < ((.deployLocal t : Call F) :: calls).countP Call.isLocal := by
        rw [List.countP_cons_of_pos rfl]
        omega
      have hlater := ih hrest (n + 1) (deployWorkloadFromTask (replies n) K t s).2
      refine hlater.trans ?_
      -- The first deployment takes the name, if it can.
      by_cases hmakes : Accepts K t ∧ plan.podName ∉ s.pods
      · rw [if_pos hmakes] at hpods
        have htaken : plan.podName ∈ s.pods.insert plan.podName (plan.pod (replies n) t) :=
          (AList.mem_insert _).mpr (.inl rfl)
        rw [hpods, podsOf_insert hmakes.2, if_neg fun h => h.2.2 htaken]
        exact congrArg (podsOf t.taskID s.pods + ·) (if_pos (And.intro hlocal hmakes)).symm
      · rw [if_neg hmakes] at hpods
        rw [hpods, if_neg fun h => hmakes h.2, if_neg fun h => hmakes h.2]

/-! ## The share of a round -/

/-- **A round deploys as often as its machine got replicas.** -/
theorem countP_isLocal (opt : Options F M) (task : Task) (assignments : Table String ℕ) :
    (assignments.entries.flatMap (execute (F := F) opt task)).countP Call.isLocal =
      replicasOf assignments opt.nodeID := by
  have hexecute (e : Sigma fun _ : String => ℕ) :
      (execute (F := F) opt task e).countP Call.isLocal =
        if e.1 = opt.nodeID then e.2 else 0 := by
    rw [execute, List.countP_replicate]
    split_ifs with hid hlocal hlocal
    · rfl
    · exact absurd rfl hlocal
    · exact absurd hlocal Bool.false_ne_true
    · rfl
  rw [List.countP_flatMap]
  exact (congrArg List.sum (List.map_congr_left fun e _ => hexecute e)).trans
    (assignments.sum_entries_of_key opt.nodeID)

theorem task_of_mem_execute {opt : Options F M} {task t : Task} {assignments : Table String ℕ}
    (ht : .deployLocal t ∈ assignments.entries.flatMap (execute (F := F) opt task)) : t = task := by
  obtain ⟨e, -, hcall⟩ := List.mem_flatMap.mp ht
  have heq := List.eq_of_mem_replicate hcall
  split_ifs at heq
  · cases heq
    rfl

/-- The same of a task whose number of replicas is put right. -/
theorem podsOf_roundCalls {K : ManifestDecoder} {replies : ℕ → HostReplies}
    (hfault : ∀ n p, (replies n).fault p = none) {task : Task} {plan : PodPlan}
    (hplan : podPlan K task = .ok plan) {calls : List (Call F)}
    (hcalls : ∀ t, .deployLocal t ∈ calls →
      t = if task.replicas ≤ 0 then { task with replicas := 1 } else task) (s : Podman) :
    podsOf task.taskID (performCalls K replies 0 calls s).pods =
      podsOf task.taskID s.pods +
        if 0 < calls.countP Call.isLocal ∧ Accepts K task ∧ plan.podName ∉ s.pods then 1
        else 0 := by
  by_cases hreplicas : task.replicas ≤ 0
  · simp only [if_pos hreplicas] at hcalls
    have hplan' : podPlan K { task with replicas := 1 } = .ok plan := hplan
    exact podsOf_performCalls hfault hplan' hcalls 0 s
  · simp only [if_neg hreplicas] at hcalls
    exact podsOf_performCalls hfault hplan hcalls 0 s

/-- A round ends, and deploys the task, its number of replicas put right, as often as its machine
got replicas. -/
theorem exists_round (A : ScoreArithmetic F) (sort sortStable : SliceSort) (opt : Options F M)
    (task : Task) (received : List (Proposal F)) :
    ∃ assignments calls,
      roundAssignment A sort sortStable opt task received = some assignments ∧
      distributedSchedule A sort sortStable opt task received = some calls ∧
      calls.countP Call.isLocal = replicasOf assignments opt.nodeID ∧
        ∀ t, .deployLocal t ∈ calls →
          t = if task.replicas ≤ 0 then { task with replicas := 1 } else task := by
  have hwanted : 0 < task.wanted := by
    rw [Task.wanted]
    split_ifs with hreplicas
    · exact Int.one_pos
    · exact not_le.mp hreplicas
  have hprops : sort.slice (proposalLess A) (roundProposals opt task.taskID received) ≠ [] :=
    fun hnil => upsertProposal_ne_nil _ _
      (List.perm_nil.mp (hnil ▸ (sort.perm _ (roundProposals opt task.taskID received)).symm))
  obtain ⟨assignments, hassign, -⟩ := exists_assignReplicas (A := A) sortStable hwanted hprops
  have hround : roundAssignment A sort sortStable opt task received = some assignments := hassign
  refine ⟨assignments, _, hround, by rw [distributedSchedule_eq, hround]; rfl, ?_, ?_⟩
  · exact (List.countP_cons_of_neg Bool.false_ne_true).trans (countP_isLocal opt _ assignments)
  · intro t ht
    rcases List.mem_cons.mp ht with heq | ht
    · exact nomatch heq
    · exact task_of_mem_execute ht

/-- **The rounds that realise the share of their machine**: those that give it nothing, or one
replica of a task that it deploys and whose pod has a name that is free. -/
theorem localShare_iff (A : ScoreArithmetic F) (sort sortStable : SliceSort) (opt : Options F M)
    (K : ManifestDecoder) (task : Task) (received : List (Proposal F))
    {replies : ℕ → HostReplies} (hfault : ∀ n p, (replies n).fault p = none) {plan : PodPlan}
    (hplan : podPlan K task = .ok plan) (s : Podman) :
    ∃ assignments calls,
      roundAssignment A sort sortStable opt task received = some assignments ∧
      distributedSchedule A sort sortStable opt task received = some calls ∧
        (podsOf task.taskID (performCalls K replies 0 calls s).pods =
            podsOf task.taskID s.pods + replicasOf assignments opt.nodeID ↔
          replicasOf assignments opt.nodeID = 0 ∨
            replicasOf assignments opt.nodeID = 1 ∧ Accepts K task ∧ plan.podName ∉ s.pods) := by
  obtain ⟨assignments, calls, hround, hschedule, hcount, htask⟩ :=
    exists_round A sort sortStable opt task received
  refine ⟨assignments, calls, hround, hschedule, ?_⟩
  rw [podsOf_roundCalls hfault hplan htask, hcount, Nat.add_right_inj]
  -- One pod at most comes of the share, and one only if the pod can be made.
  by_cases hmakes : Accepts K task ∧ plan.podName ∉ s.pods
  · by_cases hzero : 0 < replicasOf assignments opt.nodeID
    · rw [if_pos ⟨hzero, hmakes⟩]
      exact ⟨fun h => .inr ⟨h.symm, hmakes⟩, fun h => by omega⟩
    · rw [if_neg fun h => hzero h.1]
      exact ⟨fun h => .inl h.symm, fun h => by omega⟩
  · rw [if_neg fun h => hmakes h.2]
    exact ⟨fun h => .inl h.symm, fun h => h.elim Eq.symm fun h => absurd h.2 hmakes⟩

end

/-! ## Two replicas on one machine -/

theorem localShare_iff_web :
    ∃ assignments calls,
      roundAssignment exactScores insertionSlice insertionSlice (scored "a" 1) webDeployment [] =
        some assignments ∧
      distributedSchedule exactScores insertionSlice insertionSlice (scored "a" 1) webDeployment [] =
        some calls ∧
        (podsOf webDeployment.taskID
            (performCalls webDecoder (fun _ => failingAt fun _ => false) 0 calls {}).pods =
            podsOf webDeployment.taskID ({} : Podman).pods + replicasOf assignments "a" ↔
          replicasOf assignments "a" = 0 ∨ replicasOf assignments "a" = 1 ∧
            Accepts webDecoder webDeployment ∧ "default-web" ∉ ({} : Podman).pods) :=
  localShare_iff exactScores insertionSlice insertionSlice (scored "a" 1) webDecoder webDeployment
    [] (fun _ _ => rfl) podPlan_web {}

/-- A machine that is alone, and gets two replicas, has one pod in the end. -/
theorem localShare_two :
    ¬ ∀ assignments calls,
      roundAssignment exactScores insertionSlice insertionSlice (scored "a" 1) webDeployment [] =
        some assignments →
      distributedSchedule exactScores insertionSlice insertionSlice (scored "a" 1) webDeployment [] =
        some calls →
      podsOf webDeployment.taskID
          (performCalls webDecoder (fun _ => failingAt fun _ => false) 0 calls {}).pods =
        podsOf webDeployment.taskID ({} : Podman).pods + replicasOf assignments "a" := by
  intro hclaim
  obtain ⟨assignments, calls, hround, hschedule, hcount, htask⟩ :=
    exists_round exactScores insertionSlice insertionSlice (scored "a" 1) webDeployment []
  have htwo : replicasOf assignments "a" = 2 := by
    have hshare : (roundAssignment exactScores insertionSlice insertionSlice (scored "a" 1)
        webDeployment []).map (replicasOf · "a") = some 2 := by decide +kernel
    rw [hround] at hshare
    exact Option.some_inj.mp hshare
  have hfault : ∀ (n : ℕ) (p : Point),
      ((fun _ => failingAt fun _ => false : ℕ → HostReplies) n).fault p = none := fun _ _ => rfl
  have hone := podsOf_roundCalls hfault podPlan_web htask {}
  have hgrown := hone.symm.trans (hclaim assignments calls hround hschedule)
  rw [htwo, Nat.add_right_inj] at hgrown
  split_ifs at hgrown
  all_goals exact nomatch hgrown

end Beemesh.Workplane
