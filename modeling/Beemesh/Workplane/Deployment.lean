import Beemesh.Lib.Interruption
import Beemesh.Workplane.Podman

/-!
# What a failed deployment leaves behind

A deployment is a list of steps, which are taken until one fails. Podman is never told to remove
anything: once the pod is made, it stays, with the containers that were made up to the failure.

## Main definitions

* `Step`, `PodPlan.steps`: the steps of a deployment, and what they do to the machine
* `Fails`: a step goes wrong

## Main results

* `deployFromManifest_takes`: a deployment takes its steps until one fails
* `deployFromManifest_error`: what a failed deployment leaves behind
* `deployFromManifest_eq_ok_iff`: when a deployment succeeds
* `run_deployFromManifest`: what is left stands in the way of every other attempt
-/

namespace Beemesh.Workplane

open Run

/-- What a step does to the machine. -/
inductive Effect
  | nothing
  | pod (name : String) (p : Pod)
  | container (c : Container)
  | start (containerID : String)
  | dir (path : String)
  | file (path content : String)

structure Step where
  point : Point
  effect : Effect

namespace Step

def apply (s : Podman) (step : Step) : Podman :=
  match step.effect with
  | .nothing => s
  | .pod name p => { s with pods := s.pods.insert name p }
  | .container c => { s with containers := s.containers ++ [c] }
  | .start containerID => { s with started := s.started ++ [containerID] }
  | .dir path => { s with dirs := s.dirs ++ [path] }
  | .file path content => { s with files := s.files.insert path content }

/-- The container that a step makes. -/
def container? (step : Step) : Option Container :=
  match step.effect with
  | .container c => some c
  | _ => none

def MakesPod (step : Step) : Prop := ∃ name p, step.effect = .pod name p

theorem apply_containers (s : Podman) (step : Step) :
    (step.apply s).containers = s.containers ++ step.container?.toList := by
  obtain ⟨point, effect⟩ := step
  cases effect with
  | container c => rfl
  | _ => exact (List.append_nil s.containers).symm

theorem apply_pods {step : Step} (hstep : ¬ step.MakesPod) (s : Podman) :
    (step.apply s).pods = s.pods := by
  obtain ⟨point, effect⟩ := step
  cases effect with
  | pod name p => exact absurd ⟨name, p, rfl⟩ hstep
  | _ => rfl

end Step

/-- Containers are only added, in the order of the steps. -/
theorem run_apply_containers (s : Podman) (steps : List Step) :
    (run Step.apply s steps).containers = s.containers ++ steps.filterMap Step.container? := by
  induction steps generalizing s with
  | nil => exact (List.append_nil s.containers).symm
  | cons step steps ih =>
    rw [run_cons, ih, Step.apply_containers, List.append_assoc, List.filterMap_cons]
    cases step.container? with
    | none => rfl
    | some c => rfl

theorem run_apply_pods {steps : List Step} (hsteps : ∀ step ∈ steps, ¬ step.MakesPod)
    (s : Podman) : (run Step.apply s steps).pods = s.pods := by
  induction steps generalizing s with
  | nil => rfl
  | cons step steps ih =>
    rw [run_cons, ih fun d hd => hsteps d (List.mem_cons_of_mem step hd),
      Step.apply_pods (hsteps step List.mem_cons_self)]

/-! ## The steps of a deployment -/

section

variable (h : HostReplies)

namespace PodPlan

variable (plan : PodPlan) (task : Task)

/-- The pod of a deployment. -/
def pod : Pod := ⟨h.newID .createPod, plan.labels task⟩

/-- The containers of the manifest, from the container at `i`: each is made and started. -/
def containerSteps : ℕ → List ManifestContainer → List Step
  | _, [] => []
  | i, container :: containers =>
    let contID := h.newID (.createContainer i)
    let spec := plan.containerSpec (h.newID .createPod) i container
    ⟨.createContainer i, .container ⟨contID, spec⟩⟩ :: ⟨.startContainer i, .start contID⟩ ::
      containerSteps (i + 1) containers

/-- The infra container, its key and its manifest. -/
def infraSteps : List Step :=
  let infraID := h.newID .createInfra
  let infraSpec := plan.infraSpec h.getenv h.privateKey (h.peerID h.privateKey) task
    (h.newID .createPod)
  [⟨.generateKey, .nothing⟩, ⟨.derivePeerID, .nothing⟩, ⟨.manifestDir, .dir plan.manifestDir⟩,
    ⟨.manifestFile, .file plan.manifestPath task.manifest⟩,
    ⟨.createInfra, .container ⟨infraID, infraSpec⟩⟩, ⟨.startInfra, .start infraID⟩]

/-- The steps that come after the pod. -/
def laterSteps : List Step :=
  plan.containerSteps h 0 plan.podSpec.containers ++ plan.infraSteps h task

def podStep : Step := ⟨.createPod, .pod plan.podName (plan.pod h task)⟩

end PodPlan

/-- A step goes wrong of its own. -/
def Fails (step : Step) : Bool := (h.fault step.point).isSome

/-- What comes out of `s` comes out of these steps, taken until one fails. -/
def Takes (out : Except String Unit × Podman) (s : Podman) (steps : List Step) : Prop :=
  out.2 = (runUntil (Fails h) Step.apply s steps).2 ∧
    (out.1 = .ok () ↔ (runUntil (Fails h) Step.apply s steps).1 = none)

variable {h}

namespace Takes

variable {p : Point} {effect : Effect} {s : Podman} {steps : List Step}

theorem nil (s : Podman) : Takes h (.ok (), s) s [] := ⟨rfl, iff_of_true rfl rfl⟩

theorem of_fault {e : String} (hfault : h.fault p = some e) (m : String) :
    Takes h (.error m, s) s (⟨p, effect⟩ :: steps) := by
  have hfails : Fails h ⟨p, effect⟩ = true := by
    rw [Fails, hfault]
    rfl
  rw [Takes, runUntil_cons_of_fails hfails]
  exact ⟨rfl, iff_of_false (fun h => nomatch h) (fun h => nomatch h)⟩

theorem cons (hfault : h.fault p = none) {out : Except String Unit × Podman}
    (hrest : Takes h out (Step.apply s ⟨p, effect⟩) steps) :
    Takes h out s (⟨p, effect⟩ :: steps) := by
  have hfails : Fails h ⟨p, effect⟩ = false := by
    rw [Fails, hfault]
    rfl
  rwa [Takes, runUntil_cons_of_not_fails hfails]

/-- A part that went well is followed by the next. -/
theorem append {s' : Podman} {steps' : List Step} (hfirst : Takes h (.ok (), s') s steps)
    {out : Except String Unit × Podman} (hnext : Takes h out s' steps') :
    Takes h out s (steps ++ steps') := by
  have hnone : (runUntil (Fails h) Step.apply s steps).1 = none := hfirst.2.mp rfl
  have hs' : s' = (runUntil (Fails h) Step.apply s steps).2 := hfirst.1
  rw [Takes, runUntil_append, hnone, ← hs']
  exact hnext

/-- No part follows one that failed. -/
theorem append_of_error {s' : Podman} {steps' : List Step} {e : String}
    (hfirst : Takes h (.error e, s') s steps) (m : String) :
    Takes h (.error m, s') s (steps ++ steps') := by
  have hsome : (runUntil (Fails h) Step.apply s steps).1 ≠ none := fun hnone =>
    nomatch hfirst.2.mpr hnone
  rw [Takes, runUntil_append, if_pos (Option.isSome_iff_ne_none.mpr hsome)]
  exact ⟨hfirst.1, iff_of_false (fun h => nomatch h) hsome⟩

end Takes

variable (h)

/-- Every container is made and started. -/
theorem deployContainers_takes (plan : PodPlan) (i : ℕ) (containers : List ManifestContainer)
    (s : Podman) :
    Takes h (deployContainers h plan (h.newID .createPod) i containers s) s
      (plan.containerSteps h i containers) := by
  induction containers generalizing i s with
  | nil => exact Takes.nil s
  | cons container containers ih =>
    rw [deployContainers, PodPlan.containerSteps]
    simp only [createContainerFromSpec, startContainer]
    cases hcreate : h.fault (.createContainer i) with
    | some e => exact Takes.of_fault hcreate _
    | none =>
      -- The container has an ID, so that its start is tried.
      refine Takes.cons hcreate ?_
      simp only [if_neg (h.newID_ne_empty _)]
      cases hstart : h.fault (.startContainer i) with
      | some e => exact Takes.of_fault hstart _
      | none => exact Takes.cons hstart (ih (i + 1) _)

/-- The infra container is made last. -/
theorem deployInfra_takes (plan : PodPlan) (task : Task) (s : Podman) :
    Takes h (deployInfra h plan task (h.newID .createPod) s) s (plan.infraSteps h task) := by
  -- One case for each step, in order: it fails, or the next one is tried.
  rw [deployInfra, PodPlan.infraSteps]
  simp only [generateAndEncodePrivateKey, derivePeerIDFromPrivateKey, mkdirAll, writeFile,
    createContainerFromSpec, startContainer]
  cases hkey : h.fault .generateKey with
  | some e => exact Takes.of_fault hkey _
  | none =>
    refine Takes.cons hkey ?_
    cases hpeer : h.fault .derivePeerID with
    | some e => exact Takes.of_fault hpeer _
    | none =>
      refine Takes.cons hpeer ?_
      cases hdir : h.fault .manifestDir with
      | some e => exact Takes.of_fault hdir _
      | none =>
        refine Takes.cons hdir ?_
        cases hfile : h.fault .manifestFile with
        | some e => exact Takes.of_fault hfile _
        | none =>
          refine Takes.cons hfile ?_
          cases hcreate : h.fault .createInfra with
          | some e => exact Takes.of_fault hcreate _
          | none =>
            refine Takes.cons hcreate ?_
            simp only [if_neg (h.newID_ne_empty _)]
            cases hstart : h.fault .startInfra with
            | some e => exact Takes.of_fault hstart _
            | none => exact Takes.cons hstart (Takes.nil _)

/-- No pod is made of the task: the manifest does not say one, Podman refuses, or the name is
taken. -/
def NoPod (K : ManifestDecoder) (task : Task) (s : Podman) : Prop :=
  ∀ plan, podPlan K task = .ok plan →
    (h.fault .createPod).isSome = true ∨ plan.podName ∈ s.pods

theorem deployFromManifest_of_noPod {K : ManifestDecoder} {task : Task} {s : Podman}
    (hnone : NoPod h K task s) : ∃ e, deployFromManifest h K task s = (.error e, s) := by
  rw [deployFromManifest]
  cases hplan : podPlan K task with
  | error e => exact ⟨e, rfl⟩
  | ok plan =>
    simp only [createPod]
    cases hpod : h.fault .createPod with
    | some e => exact ⟨_, rfl⟩
    | none =>
      rcases hnone plan hplan with hfault | htaken
      · rw [hpod] at hfault
        exact nomatch hfault
      · simp only [if_pos htaken]
        exact ⟨_, rfl⟩

/-- **A deployment takes its steps until one fails**, once its pod is made. -/
theorem deployFromManifest_takes {K : ManifestDecoder} {task : Task} {s : Podman} {plan : PodPlan}
    (hplan : podPlan K task = .ok plan) (hpod : h.fault .createPod = none)
    (hfree : plan.podName ∉ s.pods) :
    Takes h (deployFromManifest h K task s) ((plan.podStep h task).apply s)
      (plan.laterSteps h task) := by
  have hcreate : createPod h plan.podName (plan.labels task) s =
      (.ok (h.newID .createPod), (plan.podStep h task).apply s) := by
    simp only [createPod, hpod, if_neg hfree]
    rfl
  rw [deployFromManifest, hplan]
  simp only [hcreate]
  -- The containers come first, and the infra container if none of them failed.
  have hcontainers := deployContainers_takes h plan 0 plan.podSpec.containers
    ((plan.podStep h task).apply s)
  cases hout : deployContainers h plan (h.newID .createPod) 0 plan.podSpec.containers
      ((plan.podStep h task).apply s) with
  | mk r s' =>
    rw [hout] at hcontainers
    cases r with
    | error e => exact hcontainers.append_of_error e
    | ok u => exact hcontainers.append (deployInfra_takes h plan task s')

/-! ## What is left -/

variable {h}

theorem not_makesPod_of_mem_containerSteps {plan : PodPlan} {i : ℕ}
    {containers : List ManifestContainer} {step : Step}
    (hstep : step ∈ plan.containerSteps h i containers) : ¬ step.MakesPod := by
  induction containers generalizing i with
  | nil => exact absurd hstep List.not_mem_nil
  | cons container containers ih =>
    rw [PodPlan.containerSteps, List.mem_cons, List.mem_cons] at hstep
    rcases hstep with rfl | rfl | hstep
    · rintro ⟨name, p, heq⟩
      exact nomatch heq
    · rintro ⟨name, p, heq⟩
      exact nomatch heq
    · exact ih hstep

theorem not_makesPod_of_mem_laterSteps {plan : PodPlan} {task : Task} {step : Step}
    (hstep : step ∈ plan.laterSteps h task) : ¬ step.MakesPod := by
  rcases List.mem_append.mp hstep with hstep | hstep
  · exact not_makesPod_of_mem_containerSteps hstep
  · rintro ⟨name, p, heq⟩
    have heffects : ∀ step ∈ plan.infraSteps h task, step.effect ≠ .pod name p := by
      simp [PodPlan.infraSteps]
    exact heffects step hstep heq

/-- Pods and containers, once the pod is made and some steps are taken. -/
theorem run_apply_podStep {plan : PodPlan} {task : Task} {s : Podman} {done : List Step}
    (hdone : ∀ d ∈ done, d ∈ plan.laterSteps h task) :
    let s' := run Step.apply ((plan.podStep h task).apply s) done
    s'.pods = s.pods.insert plan.podName (plan.pod h task) ∧
      s'.containers = s.containers ++ done.filterMap Step.container? := by
  constructor
  · rw [run_apply_pods fun d hd => not_makesPod_of_mem_laterSteps (hdone d hd)]
    rfl
  · rw [run_apply_containers]
    rfl

variable (h)

/-- **What a failed deployment leaves behind**: nothing, if no pod was made of the task; else its
pod and the containers that were made before the step that failed. All that was there stays. -/
theorem deployFromManifest_error (K : ManifestDecoder) (task : Task) (s : Podman) {e : String}
    (herr : (deployFromManifest h K task s).1 = .error e) :
    let s' := (deployFromManifest h K task s).2
    (NoPod h K task s ∧ s' = s) ∨
      ∃ plan, podPlan K task = .ok plan ∧ plan.podName ∉ s.pods ∧ h.fault .createPod = none ∧
        ∃ done step rest, plan.laterSteps h task = done ++ step :: rest ∧
          (∀ d ∈ done, Fails h d = false) ∧ Fails h step = true ∧
            s'.pods = s.pods.insert plan.podName (plan.pod h task) ∧
              s'.containers = s.containers ++ done.filterMap Step.container? := by
  intro s'
  by_cases hnone : NoPod h K task s
  · obtain ⟨e', hout⟩ := deployFromManifest_of_noPod h hnone
    exact .inl ⟨hnone, congrArg Prod.snd hout⟩
  · right
    unfold NoPod at hnone
    push Not at hnone
    obtain ⟨plan, hplan, hfault, hfree⟩ := hnone
    have hpod : h.fault .createPod = none := Option.not_isSome_iff_eq_none.mp hfault
    obtain ⟨hleft, hok⟩ := deployFromManifest_takes h hplan hpod hfree
    refine ⟨plan, hplan, hfree, hpod, ?_⟩
    -- The deployment did not get through its steps.
    cases hrun : runUntil (Fails h) Step.apply ((plan.podStep h task).apply s)
        (plan.laterSteps h task) with
    | mk failed left =>
      rw [hrun] at hleft hok
      cases failed with
      | none => exact nomatch herr.symm.trans (hok.mpr rfl)
      | some step =>
        obtain ⟨done, rest, hsteps, hdone, hfails, hstate⟩ := exists_of_runUntil_eq_some hrun
        have hmem : ∀ d ∈ done, d ∈ plan.laterSteps h task := fun d hd =>
          hsteps ▸ List.mem_append_left _ hd
        have hs' : s' = run Step.apply ((plan.podStep h task).apply s) done := hleft.trans hstate
        obtain ⟨hpods, hcontainers⟩ := run_apply_podStep hmem
        exact ⟨done, step, rest, hsteps, hdone, hfails, hs' ▸ hpods, hs' ▸ hcontainers⟩

/-- **When a deployment succeeds**: its pod is made, and no later step fails. -/
theorem deployFromManifest_eq_ok_iff {K : ManifestDecoder} {task : Task} {s : Podman} :
    (deployFromManifest h K task s).1 = .ok () ↔
      ∃ plan, podPlan K task = .ok plan ∧ h.fault .createPod = none ∧ plan.podName ∉ s.pods ∧
        ∀ step ∈ plan.laterSteps h task, Fails h step = false := by
  constructor
  · intro hok
    have hsome : ¬ NoPod h K task s := by
      intro hnone
      obtain ⟨e, hout⟩ := deployFromManifest_of_noPod h hnone
      rw [hout] at hok
      exact nomatch hok
    unfold NoPod at hsome
    push Not at hsome
    obtain ⟨plan, hplan, hfault, hfree⟩ := hsome
    have hpod : h.fault .createPod = none := Option.not_isSome_iff_eq_none.mp hfault
    have hrun := (deployFromManifest_takes h hplan hpod hfree).2.mp hok
    rw [runUntil_fst] at hrun
    refine ⟨plan, hplan, hpod, hfree, fun step hstep => ?_⟩
    exact Bool.eq_false_iff.mpr (List.find?_eq_none.mp hrun step hstep)
  · rintro ⟨plan, hplan, hpod, hfree, hsteps⟩
    refine (deployFromManifest_takes h hplan hpod hfree).2.mpr ?_
    rw [runUntil_of_forall hsteps]

section

variable {K : ManifestDecoder} {task : Task} {plan : PodPlan} (hplan : podPlan K task = .ok plan)
include hplan

theorem noPod_of_mem {s : Podman} (htaken : plan.podName ∈ s.pods) : NoPod h K task s := by
  intro plan' hplan'
  cases hplan.symm.trans hplan'
  exact .inr htaken

variable (hpod : h.fault .createPod = none) (s : Podman)
include hpod

/-- **The pod of a deployment** is made unless its name is taken, whatever fails later. -/
theorem deployFromManifest_pods :
    (deployFromManifest h K task s).2.pods =
      if plan.podName ∈ s.pods then s.pods
      else s.pods.insert plan.podName (plan.pod h task) := by
  split_ifs with htaken
  · obtain ⟨e, hout⟩ := deployFromManifest_of_noPod h (noPod_of_mem h hplan htaken)
    rw [hout]
  · have htakes := deployFromManifest_takes h hplan hpod htaken
    obtain ⟨done, hprefix, hleft⟩ : ∃ done, done <+: plan.laterSteps h task ∧
        (runUntil (Fails h) Step.apply ((plan.podStep h task).apply s)
          (plan.laterSteps h task)).2 = run Step.apply ((plan.podStep h task).apply s) done :=
      exists_prefix_runUntil _ _
    rw [htakes.1, hleft]
    exact (run_apply_podStep fun d hd => hprefix.subset hd).1

/-- **A deployment that got to its pod is not repeated**: whatever became of it, the name is taken,
and no other attempt at the task changes anything. -/
theorem run_deployFromManifest (attempts : List HostReplies) :
    let s' := (deployFromManifest h K task s).2
    run (fun s h => (deployFromManifest h K task s).2) s' attempts = s' := by
  intro s'
  have htaken : plan.podName ∈ s'.pods := by
    rw [deployFromManifest_pods h hplan hpod s]
    split_ifs with hbefore
    · exact hbefore
    · exact (AList.mem_insert _).mpr (.inl rfl)
  have hstays (s₁ : Podman) (h₁ : HostReplies) (hs₁ : s₁ = s') :
      (deployFromManifest h₁ K task s₁).2 = s' := by
    obtain ⟨e, hout⟩ := deployFromManifest_of_noPod h₁ (noPod_of_mem h₁ hplan (hs₁ ▸ htaken))
    rw [hout, hs₁]
  exact run_invariant hstays attempts rfl

end

end

/-! ## A workload of one container -/

/-- A Deployment, as JSON. -/
def webJSON : String :=
  "\x7b\"kind\":\"Deployment\",\"apiVersion\":\"apps/v1\",\"metadata\":\x7b\"name\":\"web\"\x7d," ++
    "\"spec\":\x7b\"template\":\x7b\"spec\":\x7b\"containers\":[\x7b\"name\":\"app\"," ++
      "\"image\":\"nginx\"\x7d]\x7d\x7d\x7d\x7d"

def webPodSpec : PodSpec := ⟨[⟨"app", "nginx", [], [], [], [], []⟩], []⟩

/-- Reads this manifest alone. -/
def webDecoder : ManifestDecoder where
  jsonKind text := if text = webJSON then .ok (some "Deployment") else .error "not read"
  decode text :=
    if text = webJSON then .ok (.deployment ⟨"web", "", webPodSpec⟩, "Deployment")
    else .error "not read"

def webDeployment : Task :=
  { taskID := "t", kind := "Deployment", manifest := webJSON, replicas := 2 }

/-- A machine where these steps go wrong. -/
def failingAt (failing : Point → Bool) : HostReplies where
  fault p := if failing p then some "no space left on device" else none
  newID _ := "5d3c"
  newID_ne_empty _ := by decide
  nameInUse name := "name " ++ name ++ " is in use: pod already exists"
  privateKey := "CAESQ"
  peerID key := "12D3Koo" ++ key
  getenv _ := ""

theorem podPlan_web : podPlan webDecoder webDeployment =
    .ok ⟨"Deployment", "web", "default", webPodSpec⟩ := by
  have hdecode : webDecoder.decode webDeployment.manifest =
      .ok (.deployment ⟨"web", "", webPodSpec⟩, "Deployment") := by
    change (if webJSON = webJSON then _ else .error "not read") = _
    exact if_pos rfl
  rw [podPlan, hdecode]
  rfl

/-- The first container is made, and cannot be started. -/
theorem deployFromManifest_startContainer :
    (deployFromManifest (failingAt (· = .startContainer 0)) webDecoder webDeployment {}).1 =
      .error ("failed to start container default-web-app: failed to start container: " ++
        "no space left on device") := by
  rw [deployFromManifest, podPlan_web]
  rfl

theorem deployFromManifest_error_startContainer :
    let h := failingAt (· = .startContainer 0)
    let s' := (deployFromManifest h webDecoder webDeployment {}).2
    (NoPod h webDecoder webDeployment {} ∧ s' = {}) ∨
      ∃ plan, podPlan webDecoder webDeployment = .ok plan ∧ plan.podName ∉ ({} : Podman).pods ∧
        h.fault .createPod = none ∧
        ∃ done step rest, plan.laterSteps h webDeployment = done ++ step :: rest ∧
          (∀ d ∈ done, Fails h d = false) ∧ Fails h step = true ∧
            s'.pods = ({} : Podman).pods.insert plan.podName (plan.pod h webDeployment) ∧
              s'.containers = ({} : Podman).containers ++ done.filterMap Step.container? :=
  deployFromManifest_error (failingAt (· = .startContainer 0)) webDecoder webDeployment {}
    deployFromManifest_startContainer

/-- A deployment that cannot start its container leaves its pod and the container. -/
theorem deployFromManifest_leaves_pod :
    ¬ ∀ (failing : Point → Bool) (s : Podman) (e : String),
      (deployFromManifest (failingAt failing) webDecoder webDeployment s).1 = .error e →
        let s' := (deployFromManifest (failingAt failing) webDecoder webDeployment s).2
        s'.pods = s.pods ∧ s'.containers = s.containers := by
  intro hclaim
  have hcontainers := (hclaim _ {} _ deployFromManifest_startContainer).2
  rw [deployFromManifest, podPlan_web] at hcontainers
  exact absurd (congrArg List.length hcontainers) (by decide)

end Beemesh.Workplane
