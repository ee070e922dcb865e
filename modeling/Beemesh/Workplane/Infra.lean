import Beemesh.Lib.Pieces
import Beemesh.Workplane.LocalShare

/-!
# The infra containers of a machine

A machine deploys tasks one after another, some of which fail. With every deployment that gets so
far it writes the manifest of the task to a file, which is named by the pod, and mounts the file into
the infra container of the pod.

No deployment removes anything, and a pod name is used once. So the infra container of a pod goes
with one task for good, unless another pod has its file: the path of the file is cleaned, and a name
with slashes in it may lead elsewhere.

## Main definitions

* `Attempt`, `Podman.deploy`: a deployment that a machine is asked for
* `agents`: the infra containers
* `Podman.read`: what a container finds at a path
* `Attempt.Plain`: the names of a task have no slash

## Main results

* `deploy_cases`: how far a deployment gets
* `Podman.Kept.deploy`: infra containers keep their pods and their manifests
* `agents_run`: the infra containers of a machine, whatever it was asked for
-/

namespace Beemesh.Workplane

open Run

/-! ## Paths -/

section

variable {podName : String} (h : '/' ∉ podName.toList)
include h

/-- The parts of the path, where the name of the pod is one of them. -/
theorem split_manifest : Text.split ("/tmp/" ++ podName ++ "/manifest.yaml") "/" =
    ["", "tmp", podName, "manifest.yaml"] := by
  have hchars : ("/tmp/" ++ podName ++ "/manifest.yaml").toList =
      [] ++ '/' :: (['t', 'm', 'p'] ++ '/' ::
        (podName.toList ++ '/' :: "manifest.yaml".toList)) := by
    simp only [String.toList_append]
    rfl
  have hlast : Text.splitFrom ['/'] 0 [] "manifest.yaml".toList = ["manifest.yaml".toList] := by
    decide
  have hsep : "/".toList = ['/'] := rfl
  rw [Text.split, hchars, hsep, Text.splitFrom_append_cons List.not_mem_nil,
    Text.splitFrom_append_cons (by decide), Text.splitFrom_append_cons h, hlast]
  simp only [List.map_cons, List.map_nil, String.ofList_toList]

end

namespace PodPlan

variable {plan plan' : PodPlan}

/-- The name of a pod has a dash in it. -/
theorem podName_ne {name : String} (hname : '-' ∉ name.toList) : plan.podName ≠ name := by
  rintro rfl
  have hpod : plan.podName = plan.namespaceName ++ "-" ++ plan.name := rfl
  rw [hpod, String.toList_append, String.toList_append] at hname
  exact hname (List.mem_append_left _ (List.mem_append_right _ (List.mem_singleton_self '-')))

theorem manifestPath_eq (h : '/' ∉ plan.podName.toList) :
    plan.manifestPath = "/tmp/" ++ (plan.podName ++ "/manifest.yaml") := by
  have hpath : Text.split s!"/tmp/{plan.podName}/manifest.yaml" "/" =
      ["", "tmp", plan.podName, "manifest.yaml"] := split_manifest h
  have hne : plan.podName ≠ "" := podName_ne (by decide)
  have hdot : plan.podName ≠ "." := podName_ne (by decide)
  have hdots : plan.podName ≠ ".." := podName_ne (by decide)
  -- Only the empty part in front of the first slash is cleaned away.
  have hparts : plan.manifestParts = ["tmp", plan.podName, "manifest.yaml"] := by
    simp [manifestParts, cleanParts, hpath, hne, hdot, hdots]
  have hfront : "/tmp/" = "/" ++ ("tmp" ++ "/") := rfl
  have hback : "/manifest.yaml" = "/" ++ "manifest.yaml" := rfl
  rw [manifestPath, hparts, rootedPath, String.intercalate_cons_cons, String.intercalate_cons_cons,
    String.intercalate_singleton, hfront, hback]
  simp only [String.append_assoc]

/-- Pods have files of their own. -/
theorem podName_eq_of_manifestPath_eq (h : '/' ∉ plan.podName.toList)
    (h' : '/' ∉ plan'.podName.toList) (hpath : plan.manifestPath = plan'.manifestPath) :
    plan.podName = plan'.podName := by
  rw [manifestPath_eq h, manifestPath_eq h'] at hpath
  exact (String.append_left_inj _).mp ((String.append_right_inj _).mp hpath)

end PodPlan

/-! ## What the steps of a deployment do -/

theorem Step.apply_files {step : Step} (h : ∀ path content, step.effect ≠ .file path content)
    (s : Podman) : (step.apply s).files = s.files := by
  obtain ⟨point, effect⟩ := step
  cases effect with
  | file path content => exact absurd rfl (h path content)
  | _ => rfl

/-- The infra containers. -/
def agents (containers : List Container) : List Container :=
  containers.filter fun c => c.spec.init

theorem agents_append (cs ds : List Container) : agents (cs ++ ds) = agents cs ++ agents ds :=
  List.filter_append cs ds

/-- A deployment that a machine is asked for, and what the machine answers. -/
structure Attempt where
  replies : HostReplies
  task : Task

/-- The infra container of a deployment. -/
def Attempt.infra (a : Attempt) (plan : PodPlan) : Container :=
  ⟨a.replies.newID .createInfra, plan.infraSpec a.replies.getenv a.replies.privateKey
    (a.replies.peerID a.replies.privateKey) a.task (a.replies.newID .createPod)⟩

section

variable {a : Attempt} {plan : PodPlan}

/-- The containers of the manifest are no infra containers, and no file is written for them. -/
theorem containerSteps_spec {i : ℕ} {containers : List ManifestContainer} {step : Step}
    (hstep : step ∈ plan.containerSteps a.replies i containers) :
    agents step.container?.toList = [] ∧ ∀ path content, step.effect ≠ .file path content := by
  induction containers generalizing i with
  | nil => exact absurd hstep List.not_mem_nil
  | cons container containers ih =>
    rw [PodPlan.containerSteps, List.mem_cons, List.mem_cons] at hstep
    rcases hstep with rfl | rfl | hstep
    · exact ⟨rfl, fun _ _ h => by cases h⟩
    · exact ⟨rfl, fun _ _ h => by cases h⟩
    · exact ih hstep

theorem run_containerSteps {done : List Step} {containers : List ManifestContainer}
    (hdone : ∀ d ∈ done, d ∈ plan.containerSteps a.replies 0 containers) (s : Podman) :
    agents (done.filterMap Step.container?) = [] ∧ (run Step.apply s done).files = s.files := by
  induction done generalizing s with
  | nil => exact ⟨rfl, rfl⟩
  | cons d done ih =>
    obtain ⟨hagents, hfile⟩ := containerSteps_spec (hdone d List.mem_cons_self)
    obtain ⟨hrest, hfiles⟩ := ih (fun d' hd' => hdone d' (List.mem_cons_of_mem d hd')) (d.apply s)
    constructor
    · have hsplit : (d :: done).filterMap Step.container? =
          d.container?.toList ++ done.filterMap Step.container? := by
        rw [List.filterMap_cons]
        cases d.container? with
        | none => rfl
        | some c => rfl
      rw [hsplit, agents_append, hagents, hrest]
      rfl
    · rw [run_cons, hfiles, Step.apply_files hfile]

/-- The steps make no infra container, or one that has its manifest, and write no file but that of
their pod. -/
def Attempt.Brings (a : Attempt) (plan : PodPlan) (done : List Step) : Prop :=
  ∀ s : Podman,
    let files := s.files.insert plan.manifestPath a.task.manifest
    let s' := run Step.apply s done
    (agents (done.filterMap Step.container?) = [] ∧ (s'.files = s.files ∨ s'.files = files)) ∨
      agents (done.filterMap Step.container?) = [a.infra plan] ∧ s'.files = files

/-- The infra container has its manifest once it is made. -/
theorem brings_infraSteps {done : List Step} (hdone : done <+: plan.infraSteps a.replies a.task) :
    a.Brings plan done := by
  intro s
  simp only [PodPlan.infraSteps, List.prefix_cons_iff, List.prefix_nil] at hdone
  -- Nothing, the key, its peer, the directory, the file, the container, or its start as well.
  rcases hdone with rfl | ⟨_, rfl, rfl | ⟨_, rfl, rfl | ⟨_, rfl, rfl | ⟨_, rfl, rfl |
    ⟨_, rfl, rfl | ⟨_, rfl, rfl⟩⟩⟩⟩⟩⟩
  · exact .inl ⟨rfl, .inl rfl⟩
  · exact .inl ⟨rfl, .inl rfl⟩
  · exact .inl ⟨rfl, .inl rfl⟩
  · exact .inl ⟨rfl, .inl rfl⟩
  · exact .inl ⟨rfl, .inr rfl⟩
  · exact .inr ⟨rfl, rfl⟩
  · exact .inr ⟨rfl, rfl⟩

/-- However far a deployment gets once its pod is made. -/
theorem brings_laterSteps {done : List Step} (hdone : done <+: plan.laterSteps a.replies a.task) :
    a.Brings plan done := by
  intro s
  rcases List.prefix_or_prefix_of_prefix hdone (List.prefix_append _ _) with hfirst | ⟨later, rfl⟩
  · obtain ⟨hagents, hfiles⟩ := run_containerSteps (fun d hd => hfirst.subset hd) s
    exact .inl ⟨hagents, .inl hfiles⟩
  · rw [PodPlan.laterSteps, List.prefix_append_right_inj] at hdone
    have hfirst : ∀ d ∈ plan.containerSteps a.replies 0 plan.podSpec.containers,
        d ∈ plan.containerSteps a.replies 0 plan.podSpec.containers := fun d hd => hd
    obtain ⟨hagents, hfiles⟩ := run_containerSteps hfirst s
    have hlater := brings_infraSteps hdone
      (run Step.apply s (plan.containerSteps a.replies 0 plan.podSpec.containers))
    rw [run_append, List.filterMap_append, agents_append, hagents, List.nil_append]
    rwa [hfiles] at hlater

end

/-! ## Deployments one after another -/

/-- What is left of a deployment. -/
def Podman.deploy (K : ManifestDecoder) (s : Podman) (a : Attempt) : Podman :=
  (deployWorkloadFromTask a.replies K a.task s).2

/-- **How far a deployment gets**: it changes nothing, or makes its pod, under a name that was free,
and takes some of the steps that follow. -/
theorem deploy_cases (K : ManifestDecoder) (s : Podman) (a : Attempt) :
    s.deploy K a = s ∨ ∃ plan done, podPlan K a.task = .ok plan ∧ plan.podName ∉ s.pods ∧
      done <+: plan.laterSteps a.replies a.task ∧
        s.deploy K a = run Step.apply ((plan.podStep a.replies a.task).apply s) done := by
  by_cases haccepts : Accepts K a.task
  · rw [Podman.deploy, deployWorkloadFromTask_of_accepts a.replies haccepts]
    by_cases hnone : NoPod a.replies K a.task s
    · obtain ⟨e, hout⟩ := deployFromManifest_of_noPod a.replies hnone
      exact .inl (congrArg Prod.snd hout)
    · unfold NoPod at hnone
      push Not at hnone
      obtain ⟨plan, hplan, hfault, hfree⟩ := hnone
      obtain ⟨hleft, -⟩ := deployFromManifest_takes a.replies hplan
        (Option.not_isSome_iff_eq_none.mp hfault) hfree
      obtain ⟨done, hdone, hrun⟩ : ∃ done, done <+: plan.laterSteps a.replies a.task ∧
          (runUntil (Fails a.replies) Step.apply ((plan.podStep a.replies a.task).apply s)
            (plan.laterSteps a.replies a.task)).2 =
              run Step.apply ((plan.podStep a.replies a.task).apply s) done :=
        exists_prefix_runUntil _ _
      exact .inr ⟨plan, done, hplan, hfree, hdone, hleft.trans hrun⟩
  · exact .inl (deployWorkloadFromTask_of_not_accepts a.replies haccepts s)

/-- What a container finds at a path where something is mounted. -/
def Podman.read (s : Podman) (c : Container) (path : String) : Option String :=
  (c.spec.mounts.find? fun m => m.destination = path).bind fun m => s.files.lookup m.source

/-- The names in the task have no slash. -/
def Attempt.Plain (K : ManifestDecoder) (a : Attempt) : Prop :=
  ∀ plan, podPlan K a.task = .ok plan → '/' ∉ plan.podName.toList

/-- The infra container of a deployment, with its pod and its manifest. -/
structure IsAgent (K : ManifestDecoder) (P : Attempt → Prop) (s : Podman) (c : Container)
    (a : Attempt) (plan : PodPlan) : Prop where
  asked : P a
  planned : podPlan K a.task = .ok plan
  eq : c = a.infra plan
  pod : s.pods.lookup plan.podName = some (plan.pod a.replies a.task)
  manifest : (∀ b, P b → b.Plain K) → s.files.lookup plan.manifestPath = some a.task.manifest

/-- Every infra container is that of a deployment, and every pod has one at most. -/
structure Podman.Kept (K : ManifestDecoder) (P : Attempt → Prop) (s : Podman) : Prop where
  agent : ∀ c ∈ agents s.containers, ∃ a plan, IsAgent K P s c a plan
  nodup : ((agents s.containers).map fun c => c.spec.name).Nodup

section

variable {K : ManifestDecoder} {P : Attempt → Prop} {s s' : Podman} {a b : Attempt}
  {plan plan' : PodPlan} {c : Container}

theorem IsAgent.name_eq (h : IsAgent K P s c a plan) : c.spec.name = plan.podName ++ "-infra" := by
  rw [h.eq]
  rfl

theorem IsAgent.mem_pods (h : IsAgent K P s c a plan) : plan.podName ∈ s.pods :=
  AList.lookup_isSome.mp (h.pod ▸ rfl)

/-- A pod under another name leaves the agent as it is. -/
theorem IsAgent.keep (h : IsAgent K P s c a plan) (hb : P b) (hplan : podPlan K b.task = .ok plan')
    (hfree : plan'.podName ∉ s.pods)
    (hpods : s'.pods = s.pods.insert plan'.podName (plan'.pod b.replies b.task))
    (hfiles : s'.files = s.files ∨
      s'.files = s.files.insert plan'.manifestPath b.task.manifest) :
    IsAgent K P s' c a plan := by
  have hne : plan.podName ≠ plan'.podName := fun heq => hfree (heq ▸ h.mem_pods)
  refine ⟨h.asked, h.planned, h.eq, ?_, fun hplain => ?_⟩
  · rw [hpods, AList.lookup_insert_ne hne]
    exact h.pod
  · have hpath : plan.manifestPath ≠ plan'.manifestPath := fun heq => hne
      (PodPlan.podName_eq_of_manifestPath_eq (hplain a h.asked plan h.planned)
        (hplain b hb plan' hplan) heq)
    rcases hfiles with hfiles | hfiles
    · rw [hfiles]
      exact h.manifest hplain
    · rw [hfiles, AList.lookup_insert_ne hpath]
      exact h.manifest hplain

/-- **Infra containers keep their pods and their manifests**, whatever is deployed next. -/
theorem Podman.Kept.deploy (hs : s.Kept K P) (hb : P b) : (s.deploy K b).Kept K P := by
  rcases deploy_cases K s b with hsame | ⟨plan, done, hplan, hfree, hdone, hleft⟩
  · rwa [hsame]
  · obtain ⟨hpods, hcontainers⟩ := run_apply_podStep (s := s) fun d hd => hdone.subset hd
    have hbrings := brings_laterSteps hdone ((plan.podStep b.replies b.task).apply s)
    simp only at hbrings
    rw [← hleft] at hpods hcontainers hbrings
    have hold {files : Table String String} (hfiles : (s.deploy K b).files = files)
        (hcases : files = s.files ∨ files = s.files.insert plan.manifestPath b.task.manifest) :
        ∀ c ∈ agents s.containers, ∃ a plan, IsAgent K P (s.deploy K b) c a plan := by
      intro c hc
      obtain ⟨a, plan', hagent⟩ := hs.agent c hc
      exact ⟨a, plan', hagent.keep hb hplan hfree hpods (hfiles ▸ hcases)⟩
    rcases hbrings with ⟨hnone, hfiles⟩ | ⟨hone, hfiles⟩
    · have hagents : agents (s.deploy K b).containers = agents s.containers := by
        rw [hcontainers, agents_append, hnone, List.append_nil]
      constructor
      · rw [hagents]
        exact hold rfl hfiles
      · rw [hagents]
        exact hs.nodup
    · have hagents : agents (s.deploy K b).containers = agents s.containers ++ [b.infra plan] := by
        rw [hcontainers, agents_append, hone]
      have hnew : IsAgent K P (s.deploy K b) (b.infra plan) b plan := by
        refine ⟨hb, hplan, rfl, ?_, fun _ => ?_⟩
        · rw [hpods, AList.lookup_insert]
        · rw [hfiles]
          exact AList.lookup_insert _
      constructor
      · rw [hagents]
        intro c hc
        rcases List.mem_append.mp hc with hc | hc
        · exact hold rfl (.inr hfiles) c hc
        · exact ⟨b, plan, List.mem_singleton.mp hc ▸ hnew⟩
      · rw [hagents, List.map_append, List.nodup_append]
        refine ⟨hs.nodup, List.nodup_singleton _, ?_⟩
        -- The name of the pod was free, and it is in the name of the container.
        intro name hname name' hname' heq
        obtain ⟨c, hc, rfl⟩ := List.mem_map.mp hname
        obtain ⟨a, plan', hagent⟩ := hs.agent c hc
        obtain rfl := List.mem_singleton.mp hname'
        have hnames : plan'.podName ++ "-infra" = plan.podName ++ "-infra" :=
          hagent.name_eq.symm.trans heq
        exact hfree ((String.append_left_inj _).mp hnames ▸ hagent.mem_pods)

theorem Podman.Kept.run {attempts : List Attempt} (hs : s.Kept K P)
    (hasked : ∀ a ∈ attempts, P a) : (Run.run (Podman.deploy K) s attempts).Kept K P := by
  induction attempts generalizing s with
  | nil => exact hs
  | cons a attempts ih =>
    exact ih (hs.deploy (hasked a List.mem_cons_self)) fun b hb =>
      hasked b (List.mem_cons_of_mem a hb)

theorem Podman.kept_start : Podman.Kept K P {} :=
  ⟨fun _ hc => absurd hc List.not_mem_nil, List.nodup_nil⟩

end

/-- An infra container finds the manifest of the task that its pod is labelled with. -/
theorem exists_attempt_of_mem_agents {K : ManifestDecoder} {attempts : List Attempt}
    (hplain : ∀ a ∈ attempts, a.Plain K) {c : Container} :
    let s := run (Podman.deploy K) {} attempts
    c ∈ agents s.containers → ∃ a ∈ attempts, ∃ plan, podPlan K a.task = .ok plan ∧
      c = a.infra plan ∧ s.pods.lookup plan.podName = some (plan.pod a.replies a.task) ∧
        s.read c "/etc/beemesh/manifest.yaml" = some a.task.manifest := by
  intro s hc
  have hs : s.Kept K (· ∈ attempts) := Podman.kept_start.run fun _ ha => ha
  obtain ⟨a, plan, hagent⟩ := hs.agent c hc
  refine ⟨a, hagent.asked, plan, hagent.planned, hagent.eq, hagent.pod, ?_⟩
  have hread : s.read (a.infra plan) "/etc/beemesh/manifest.yaml" =
      s.files.lookup plan.manifestPath := rfl
  rw [hagent.eq, hread, hagent.manifest hplain]

/-- **The infra containers of a machine**, after any deployments of tasks with plain names, however
they ended: no two are of one pod, and each finds the manifest of the task that its pod is labelled
with. -/
theorem agents_run (K : ManifestDecoder) {attempts : List Attempt}
    (hplain : ∀ a ∈ attempts, a.Plain K) :
    let s := run (Podman.deploy K) {} attempts
    ((agents s.containers).map fun c => c.spec.name).Nodup ∧
      ∀ c ∈ agents s.containers, ∃ a ∈ attempts, ∃ plan, podPlan K a.task = .ok plan ∧
        c = a.infra plan ∧ s.pods.lookup plan.podName = some (plan.pod a.replies a.task) ∧
          s.read c "/etc/beemesh/manifest.yaml" = some a.task.manifest := by
  intro s
  have hs : s.Kept K (· ∈ attempts) := Podman.kept_start.run fun _ ha => ha
  exact ⟨hs.nodup, fun c hc => exists_attempt_of_mem_agents hplain hc⟩

/-! ## Deployments that succeed -/

section

variable {K : ManifestDecoder} {s : Podman} {a : Attempt}

/-- Containers are not removed. -/
theorem prefix_containers_deploy (K : ManifestDecoder) (s : Podman) (a : Attempt) :
    s.containers <+: (s.deploy K a).containers := by
  rcases deploy_cases K s a with hsame | ⟨plan, done, -, -, hdone, hleft⟩
  · rw [hsame]
  · rw [hleft, (run_apply_podStep fun d hd => hdone.subset hd).2]
    exact List.prefix_append _ _

theorem prefix_containers_run (attempts : List Attempt) :
    s.containers <+: (run (Podman.deploy K) s attempts).containers := by
  induction attempts generalizing s with
  | nil => exact List.prefix_rfl
  | cons a attempts ih => exact (prefix_containers_deploy K s a).trans ih

theorem accepts_of_deploy_ok (hok : (deployWorkloadFromTask a.replies K a.task s).1 = .ok ()) :
    Accepts K a.task := by
  rw [deployWorkloadFromTask] at hok
  split_ifs at hok with hempty
  refine ⟨hempty, ?_⟩
  cases hkind : getManifestKind K a.task.manifest with
  | error e =>
    rw [hkind] at hok
    cases hok
  | ok kind =>
    simp only [hkind] at hok
    split_ifs at hok with hsupported
    exact hsupported.imp (congrArg _) (congrArg _)

/-- A deployment that succeeds has its infra container, and keeps it. -/
theorem infra_mem_of_ok (hok : (deployWorkloadFromTask a.replies K a.task s).1 = .ok ())
    (later : List Attempt) :
    ∃ plan, podPlan K a.task = .ok plan ∧
      a.infra plan ∈ agents (run (Podman.deploy K) (s.deploy K a) later).containers := by
  have hdeploy := deployWorkloadFromTask_of_accepts a.replies (accepts_of_deploy_ok hok) s
  rw [hdeploy] at hok
  obtain ⟨plan, hplan, hpod, hfree, hsteps⟩ := (deployFromManifest_eq_ok_iff a.replies).mp hok
  have hcontainers : (s.deploy K a).containers =
      s.containers ++ (plan.laterSteps a.replies a.task).filterMap Step.container? := by
    rw [Podman.deploy, hdeploy, (deployFromManifest_takes a.replies hplan hpod hfree).1,
      runUntil_of_forall hsteps, run_apply_containers]
    rfl
  have hmade : a.infra plan ∈ (s.deploy K a).containers := by
    rw [hcontainers]
    refine List.mem_append_right _ (List.mem_filterMap.mpr
      ⟨⟨.createInfra, .container (a.infra plan)⟩, List.mem_append_right _ ?_, rfl⟩)
    simp [PodPlan.infraSteps, Attempt.infra]
  exact ⟨plan, hplan, List.mem_filter.mpr ⟨(prefix_containers_run later).subset hmade, rfl⟩⟩

end

/-! ## The workload of one container -/

def webAttempt : Attempt := ⟨failingAt fun _ => false, webDeployment⟩

theorem webAttempt_plain : webAttempt.Plain webDecoder := by
  intro plan hplan
  obtain rfl : _ = plan := Except.ok.inj (podPlan_web.symm.trans hplan)
  decide

theorem agents_run_web :
    let s := run (Podman.deploy webDecoder) {} [webAttempt]
    ((agents s.containers).map fun c => c.spec.name).Nodup ∧
      ∀ c ∈ agents s.containers, ∃ a ∈ [webAttempt], ∃ plan,
        podPlan webDecoder a.task = .ok plan ∧ c = a.infra plan ∧
          s.pods.lookup plan.podName = some (plan.pod a.replies a.task) ∧
            s.read c "/etc/beemesh/manifest.yaml" = some a.task.manifest :=
  agents_run webDecoder fun _ ha => List.mem_singleton.mp ha ▸ webAttempt_plain

end Beemesh.Workplane
