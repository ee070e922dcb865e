import Beemesh.Workplane.Bootstrap
import Beemesh.Workplane.Infra

/-!
# The agent of a workload

The process in an infra container takes what it needs from its command line or, for what is not given
there, from its environment, and gives up when something is missing. Its environment is that of the
image, and what the deployment of its pod puts there. Of the variables that the deployment sets, the
agent looks at one.

An agent that starts posts clone tasks for the replicas that it misses. Where it runs itself, none of
them is deployed.

## Main definitions

* `Flags`, `Flags.settings`: the command line of an agent, and what it runs with
* `newWorkload`, `agentMain`: the start of an agent
* `Container.getenv`, `Podman.host`: the environment and the files of a container
* `Agent.selfHealer`: what the agent heals its workload with

## Main results

* `settings_infra`: what a deployment adds to the settings of its image
* `agent_stops_iff`: when the agent of a deployment gives up
* `agent_starts`: what the agent of a deployment starts with
* `clone_not_deployed`: the clone tasks of an agent on its own machine
-/

namespace Beemesh.Workplane

open Run

/-! ## The process -/

/-- The flags that are given on a command line. -/
structure Flags where
  namespaceName : Option String := none
  workloadID : Option String := none
  podID : Option String := none
  replicas : Option ℤ := none
  manifest : Option String := none
  apiURL : Option String := none
  keyB64 : Option String := none
  bootstrap : Option String := none

/-- What the flags have for their values. -/
structure Settings where
  namespaceName : String
  workloadID : String
  podID : String
  replicas : ℤ
  manifest : String
  apiURL : String
  keyB64 : String
  bootstrap : String

/-- A flag that is not given has its default, which most of them have from the environment. -/
def Flags.settings (flags : Flags) (getenv : String → String) : Settings where
  namespaceName := flags.namespaceName.getD (getenv "BEE_NAMESPACE")
  workloadID := flags.workloadID.getD (getenv "BEE_WORKLOAD_NAME")
  podID := flags.podID.getD (getenv "BEE_POD_NAME")
  replicas := flags.replicas.getD 1
  manifest := flags.manifest.getD (getenv "BEE_MANIFEST_PATH")
  apiURL := flags.apiURL.getD (getenv "BEE_MACHINE_API")
  keyB64 := flags.keyB64.getD (getenv "BEE_PRIVATE_KEY_B64")
  bootstrap := flags.bootstrap.getD (getenv "BEE_BOOTSTRAP_PEERS")

/-- `Config`, with what the network does not read of it. -/
structure AgentConfig extends Config where
  podName : String
  replicas : ℤ
  beemeshAPI : String

/-- `Defaults`. -/
def AgentConfig.defaults (cfg : AgentConfig) : AgentConfig :=
  { cfg with
    namespaceName := if cfg.namespaceName = "" then "default" else cfg.namespaceName
    replicas := if cfg.replicas ≤ 0 then 1 else cfg.replicas
    beemeshAPI := if cfg.beemeshAPI = "" then "http://localhost:8080" else cfg.beemeshAPI }

/-- What the agent needs of its machine. -/
structure AgentHost (Host DHT : Type) where
  /-- `base64.StdEncoding.DecodeString`. -/
  decodeString : String → Except String (List UInt8)
  readFile : String → Except String String
  /-- The field `kind` of a manifest, which may be empty. -/
  manifestKind : String → Except String String
  registerSelf : Network Host DHT → Except String Unit
  newRaftManager : Network Host DHT → AgentConfig → Except String Unit

/-- `Workload`, which heals itself with its configuration and its manifest. -/
structure Agent (Host DHT : Type) where
  cfg : AgentConfig
  network : Network Host DHT
  isStateful : Bool
  manifest : String

section

variable {PrivateKey Host AddrInfo DHT : Type} (L : Libp2p PrivateKey Host AddrInfo DHT)
  (A : AgentHost Host DHT)

/-- `NewWorkload`. -/
def newWorkload (cfg : AgentConfig) (manifest : String) (isStateful : Bool) :
    Except String (Agent Host DHT) :=
  if cfg.privateKey = [] then .error "config: PrivateKey is required"
  else if cfg.workloadName = "" ∨ cfg.podName = "" then
    .error "config: WorkloadName and PodName are required"
  else
    let cfg := cfg.defaults
    match newNetwork L cfg.toConfig with
    | .error e => .error e
    | .ok net =>
      match A.registerSelf net with
      | .error e => .error s!"register: {e}"
      | .ok () =>
        match if isStateful then A.newRaftManager net cfg else .ok () with
        | .error e => .error e
        | .ok () => .ok ⟨cfg, net, isStateful, manifest⟩

/-- The check of `main` fails. -/
def missingConfiguration : String :=
  "Missing required configuration. " ++
    "Ensure namespace, workload, pod, manifest, and privkey are set."

/-- `main`, up to where the workload is started. -/
def agentMain (flags : Flags) (getenv : String → String) : Except String (Agent Host DHT) :=
  let o := flags.settings getenv
  if o.namespaceName = "" ∨ o.workloadID = "" ∨ o.podID = "" ∨ o.manifest = "" ∨ o.keyB64 = "" then
    .error missingConfiguration
  else
    match A.decodeString o.keyB64 with
    | .error e => .error s!"failed to decode private key: {e}"
    | .ok privKeyBytes =>
      match A.readFile o.manifest with
      | .error e => .error s!"failed to read manifest file: {e}"
      | .ok manifestBytes =>
        match A.manifestKind manifestBytes with
        | .error e => .error s!"failed to parse manifest: {e}"
        | .ok kind =>
          let cfg : AgentConfig :=
            { privateKey := privKeyBytes
              namespaceName := o.namespaceName
              workloadName := o.workloadID
              bootstrapPeerStrings := splitCommaList getenv o.bootstrap
              podName := o.podID
              replicas := o.replicas
              beemeshAPI := o.apiURL }
          match newWorkload L A cfg manifestBytes (kind = "StatefulSet") with
          | .error e => .error s!"failed to initialize workload: {e}"
          | .ok w => .ok w

/-- The message of the check is no other. -/
theorem failed_ne_missing {front : String} (hfront : front.toList.head? = some 'f') (e : String) :
    front ++ e ≠ missingConfiguration := by
  intro h
  have hhead := congrArg (fun m => m.toList.head?) h
  simp only [String.toList_append, List.head?_append, hfront, Option.some_or] at hhead
  exact absurd hhead (by decide)

theorem agentMain_eq_missing_iff {flags : Flags} {getenv : String → String} :
    agentMain L A flags getenv = .error missingConfiguration ↔
      let o := flags.settings getenv
      o.namespaceName = "" ∨ o.workloadID = "" ∨ o.podID = "" ∨ o.manifest = "" ∨ o.keyB64 = "" := by
  rw [agentMain]
  split_ifs with hmissing
  · exact iff_of_true rfl hmissing
  · refine iff_of_false (fun h => ?_) hmissing
    -- Whatever else fails has a message of its own.
    cases hkey : A.decodeString (flags.settings getenv).keyB64 with
    | error e =>
      rw [hkey] at h
      exact failed_ne_missing rfl e (Except.error.inj h)
    | ok privKeyBytes =>
      simp only [hkey] at h
      cases hread : A.readFile (flags.settings getenv).manifest with
      | error e =>
        rw [hread] at h
        exact failed_ne_missing rfl e (Except.error.inj h)
      | ok manifestBytes =>
        simp only [hread] at h
        cases hkind : A.manifestKind manifestBytes with
        | error e =>
          rw [hkind] at h
          exact failed_ne_missing rfl e (Except.error.inj h)
        | ok kind =>
          simp only [hkind] at h
          split at h
          · exact failed_ne_missing rfl _ (Except.error.inj h)
          · cases h

/-- What a workload is made of. -/
theorem newWorkload_eq_ok {cfg : AgentConfig} {manifest : String} {isStateful : Bool}
    {w : Agent Host DHT} (h : newWorkload L A cfg manifest isStateful = .ok w) :
    w.cfg = cfg.defaults ∧ w.manifest = manifest ∧ w.isStateful = isStateful ∧
      newNetwork L cfg.defaults.toConfig = .ok w.network := by
  rw [newWorkload] at h
  by_cases hkey : cfg.privateKey = []
  · rw [if_pos hkey] at h
    cases h
  · rw [if_neg hkey] at h
    by_cases hnames : cfg.workloadName = "" ∨ cfg.podName = ""
    · rw [if_pos hnames] at h
      cases h
    · rw [if_neg hnames] at h
      cases hnet : newNetwork L cfg.defaults.toConfig with
      | error e =>
        simp only [hnet] at h
        cases h
      | ok net =>
        simp only [hnet] at h
        split at h
        · cases h
        · split at h
          · cases h
          · cases h
            exact ⟨rfl, rfl, rfl, rfl⟩

/-- What an agent starts with. -/
theorem agentMain_eq_ok {flags : Flags} {getenv : String → String} {w : Agent Host DHT}
    (h : agentMain L A flags getenv = .ok w) :
    let o := flags.settings getenv
    A.readFile o.manifest = .ok w.manifest ∧ w.cfg.workloadName = o.workloadID ∧
      w.cfg.replicas = (if o.replicas ≤ 0 then 1 else o.replicas) ∧
        w.cfg.bootstrapPeerStrings = splitCommaList getenv o.bootstrap ∧
          newNetwork L w.cfg.toConfig = .ok w.network := by
  rw [agentMain] at h
  simp only at h
  split_ifs at h with hmissing
  cases hkey : A.decodeString (flags.settings getenv).keyB64 with
  | error e =>
    rw [hkey] at h
    cases h
  | ok privKeyBytes =>
    simp only [hkey] at h
    cases hread : A.readFile (flags.settings getenv).manifest with
    | error e =>
      rw [hread] at h
      cases h
    | ok manifestBytes =>
      simp only [hread] at h
      cases hkind : A.manifestKind manifestBytes with
      | error e =>
        rw [hkind] at h
        cases h
      | ok kind =>
        simp only [hkind] at h
        split at h
        · cases h
        · next w' hw =>
          obtain rfl : w' = w := Except.ok.inj h
          obtain ⟨hcfg, hmanifest, -, hnet⟩ := newWorkload_eq_ok L A hw
          rw [hcfg]
          exact ⟨hmanifest ▸ hread, rfl, rfl, rfl, hnet⟩

end

/-! ## The process in its container -/

/-- What a container has for a variable. A deployment comes before the image. -/
def Container.getenv (c : Container) (image : String → String) (name : String) : String :=
  (c.spec.env.lookup name).getD (image name)

/-- The process sees what is mounted into its container. -/
def Podman.host {Host DHT : Type} (s : Podman) (c : Container) (A : AgentHost Host DHT) :
    AgentHost Host DHT :=
  { A with
    readFile := fun path =>
      match s.read c path with
      | some text => .ok text
      | none => A.readFile path }

theorem PodPlan.lookup_envOf_of_notMem {vars : List (String × String)} {name : String}
    (h : name ∉ vars.map Prod.fst) : (PodPlan.envOf vars).lookup name = none := by
  induction vars using List.reverseRecOn with
  | nil => rfl
  | append_singleton vars v ih =>
    rw [List.map_append, List.mem_append, not_or, List.map_singleton, List.mem_singleton] at h
    rw [PodPlan.envOf, List.foldl_append, List.foldl_cons, List.foldl_nil,
      AList.lookup_insert_ne h.2]
    exact ih h.1

section

variable (a : Attempt) (plan : PodPlan)

theorem getenv_infra {name : String} (image : String → String)
    (h : name ∉ ["BEE_WORKLOAD_PEER_ID", "BEE_WORKLOAD_PRIVATE_KEY", "BEE_WORKLOAD_NAMESPACE",
      "BEE_WORKLOAD_NAME", "BEE_WORKLOAD_POD_NAME", "BEE_WORKLOAD_REPLICAS",
      "BEEMESH_BOOTSTRAP_PEERS"]) : (a.infra plan).getenv image name = image name := by
  have hnone : (a.infra plan).spec.env.lookup name = none := PodPlan.lookup_envOf_of_notMem h
  rw [Container.getenv, hnone, Option.getD_none]

theorem getenv_infra_name (image : String → String) :
    (a.infra plan).getenv image "BEE_WORKLOAD_NAME" = plan.name := by
  have hname : (a.infra plan).spec.env.lookup "BEE_WORKLOAD_NAME" = some plan.name := by
    simp [Attempt.infra, PodPlan.infraSpec, PodPlan.envOf, AList.lookup_insert_ne]
  rw [Container.getenv, hname, Option.getD_some]

/-- **What a deployment adds to the settings of its image**: the name of the workload. -/
theorem settings_infra (flags : Flags) (image : String → String) :
    flags.settings ((a.infra plan).getenv image) =
      { flags.settings image with workloadID := flags.workloadID.getD plan.name } := by
  have hothers (name : String) (h : name ∈ ["BEE_NAMESPACE", "BEE_POD_NAME", "BEE_MANIFEST_PATH",
      "BEE_MACHINE_API", "BEE_PRIVATE_KEY_B64", "BEE_BOOTSTRAP_PEERS"]) :
      (a.infra plan).getenv image name = image name := by
    refine getenv_infra a plan image ?_
    revert name
    decide
  rw [Flags.settings, Flags.settings, getenv_infra_name, hothers _ (by decide),
    hothers _ (by decide), hothers _ (by decide), hothers _ (by decide), hothers _ (by decide),
    hothers _ (by decide)]

end

/-- A workload without a name gets one. -/
theorem podPlan_name_ne {K : ManifestDecoder} {task : Task} {plan : PodPlan}
    (h : podPlan K task = .ok plan) : plan.name ≠ "" := by
  rw [podPlan] at h
  split at h
  · cases h
  all_goals
    cases h
  all_goals
    simp only
    split_ifs with hname
  all_goals
    first
      | exact hname
      | decide

section

variable {PrivateKey Host AddrInfo DHT : Type} (L : Libp2p PrivateKey Host AddrInfo DHT)
  (A : AgentHost Host DHT) {K : ManifestDecoder} {attempts : List Attempt} {c : Container}

/-- **When the agent of a deployment gives up** for want of configuration, whatever was deployed
before and after it: when one of four settings comes neither from its command line nor from its
image, or its command line takes the name of the workload away. -/
theorem agent_stops_iff (hc : c ∈ agents (run (Podman.deploy K) {} attempts).containers)
    (flags : Flags) (image : String → String) :
    agentMain L A flags (c.getenv image) = .error missingConfiguration ↔
      let o := flags.settings image
      flags.workloadID = some "" ∨ o.namespaceName = "" ∨ o.podID = "" ∨ o.manifest = "" ∨
        o.keyB64 = "" := by
  have hs : (run (Podman.deploy K) {} attempts).Kept K fun _ => True :=
    Podman.kept_start.run fun _ _ => trivial
  obtain ⟨a, plan, hagent⟩ := hs.agent c hc
  have hname : flags.workloadID.getD plan.name = "" ↔ flags.workloadID = some "" := by
    cases flags.workloadID with
    | none => exact iff_of_false (podPlan_name_ne hagent.planned) (by simp)
    | some name => simp
  rw [agentMain_eq_missing_iff, hagent.eq, settings_infra]
  simp only [hname]
  tauto

/-- The agent of a deployment reads the manifest of its own task. -/
theorem exists_attempt_of_agentMain (hplain : ∀ a ∈ attempts, a.Plain K)
    (hc : c ∈ agents (run (Podman.deploy K) {} attempts).containers) {flags : Flags}
    {image : String → String}
    (hmanifest : (flags.settings image).manifest = "/etc/beemesh/manifest.yaml")
    {w : Agent Host DHT}
    (hw : agentMain L ((run (Podman.deploy K) {} attempts).host c A) flags (c.getenv image) =
      .ok w) :
    ∃ a ∈ attempts, ∃ plan, podPlan K a.task = .ok plan ∧ c = a.infra plan ∧
      plan.podName ∈ (run (Podman.deploy K) {} attempts).pods ∧ w.manifest = a.task.manifest := by
  obtain ⟨a, ha, plan, hplan, hca, hpod, hread⟩ := exists_attempt_of_mem_agents hplain hc
  obtain ⟨hfile, -⟩ := agentMain_eq_ok L _ hw
  have hpath : (flags.settings (c.getenv image)).manifest = "/etc/beemesh/manifest.yaml" := by
    rw [hca, settings_infra]
    exact hmanifest
  rw [hpath, Podman.host] at hfile
  simp only [hread] at hfile
  exact ⟨a, ha, plan, hplan, hca, AList.lookup_isSome.mp (hpod ▸ rfl),
    (Except.ok.inj hfile).symm⟩

/-- **What the agent of a deployment starts with**: the manifest of its own task and the name of its
workload, but as many replicas as its command line says, whatever the task wants, and no peer to find
the others by. -/
theorem agent_starts (hlong : ∀ raw ai, L.addrInfoFromString raw = some ai → 1 < raw.length)
    (hplain : ∀ a ∈ attempts, a.Plain K)
    (hc : c ∈ agents (run (Podman.deploy K) {} attempts).containers) {flags : Flags}
    {image : String → String}
    (hmanifest : (flags.settings image).manifest = "/etc/beemesh/manifest.yaml")
    {w : Agent Host DHT}
    (hw : agentMain L ((run (Podman.deploy K) {} attempts).host c A) flags (c.getenv image) =
      .ok w) :
    ∃ a ∈ attempts, ∃ plan, podPlan K a.task = .ok plan ∧ c = a.infra plan ∧
      w.manifest = a.task.manifest ∧ w.cfg.workloadName = flags.workloadID.getD plan.name ∧
        w.cfg.replicas = max 1 (flags.replicas.getD 1) ∧
          L.newDHT w.network.host [] = .ok w.network.dht := by
  obtain ⟨a, ha, plan, hplan, hca, -, htext⟩ :=
    exists_attempt_of_agentMain L A hplain hc hmanifest hw
  obtain ⟨-, hname, hreplicas, hpeers, hnet⟩ := agentMain_eq_ok L _ hw
  rw [hca, settings_infra] at hname hreplicas
  have hcount : (flags.settings image).replicas = flags.replicas.getD 1 := rfl
  refine ⟨a, ha, plan, hplan, hca, htext, hname, ?_, newDHT_of_newNetwork L hlong hpeers hnet⟩
  rw [hreplicas, hcount]
  split_ifs <;> omega

end

/-! ## Clones at home -/

/-- The self-healer of an agent. -/
def Agent.selfHealer {Host DHT : Type} (w : Agent Host DHT) : SelfHealer :=
  ⟨w.cfg.replicas.toNat, w.cfg.namespaceName, w.manifest⟩

/-- A clone task is about the manifest and the namespace of its healer. -/
theorem of_mem_checkAndHeal {Y : ManifestReader} {healer : SelfHealer}
    {found : Except String (List String)} {uuid : ℕ → String} {posts : ℕ → Post} {task : Task}
    (h : task ∈ checkAndHeal Y healer found uuid posts) :
    task.manifest = healer.manifest ∧ task.namespaceName = healer.namespaceName := by
  cases found with
  | error e => exact absurd h List.not_mem_nil
  | ok providers =>
    rw [checkAndHeal] at h
    split_ifs at h with henough
    · exact absurd h List.not_mem_nil
    · obtain ⟨i, -, hi⟩ := List.mem_filterMap.mp h
      rw [publishCloneTask] at hi
      split at hi
      · cases hi
      · simp only [Option.ite_none_right_eq_some] at hi
        obtain ⟨-, hi⟩ := hi
        cases hi
        exact ⟨rfl, rfl⟩

/-- A namespace that was chosen is chosen again. -/
theorem namespace_idem (own asked : String) :
    let chosen := if own = "" then if asked = "" then "default" else asked else own
    (if own = "" then if chosen = "" then "default" else chosen else own) = chosen := by
  intro chosen
  by_cases hown : own = ""
  · by_cases hasked : asked = ""
    · simp [chosen, hown, hasked]
    · simp [chosen, hown, hasked]
  · simp [chosen, hown]

/-- A task with the same manifest, for the namespace that the deployment took, is planned alike. -/
theorem podPlan_clone {K : ManifestDecoder} {task clone : Task} {plan : PodPlan}
    (hplan : podPlan K task = .ok plan) (hmanifest : clone.manifest = task.manifest)
    (hnamespace : clone.namespaceName = plan.namespaceName) : podPlan K clone = .ok plan := by
  rw [podPlan] at hplan ⊢
  rw [hmanifest, hnamespace]
  cases hdecode : K.decode task.manifest with
  | error e =>
    rw [hdecode] at hplan
    cases hplan
  | ok decoded =>
    obtain ⟨object, kind⟩ := decoded
    rw [hdecode] at hplan
    cases object with
    | other => cases hplan
    | deployment o =>
      cases hplan
      simp only [namespace_idem]
    | statefulSet o =>
      cases hplan
      simp only [namespace_idem]

section

variable {PrivateKey Host AddrInfo DHT : Type} (L : Libp2p PrivateKey Host AddrInfo DHT)
  (A : AgentHost Host DHT) {K : ManifestDecoder} {attempts : List Attempt} {c : Container}

/-- **Clones at home**: where the agent of a workload runs, in the namespace of its deployment, no
clone task of its own is deployed, whoever asks for it. The pod of the workload stands in the way. -/
theorem clone_not_deployed (hplain : ∀ a ∈ attempts, a.Plain K)
    (hc : c ∈ agents (run (Podman.deploy K) {} attempts).containers) {flags : Flags}
    {image : String → String}
    (hmanifest : (flags.settings image).manifest = "/etc/beemesh/manifest.yaml")
    {w : Agent Host DHT}
    (hw : agentMain L ((run (Podman.deploy K) {} attempts).host c A) flags (c.getenv image) =
      .ok w)
    (hnamespace : c.spec.env.lookup "BEE_WORKLOAD_NAMESPACE" = some w.cfg.namespaceName)
    (Y : ManifestReader) (found : Except String (List String)) (uuid : ℕ → String)
    (posts : ℕ → Post) :
    let s := run (Podman.deploy K) {} attempts
    ∀ clone ∈ checkAndHeal Y w.selfHealer found uuid posts, ∀ h : HostReplies,
      s.deploy K ⟨h, clone⟩ = s := by
  intro s clone hclone h
  obtain ⟨a, -, plan, hplan, hca, htaken, htext⟩ :=
    exists_attempt_of_agentMain L A hplain hc hmanifest hw
  obtain ⟨hsource, howner⟩ := of_mem_checkAndHeal hclone
  have henv : c.spec.env.lookup "BEE_WORKLOAD_NAMESPACE" = some plan.namespaceName := by
    rw [hca]
    simp [Attempt.infra, PodPlan.infraSpec, PodPlan.envOf, AList.lookup_insert_ne]
  have hsame : clone.namespaceName = plan.namespaceName :=
    howner.trans (Option.some.inj (hnamespace.symm.trans henv))
  have hplanned : podPlan K clone = .ok plan := podPlan_clone hplan (hsource.trans htext) hsame
  rcases deploy_cases K s ⟨h, clone⟩ with hleft | ⟨plan', done, hplan', hfree, -, -⟩
  · exact hleft
  · obtain rfl : plan = plan' := Except.ok.inj (hplanned.symm.trans hplan')
    exact absurd htaken hfree

end

/-! ## The agent of a workload of one container -/

/-- Whatever is read is taken, and whatever is asked for works. -/
def plainHost : AgentHost Unit (List String) where
  decodeString _ := .ok [1]
  readFile path := .error ("open " ++ path ++ ": no such file or directory")
  manifestKind _ := .ok "Deployment"
  registerSelf _ := .ok ()
  newRaftManager _ _ := .ok ()

/-- A command line that says what the deployment does not say. -/
def webFlags : Flags where
  namespaceName := some "default"
  podID := some "default-web"
  manifest := some "/etc/beemesh/manifest.yaml"
  keyB64 := some "CAESQ"

/-- The agent that this command line starts. -/
def webAgent : Agent Unit (List String) where
  cfg :=
    { privateKey := [1]
      namespaceName := "default"
      workloadName := "web"
      bootstrapPeerStrings := []
      podName := "default-web"
      replicas := 1
      beemeshAPI := "http://localhost:8080" }
  network := ⟨(), [], "default", "web"⟩
  isStateful := false
  manifest := webJSON

/-- The deployment succeeds, so that there is an agent. -/
theorem infra_mem_web : ∃ plan, podPlan webDecoder webDeployment = .ok plan ∧
    webAttempt.infra plan ∈ agents (run (Podman.deploy webDecoder) {} [webAttempt]).containers := by
  have hkind : getManifestKind webDecoder webDeployment.manifest = .ok "Deployment" := by
    have hjson : webDecoder.jsonKind webDeployment.manifest = .ok (some "Deployment") := by
      change (if webJSON = webJSON then _ else .error "not read") = _
      exact if_pos rfl
    rw [getManifestKind, hjson]
  have haccepts : Accepts webDecoder webDeployment := ⟨by decide, .inl hkind⟩
  have hok : (deployWorkloadFromTask webAttempt.replies webDecoder webAttempt.task {}).1 =
      .ok () := by
    rw [webAttempt, deployWorkloadFromTask_of_accepts _ haccepts, deployFromManifest_eq_ok_iff]
    exact ⟨_, podPlan_web, rfl, AList.notMem_empty _, fun step _ => rfl⟩
  exact infra_mem_of_ok hok []

/-- With nothing from its command line and its image, the agent of the deployment gives up. -/
theorem agent_stops_web :
    ∃ c ∈ agents (run (Podman.deploy webDecoder) {} [webAttempt]).containers,
      agentMain oneAddress plainHost {} (c.getenv fun _ => "") = .error missingConfiguration := by
  obtain ⟨plan, -, hc⟩ := infra_mem_web
  exact ⟨_, hc, (agent_stops_iff oneAddress plainHost hc {} fun _ => "").mpr (.inr (.inl rfl))⟩

theorem webAttempt_asked_plain : ∀ a ∈ [webAttempt], a.Plain webDecoder := fun _ ha =>
  List.mem_singleton.mp ha ▸ webAttempt_plain

theorem agentMain_web :
    let s := run (Podman.deploy webDecoder) {} [webAttempt]
    ∃ c ∈ agents s.containers,
      agentMain oneAddress (s.host c plainHost) webFlags (c.getenv fun _ => "") = .ok webAgent ∧
        c.spec.env.lookup "BEE_WORKLOAD_NAMESPACE" = some "default" := by
  intro s
  obtain ⟨plan, hplan, hc⟩ := infra_mem_web
  obtain ⟨a, ha, plan', -, -, -, hread⟩ := exists_attempt_of_mem_agents webAttempt_asked_plain hc
  obtain rfl := List.mem_singleton.mp ha
  have hfile : (s.host (webAttempt.infra plan) plainHost).readFile "/etc/beemesh/manifest.yaml" =
      .ok webJSON := by
    rw [Podman.host]
    simp only [s, hread]
    rfl
  obtain rfl := Except.ok.inj (hplan.symm.trans podPlan_web)
  refine ⟨_, hc, ?_, rfl⟩
  rw [agentMain, settings_infra]
  simp only [webFlags, Flags.settings, Option.getD_some, hfile]
  rfl

theorem agent_starts_web :
    let s := run (Podman.deploy webDecoder) {} [webAttempt]
    ∃ c ∈ agents s.containers,
      agentMain oneAddress (s.host c plainHost) webFlags (c.getenv fun _ => "") = .ok webAgent ∧
        ∃ a ∈ [webAttempt], ∃ plan, podPlan webDecoder a.task = .ok plan ∧ c = a.infra plan ∧
          webAgent.manifest = a.task.manifest ∧
            webAgent.cfg.workloadName = webFlags.workloadID.getD plan.name ∧
              webAgent.cfg.replicas = max 1 (webFlags.replicas.getD 1) ∧
                oneAddress.newDHT webAgent.network.host [] = .ok webAgent.network.dht := by
  intro s
  obtain ⟨c, hc, hw, -⟩ := agentMain_web
  exact ⟨c, hc, hw,
    agent_starts oneAddress plainHost oneAddress_long webAttempt_asked_plain hc rfl hw⟩

/-- Reads every document as this Deployment. -/
def oneReader : ManifestReader where
  kind _ := .ok "Deployment"
  deploymentName _ := .ok "web"
  statefulSetName _ := .error "no stateful set"
  quote s := s

theorem isOk_cloneSource {Y : ManifestReader} {manifest name : String}
    (hkind : Y.kind manifest = .ok "Deployment")
    (hname : parseManifestName Y manifest "StatelessWorkload" = .ok name) :
    (cloneSource Y manifest).isOk = true := by
  rw [cloneSource, hkind]
  simp only [Except.bind, bind, hname]
  rfl

theorem cloneSource_oneReader : (cloneSource oneReader webJSON).isOk = true := by
  have hdash : '-' ∉ webJSON.toList := by decide +kernel
  have hsplit : Text.split webJSON "---" = [webJSON] := by
    have hwhole : ¬ "---".toList <:+: webJSON.toList := fun h =>
      hdash (h.subset List.mem_cons_self)
    rw [Text.split, Text.splitFrom_eq_singleton hwhole, List.nil_append, List.map_singleton,
      String.ofList_toList]
  have hdocs : splitYAMLDocuments webJSON = [webJSON] := by
    rw [splitYAMLDocuments, hsplit]
    decide +kernel
  have hname : parseManifestName oneReader webJSON "StatelessWorkload" = .ok "web" := by
    rw [parseManifestName, if_neg (by decide), hdocs, if_neg (List.cons_ne_nil _ _)]
    rfl
  exact isOk_cloneSource rfl hname

theorem length_checkAndHeal_alone {Y : ManifestReader} {healer : SelfHealer}
    (hone : healer.replicas = 1) (hclone : (cloneSource Y healer.manifest).isOk = true)
    (uuid : ℕ → String) :
    (checkAndHeal Y healer (.ok []) uuid fun _ => ⟨true, .ok 202⟩).length = 1 := by
  have hlt : ([] : List String).length < healer.replicas := hone ▸ Nat.one_pos
  have hlength := length_checkAndHeal hlt hclone uuid fun _ => ⟨true, .ok 202⟩
  rw [hone] at hlength
  exact hlength

/-- The agent finds nobody, and its clone task is published, and not deployed. -/
theorem clone_not_deployed_web :
    let s := run (Podman.deploy webDecoder) {} [webAttempt]
    let clones := checkAndHeal oneReader webAgent.selfHealer (.ok []) (fun _ => "u")
      fun _ => ⟨true, .ok 202⟩
    clones.length = 1 ∧ ∀ clone ∈ clones, ∀ h : HostReplies, s.deploy webDecoder ⟨h, clone⟩ = s := by
  intro s clones
  obtain ⟨c, hc, hw, henv⟩ := agentMain_web
  refine ⟨?_, clone_not_deployed oneAddress plainHost webAttempt_asked_plain hc rfl hw henv
    oneReader (.ok []) (fun _ => "u") fun _ => ⟨true, .ok 202⟩⟩
  have hmanifest : webAgent.selfHealer.manifest = webJSON := rfl
  exact length_checkAndHeal_alone rfl (hmanifest ▸ cloneSource_oneReader) fun _ => "u"

end Beemesh.Workplane
