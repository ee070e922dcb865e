import Beemesh.Engine.Command

/-!
# The Podman engine

`PodmanEngine` deploys a manifest with `podman kube play`, after it has named the pod for the
manifest id: `beemesh-m`, and `beemesh-m-pod` for the pod template of a deployment. From the names
that `podman pod ls` prints it recovers the manifest ids.

## Main definitions

* `PodmanEngine`, `executeCommand`: with its socket, and the way around it
* `namePods`: the names that a manifest is given
* `manifestIdOfPod`: the manifest id that a pod name is read as
* `PodmanEngine.engine`: the engine

## Main results

* `givenName_namePods`, `givenName_namePods_template`: the name a manifest then gives to its pod
* `manifestIdOfPod_eq_iff`: the pod names that are read as a manifest id
* `Obeys.deployed_lists_iff`: when a deployed workload is found again
* `Obeys.lists_of_template`, `Obeys.lists_iff_of_pod`: the same for deployments and for plain pods
-/

namespace Beemesh

variable {T : Type}

/-- `PodmanEngine`. The binary is the tool that a command is given to. -/
structure PodmanEngine where
  podmanSocket : Option String
  forceRemote : Bool

namespace PodmanEngine

variable (e : PodmanEngine) (serde : Serde) (cli : Cli T)

/-! ## Commands -/

def isSocketConnectionError (stderr : String) : Bool :=
  let lower := Text.toAsciiLowercase stderr
  Text.contains lower "dial unix" || Text.contains lower "connect:" ||
    Text.contains lower "connection refused" || Text.contains lower "no such file or directory"

def executeCommandWithSocket (t : T) (args : List Arg) (socket : String) :
    Except RuntimeError String × T :=
  cli.execute t (words ["--remote", "--url", socket] ++ args)

/-- A command without the socket, unless that is ruled out. -/
def executeFallback (t : T) (args : List Arg) : Except RuntimeError String × T :=
  if e.forceRemote then
    (.error (.commandFailed "Podman socket command failed and fallback disabled"), t)
  else cli.execute t args

def executeCommand (t : T) (args : List Arg) : Except RuntimeError String × T :=
  match e.podmanSocket with
  | none => e.executeFallback cli t args
  | some socket =>
    match executeCommandWithSocket cli t args socket with
    | (.ok output, t) => (.ok output, t)
    | (.error err, t) =>
      if e.forceRemote then (.error err, t)
      else match err with
        | .commandFailed stderr =>
          if isSocketConnectionError stderr then e.executeFallback cli t args else (.error err, t)
        | _ => (.error err, t)

def isAvailable (t : T) : Bool :=
  match e.podmanSocket with
  | some socket => (executeCommandWithSocket cli t (words ["--version"]) socket).1.isOk
  | none => if e.forceRemote then false else (cli.execute t (words ["--version"])).1.isOk

/-! ## Manifests -/

def parseManifestMetadata (content : Bytes) : Table String String :=
  match serde.fromYaml (Text.fromUtf8Lossy content) with
  | .error _ => ∅
  | .ok doc =>
    let sub := doc.get "metadata"
    note "kind" (doc.getStr "kind") ∅ |> note "apiVersion" (doc.getStr "apiVersion")
      |> note "name" (sub.bind (Yaml.getStr "name"))
      |> note "namespace" (sub.bind (Yaml.getStr "namespace"))

def validateManifest (content : Bytes) : Except RuntimeError Unit :=
  match serde.fromYaml (Text.fromUtf8Lossy content) with
  | .ok doc =>
    if (doc.get "apiVersion").isNone then .error (.invalidManifest "Missing apiVersion field")
    else if (doc.get "kind").isNone then .error (.invalidManifest "Missing kind field")
    else .ok ()
  | .error err => .error (.invalidManifest ("YAML parse error: " ++ err))

def generateWorkloadId (manifestId : String) (_content : Bytes) : String := "beemesh-" ++ manifestId

/-- The names that `create_temp_manifest_file` gives: one to the manifest, and one to the pod
template of a deployment. -/
def namePods (manifestId : String) (doc : Yaml) : Yaml :=
  let podName := "beemesh-" ++ manifestId
  (doc.getMut "metadata" (Yaml.insert "name" (.string podName))).getMut "spec" fun spec =>
    spec.getMut "template" fun template =>
      template.getMut "metadata" (Yaml.insert "name" (.string (podName ++ "-pod")))

/-- `create_temp_manifest_file`: the text of the file. -/
def createTempManifestFile (content : Bytes) (manifestId : String) : Except RuntimeError String :=
  match serde.fromYaml (Text.fromUtf8Lossy content) with
  | .error err => .error (.invalidManifest ("YAML parse error: " ++ err))
  | .ok doc =>
    match serde.toYaml (namePods manifestId doc) with
    | .error err => .error (.invalidManifest ("YAML serialize error: " ++ err))
    | .ok text => .ok text

/-! ## Workloads -/

/-- `extract_port_mappings`: it reads no port out of what podman prints, so only its commands count.
-/
def extractPortMappings (t : T) (podName : String) : T :=
  match e.executeCommand cli t
      (words ["pod", "inspect", podName ++ "-pod", "--format", "json"]) with
  | (.ok _, t) => t
  | (.error _, t) =>
    (e.executeCommand cli t (words ["pod", "inspect", podName, "--format", "json"])).2

/-- The options of `kube play` for a configuration. -/
def kubePlayOptions (config : DeploymentConfig) : List String :=
  (if config.replicas.toNat > 1 then ["--replicas", toString config.replicas.toNat] else []) ++
  (match config.memory with
    | some memory => ["--memory", toString memory.toNat ++ "b"]
    | none => []) ++
  (match config.cpu with
    | some cpu => ["--cpus", cpu]
    | none => []) ++
  config.runtimeOptions.entries.flatMap fun option =>
    if option.1 = "network" then ["--network", option.2]
    else if option.1 = "volume" then ["--volume", option.2]
    else if option.1 = "security-opt" then ["--security-opt", option.2]
    else []

/-- The command that plays a manifest. -/
def kubePlay (config : DeploymentConfig) (text : String) : List Arg :=
  words (["kube", "play", "--replace"] ++ kubePlayOptions config) ++
    [.file text.toUTF8.data.toList]

def deployWorkload (t : T) (manifestId : String) (content : Bytes) (config : DeploymentConfig) :
    Except RuntimeError WorkloadInfo × T :=
  match validateManifest serde content with
  | .error err => (.error err, t)
  | .ok () =>
    match createTempManifestFile serde content manifestId with
    | .error err => (.error err, t)
    | .ok text =>
      match e.executeCommand cli t (kubePlay config text) with
      | (.error err, t) =>
        (.error (.deploymentFailed ("Podman deployment failed: " ++ err.display)), t)
      | (.ok _, t) =>
        (.ok ⟨generateWorkloadId manifestId content, manifestId,
          parseManifestMetadata serde content⟩,
          e.extractPortMappings cli t ("beemesh-" ++ manifestId))

/-- The command that lists the pods. -/
def podLs : List Arg := words ["pod", "ls", "--format", "json"]

/-- The manifest id that `list_workloads` reads out of a pod name. -/
def manifestIdOfPod (podName : String) : String :=
  if Text.endsWith podName "-pod" then
    (Text.stripSuffix ((Text.stripPrefix podName "beemesh-").getD podName) "-pod").getD podName
  else (Text.stripPrefix podName "beemesh-").getD podName

/-- The labels of a pod that are texts. -/
def podLabels (pod : Json) : Table String String :=
  ((pod.get "Labels").bind Json.asObject).getD [] |>.foldl (fun metadata label =>
    match label.2.asStr with
    | some value => metadata.insert label.1 value
    | none => metadata) ∅

/-- The workload of a pod, if it has a name of the engine. -/
def workloadOfPod (pod : Json) : Option WorkloadInfo :=
  (pod.getStr "Name").bind fun podName =>
    if Text.startsWith podName "beemesh-" then
      let manifestId := manifestIdOfPod podName
      some ⟨"beemesh-" ++ manifestId, manifestId, podLabels pod⟩
    else none

/-- The pods in what `pod ls` printed. What is no array of pods counts as none. -/
def podsOf (output : String) : List Json :=
  if Text.trim output = "" then []
  else match serde.fromJson output with
    | .ok json => json.asArray.getD []
    | .error _ => []

def listWorkloads (t : T) : Except RuntimeError (List WorkloadInfo) :=
  match (e.executeCommand cli t podLs).1 with
  | .error err => .error err
  | .ok output => .ok ((podsOf serde output).filterMap workloadOfPod)

def removeWorkload (t : T) (workloadId : String) : Except RuntimeError Unit × T :=
  match e.executeCommand cli t (words ["pod", "rm", "-f", workloadId ++ "-pod"]) with
  | (.ok _, t) => (.ok (), t)
  | (.error _, t) =>
    match e.executeCommand cli t (words ["pod", "rm", "-f", workloadId]) with
    | (.ok _, t) => (.ok (), t)
    | (.error _, t) =>
      -- Both names failed: every pod whose name has the id in it goes.
      match e.executeCommand cli t
          (words ["pod", "ls", "-q", "--filter", "name=" ++ workloadId]) with
      | (.error err, t) => (.error err, t)
      | (.ok output, t) =>
        (.ok (), (Text.lines output).foldl (fun t line =>
          let podId := Text.trim line
          if podId = "" then t
          else (e.executeCommand cli t (words ["pod", "rm", "-f", podId])).2) t)

/-- `PodmanEngine` as a `RuntimeEngine`. -/
def engine : RuntimeEngine T where
  isAvailable := e.isAvailable cli
  deployWorkload t manifestId content config :=
    displayed (e.deployWorkload serde cli t manifestId content config)
  listWorkloads t := (e.listWorkloads serde cli t).mapError RuntimeError.display
  removeWorkload t workloadId := displayed (e.removeWorkload cli t workloadId)

/-! ## Names -/

/-- The metadata of the pod template of a manifest. -/
def templateMetadata (doc : Yaml) : Option Yaml :=
  ((doc.get "spec").bind (Yaml.get "template")).bind (Yaml.get "metadata")

/-- The name that a manifest gives to its pod: that of its pod template, else its own. -/
def givenName (doc : Yaml) : Option String :=
  (templateMetadata doc).bind (Yaml.getStr "name") <|>
    (doc.get "metadata").bind (Yaml.getStr "name")

theorem templateMetadata_namePods (m : String) (doc : Yaml) :
    templateMetadata (namePods m doc) = (templateMetadata doc).map
      (Yaml.insert "name" (.string ("beemesh-" ++ m ++ "-pod"))) := by
  rw [templateMetadata, templateMetadata, namePods, Yaml.get_getMut, Yaml.get_getMut_ne (by decide)]
  cases doc.get "spec" with
  | none => rfl
  | some spec =>
    simp only [Option.map_some, Option.bind_some, Yaml.get_getMut]
    cases spec.get "template" with
    | none => rfl
    | some template => simp only [Option.map_some, Option.bind_some, Yaml.get_getMut]

/-- A manifest without a pod template gives its pod the name `beemesh-m`. -/
theorem givenName_namePods {m : String} {doc sub : Yaml} {entries : List (Yaml × Yaml)}
    (htemplate : templateMetadata doc = none) (hmetadata : doc.get "metadata" = some sub)
    (hsub : sub.asMapping = some entries) :
    givenName (namePods m doc) = some ("beemesh-" ++ m) := by
  have hget : (namePods m doc).get "metadata" =
      some (Yaml.insert "name" (.string ("beemesh-" ++ m)) sub) := by
    rw [namePods, Yaml.get_getMut_ne (by decide), Yaml.get_getMut, hmetadata, Option.map_some]
  rw [givenName, templateMetadata_namePods, htemplate, hget, Option.bind_some, Yaml.getStr,
    Yaml.get_insert _ _ hsub]
  rfl

/-- A manifest with a pod template gives its pod the name `beemesh-m-pod`. -/
theorem givenName_namePods_template {m : String} {doc sub : Yaml} {entries : List (Yaml × Yaml)}
    (htemplate : templateMetadata doc = some sub) (hsub : sub.asMapping = some entries) :
    givenName (namePods m doc) = some ("beemesh-" ++ m ++ "-pod") := by
  rw [givenName, templateMetadata_namePods, htemplate, Option.map_some, Option.bind_some,
    Yaml.getStr, Yaml.get_insert _ _ hsub]
  rfl

/-- The suffix lies behind the front of a pod name, or begins with its dash. -/
theorem endsWith_pod (r : String) :
    Text.endsWith ("beemesh-" ++ r) "-pod" = true ↔ Text.endsWith r "-pod" = true ∨ r = "pod" := by
  rw [Text.endsWith_iff, Text.endsWith_iff]
  constructor
  · rintro ⟨x, hx⟩
    rcases Text.append_eq_append_iff.mp hx with ⟨t, -, hr⟩ | ⟨t, hfront, hback⟩
    · exact .inl ⟨t, hr⟩
    · -- What of the suffix lies in the front has no letter in it.
      have hback := congrArg String.toList hback
      have hfront := congrArg String.toList hfront
      have hpod : "-pod".toList = ['-', 'p', 'o', 'd'] := by decide
      rw [String.toList_append] at hback hfront
      generalize t.toList = chars at hback hfront
      rw [hpod] at hback
      rcases chars with _ | ⟨c, _ | ⟨d, chars⟩⟩
      · exact .inl ⟨"", String.toList_inj.mp hback.symm⟩
      · obtain ⟨-, hr⟩ := List.cons.inj hback
        exact .inr (String.toList_inj.mp hr.symm)
      · obtain ⟨-, hd⟩ := List.cons.inj hback
        obtain ⟨rfl, -⟩ := List.cons.inj hd
        have hmem : 'p' ∈ "beemesh-".toList := by simp [hfront]
        exact absurd hmem (by decide)
  · rintro (⟨t, rfl⟩ | rfl)
    · exact ⟨"beemesh-" ++ t, by rw [String.append_assoc]⟩
    · exact ⟨"beemesh", by decide⟩

/-- **The pod names that are read as a manifest id**: the two that the engine gives for it, the
first of them unless it ends like the second, and one name that is read as itself. -/
theorem manifestIdOfPod_eq_iff {podName : String} (h : Text.startsWith podName "beemesh-" = true)
    (m : String) :
    manifestIdOfPod podName = m ↔ podName = "beemesh-" ++ m ++ "-pod" ∨
      (podName = "beemesh-" ++ m ∧ m ≠ "pod" ∧ Text.endsWith m "-pod" = false) ∨
      (podName = "beemesh-pod" ∧ m = "beemesh-pod") := by
  obtain ⟨r, rfl⟩ := Text.startsWith_iff.mp h
  rw [manifestIdOfPod, Text.stripPrefix_append, Option.getD_some]
  have hpod (t : String) : "pod" ≠ t ++ "-pod" := by
    intro heq
    have hlength := congrArg (fun s => s.toList.length) heq
    simp [String.toList_append] at hlength
  have hcut : "beemesh-" ++ r = "beemesh-" ++ m ++ "-pod" ↔ r = m ++ "-pod" := by
    rw [String.append_assoc, String.append_right_inj]
  have hself : "beemesh-" ++ r = "beemesh-pod" ↔ r = "pod" :=
    @String.append_right_inj "beemesh-" r "pod"
  rw [hcut, hself, String.append_right_inj]
  by_cases hends : Text.endsWith r "-pod" = true
  · -- A name with both the front and the suffix.
    obtain ⟨t, rfl⟩ := Text.endsWith_iff.mp hends
    rw [if_pos ((endsWith_pod _).mpr (.inl hends)), Text.stripSuffix_append, Option.getD_some,
      String.append_left_inj]
    refine ⟨.inl, ?_⟩
    rintro (ht | ⟨rfl, -, hnot⟩ | ⟨hr, -⟩)
    · exact ht
    · exact nomatch hends.symm.trans hnot
    · exact absurd hr.symm (hpod t)
  · by_cases hr : r = "pod"
    · -- The dash belongs to the front, so nothing is cut and the name is read as itself.
      subst hr
      have hnone : Text.stripSuffix "pod" "-pod" = none := by decide
      rw [if_pos ((endsWith_pod _).mpr (.inr rfl)), hnone, Option.getD_none]
      refine ⟨fun hm => .inr (.inr ⟨rfl, hm.symm⟩), ?_⟩
      rintro (hm | ⟨rfl, hne, -⟩ | ⟨-, hm⟩)
      · exact absurd hm (hpod m)
      · exact absurd rfl hne
      · exact hm.symm
    · have hwhole : ¬ Text.endsWith ("beemesh-" ++ r) "-pod" = true := by
        rw [endsWith_pod]
        exact not_or.mpr ⟨hends, hr⟩
      rw [if_neg hwhole]
      refine ⟨?_, ?_⟩
      · rintro rfl
        exact .inr (.inl ⟨rfl, hr, by simpa using hends⟩)
      · rintro (rfl | ⟨hm, -⟩ | ⟨hpod, -⟩)
        · exact absurd (Text.endsWith_iff.mpr ⟨m, rfl⟩) hends
        · exact hm
        · exact absurd hpod hr

/-- A plain pod is read as its manifest id unless that ends like the name of a template pod. -/
theorem manifestIdOfPod_self (m : String) :
    manifestIdOfPod ("beemesh-" ++ m) = m ↔ m ≠ "pod" ∧ Text.endsWith m "-pod" = false := by
  rw [manifestIdOfPod_eq_iff (Text.startsWith_iff.mpr ⟨m, rfl⟩)]
  constructor
  · rintro (hlonger | ⟨-, hread⟩ | ⟨hpod, rfl⟩)
    · have hlength := congrArg (fun s => s.toList.length) hlonger
      simp [String.toList_append] at hlength
    · exact hread
    · exact absurd hpod (by decide)
  · exact fun hread => .inr (.inl ⟨rfl, hread⟩)

/-! ## Deployed pods -/

/-- What the engine relies on in podman, which has the pods `names t` and makes the pods `podNames
doc` of a manifest: it lists its pods, playing a manifest adds those that it makes of it, and
inspecting one changes nothing. -/
structure Obeys (names : T → List String) (podNames : Yaml → List String) : Prop where
  ls (t : T) : ∃ output, (e.executeCommand cli t podLs).1 = .ok output ∧
    (podsOf serde output).filterMap (Json.getStr "Name") = names t
  play {t t' : T} {config : DeploymentConfig} {doc : Yaml} {text output : String}
    (htext : serde.toYaml doc = .ok text)
    (hplay : e.executeCommand cli t (kubePlay config text) = (.ok output, t')) :
    ∀ podName, podName ∈ names t' ↔ podName ∈ names t ∨ podName ∈ podNames doc
  inspect (t : T) (podName : String) :
    names (e.executeCommand cli t (words ["pod", "inspect", podName, "--format", "json"])).2 =
      names t

/-- The pods that podman makes of a manifest, once it has its names. -/
def podsMade (podNames : Yaml → List String) (m : String) (content : Bytes) : List String :=
  match serde.fromYaml (Text.fromUtf8Lossy content) with
  | .ok doc => podNames (namePods m doc)
  | .error _ => []

theorem podsMade_of_ok {serde : Serde} (podNames : Yaml → List String) (m : String)
    {content : Bytes} {doc : Yaml} (hdoc : serde.fromYaml (Text.fromUtf8Lossy content) = .ok doc) :
    podsMade serde podNames m content = podNames (namePods m doc) := by
  rw [podsMade, hdoc]

/-- A pod with one of these names is read as the manifest `m`. -/
def Recovers (names : List String) (m : String) : Prop :=
  "beemesh-" ++ m ++ "-pod" ∈ names ∨
    ("beemesh-" ++ m ∈ names ∧ m ≠ "pod" ∧ Text.endsWith m "-pod" = false) ∨
    (m ∈ names ∧ m = "beemesh-pod")

instance (names : List String) (m : String) : Decidable (Recovers names m) :=
  inferInstanceAs (Decidable (_ ∨ _))

theorem recovers_iff {names : List String} {m : String} :
    Recovers names m ↔ ∃ podName ∈ names,
      Text.startsWith podName "beemesh-" = true ∧ manifestIdOfPod podName = m := by
  constructor
  · rintro (hmem | ⟨hmem, hne, hends⟩ | ⟨hmem, rfl⟩)
    · have hstarts : Text.startsWith ("beemesh-" ++ m ++ "-pod") "beemesh-" = true :=
        Text.startsWith_iff.mpr ⟨m ++ "-pod", String.append_assoc⟩
      exact ⟨_, hmem, hstarts, (manifestIdOfPod_eq_iff hstarts m).mpr (.inl rfl)⟩
    · have hstarts : Text.startsWith ("beemesh-" ++ m) "beemesh-" = true :=
        Text.startsWith_iff.mpr ⟨m, rfl⟩
      exact ⟨_, hmem, hstarts, (manifestIdOfPod_self m).mpr ⟨hne, hends⟩⟩
    · exact ⟨_, hmem, by decide, by decide⟩
  · rintro ⟨podName, hmem, hstarts, hread⟩
    rcases (manifestIdOfPod_eq_iff hstarts m).mp hread with rfl | ⟨rfl, hne, hends⟩ | ⟨rfl, rfl⟩
    · exact .inl hmem
    · exact .inr (.inl ⟨hmem, hne, hends⟩)
    · exact .inr (.inr ⟨hmem, rfl⟩)

theorem workloadOfPod_eq_some {pod : Json} {w : WorkloadInfo} :
    workloadOfPod pod = some w ↔ ∃ podName, pod.getStr "Name" = some podName ∧
      Text.startsWith podName "beemesh-" = true ∧
      ⟨"beemesh-" ++ manifestIdOfPod podName, manifestIdOfPod podName, podLabels pod⟩ = w := by
  simp only [workloadOfPod, Option.bind_eq_some_iff, Option.ite_none_right_eq_some,
    Option.some.injEq]

variable {e serde cli}

/-- The file that is written is the manifest under its names. -/
theorem createTempManifestFile_ok {m text : String} {content : Bytes}
    (h : createTempManifestFile serde content m = .ok text) :
    ∃ doc, serde.fromYaml (Text.fromUtf8Lossy content) = .ok doc ∧
      serde.toYaml (namePods m doc) = .ok text := by
  unfold createTempManifestFile at h
  split at h
  · exact nomatch h
  · next doc hdoc =>
    split at h
    · exact nomatch h
    · next written htext =>
      obtain rfl := Except.ok.inj h
      exact ⟨doc, hdoc, htext⟩

/-- A deployment that succeeds has played the manifest under its names. -/
theorem deployWorkload_ok {t t' : T} {m : String} {content : Bytes} {config : DeploymentConfig}
    {info : WorkloadInfo}
    (h : (e.engine serde cli).deployWorkload t m content config = (.ok info, t')) :
    ∃ doc text output t₁, serde.fromYaml (Text.fromUtf8Lossy content) = .ok doc ∧
      serde.toYaml (namePods m doc) = .ok text ∧
      e.executeCommand cli t (kubePlay config text) = (.ok output, t₁) ∧
      info.id = "beemesh-" ++ m ∧ t' = e.extractPortMappings cli t₁ ("beemesh-" ++ m) := by
  have h : e.deployWorkload serde cli t m content config = (.ok info, t') :=
    displayed_eq_ok_iff.mp h
  unfold deployWorkload at h
  split at h
  · exact nomatch h
  · split at h
    · exact nomatch h
    · next text hfile =>
      split at h
      · exact nomatch h
      · next output t₁ hplay =>
        obtain ⟨hinfo, rfl⟩ := Prod.mk.inj h
        obtain rfl := Except.ok.inj hinfo
        obtain ⟨doc, hdoc, htext⟩ := createTempManifestFile_ok hfile
        exact ⟨doc, text, output, t₁, hdoc, htext, hplay, rfl, rfl⟩

section Names

variable {names : T → List String} {podNames : Yaml → List String}
  (h : e.Obeys serde cli names podNames)

include h

theorem Obeys.names_extractPortMappings (t : T) (podName : String) :
    names (e.extractPortMappings cli t podName) = names t := by
  have hfirst := h.inspect t (podName ++ "-pod")
  unfold extractPortMappings
  split
  · next heq => rwa [heq] at hfirst
  · next heq =>
    rw [h.inspect]
    rwa [heq] at hfirst

/-- **The workloads podman lists** of a manifest are its pods that are read as it. -/
theorem Obeys.lists_iff (t : T) (m : String) :
    (e.engine serde cli).Lists t m ("beemesh-" ++ m) ↔ Recovers (names t) m := by
  obtain ⟨output, hls, hnames⟩ := h.ls t
  have hlist : (e.engine serde cli).listWorkloads t =
      .ok ((podsOf serde output).filterMap workloadOfPod) := by
    simp only [engine, listWorkloads, hls, Except.mapError]
  rw [recovers_iff, ← hnames]
  constructor
  · rintro ⟨workloads, hworkloads, w, hw, hm, -⟩
    obtain rfl := Except.ok.inj (hlist.symm.trans hworkloads)
    obtain ⟨pod, hpod, hw⟩ := List.mem_filterMap.mp hw
    obtain ⟨podName, hname, hstarts, rfl⟩ := workloadOfPod_eq_some.mp hw
    exact ⟨podName, List.mem_filterMap.mpr ⟨pod, hpod, hname⟩, hstarts, hm⟩
  · rintro ⟨podName, hmem, hstarts, rfl⟩
    obtain ⟨pod, hpod, hname⟩ := List.mem_filterMap.mp hmem
    have hw := workloadOfPod_eq_some.mpr ⟨podName, hname, hstarts, rfl⟩
    exact ⟨_, hlist, _, List.mem_filterMap.mpr ⟨pod, hpod, hw⟩, rfl, rfl⟩

/-- **Podman finds a deployed workload again** if and only if one of the pods that were there or
were made of the manifest is read as its id. -/
theorem Obeys.deployed_lists_iff {t t' : T} {m : String} {content : Bytes}
    {config : DeploymentConfig} {info : WorkloadInfo}
    (hdeploy : (e.engine serde cli).deployWorkload t m content config = (.ok info, t')) :
    (e.engine serde cli).Lists t' m info.id ↔
      Recovers (names t ++ podsMade serde podNames m content) m := by
  obtain ⟨doc, text, output, t₁, hdoc, htext, hplay, hid, rfl⟩ := deployWorkload_ok hdeploy
  have hmem : ∀ podName, podName ∈ names t₁ ↔ podName ∈ names t ++ podNames (namePods m doc) := by
    intro podName
    rw [h.play htext hplay, List.mem_append]
  rw [hid, h.lists_iff, h.names_extractPortMappings, podsMade_of_ok podNames m hdoc]
  simp only [Recovers, hmem]

end Names

/-! ## Pods and deployments -/

section Shapes

-- Podman gives a pod the name that stands in the manifest.
variable {names : T → List String} (h : e.Obeys serde cli names fun doc => (givenName doc).toList)
  {t t' : T} {m : String} {content : Bytes} {config : DeploymentConfig} {info : WorkloadInfo}
  (hdeploy : (e.engine serde cli).deployWorkload t m content config = (.ok info, t'))
  {doc sub : Yaml} (hdoc : serde.fromYaml (Text.fromUtf8Lossy content) = .ok doc)
  {entries : List (Yaml × Yaml)} (hsub : sub.asMapping = some entries)

include h hdeploy hdoc hsub

/-- The pod of a deployment is found again under every manifest id. -/
theorem Obeys.lists_of_template (htemplate : templateMetadata doc = some sub) :
    (e.engine serde cli).Lists t' m info.id := by
  rw [h.deployed_lists_iff hdeploy]
  refine .inl (List.mem_append_right _ ?_)
  rw [podsMade_of_ok _ m hdoc, givenName_namePods_template htemplate hsub]
  exact .head _

/-- A plain pod is found again unless its manifest id is taken for that of a deployment. -/
theorem Obeys.lists_iff_of_pod (htemplate : templateMetadata doc = none)
    (hmetadata : doc.get "metadata" = some sub) :
    (e.engine serde cli).Lists t' m info.id ↔
      Recovers (names t) m ∨ (m ≠ "pod" ∧ Text.endsWith m "-pod" = false) := by
  have hstarts : Text.startsWith ("beemesh-" ++ m) "beemesh-" = true :=
    Text.startsWith_iff.mpr ⟨m, rfl⟩
  rw [h.deployed_lists_iff hdeploy, podsMade_of_ok _ m hdoc,
    givenName_namePods htemplate hmetadata hsub, recovers_iff, recovers_iff, Option.toList_some,
    ← manifestIdOfPod_self]
  simp only [List.mem_append, List.mem_singleton, or_and_right, exists_or, exists_eq_left, hstarts,
    true_and]

end Shapes

end PodmanEngine

end Beemesh
