import Beemesh.Engine.Found

/-!
# Manifest ids in pod names

Podman gets a manifest under names made of its id, and the listing makes the id of the name again.
For the pod of a deployment it always does; for a plain pod unless its manifest id looks like that
of a deployment's pod. Then the entry of the pod is one of another manifest, whose deletion goes for
this pod.

## Main definitions

* `PodShape`: the two shapes of a manifest, and the name that its pod has
* `Deploys`: deployments that succeed, one after the other
* `Entry`: what the listing makes of a pod
* `ListedFaithfully`: every deployed pod is listed under its own manifest id, and under no other

## Main results

* `manifestIdOfPod_podName_iff`: when a name is read as the id it was made of
* `listedFaithfully_iff`: when deployed pods are listed faithfully
-/

namespace Beemesh

namespace PodmanEngine

/-! ## Shapes -/

/-- A plain pod, or a deployment with a pod template. -/
inductive PodShape
  | pod
  | deployment
  deriving DecidableEq

/-- The name that the pod of a manifest has. -/
def PodShape.podName (m : String) : PodShape → String
  | pod => "beemesh-" ++ m
  | deployment => "beemesh-" ++ m ++ "-pod"

/-- The content is a manifest of the shape: its metadata, or that of its pod template, can take a
name. -/
def PodShape.Of (serde : Serde) (content : Bytes) : PodShape → Prop
  | pod => ∃ doc sub entries, serde.fromYaml (Text.fromUtf8Lossy content) = .ok doc ∧
    templateMetadata doc = none ∧ doc.get "metadata" = some sub ∧ sub.asMapping = some entries
  | deployment => ∃ doc sub entries, serde.fromYaml (Text.fromUtf8Lossy content) = .ok doc ∧
    templateMetadata doc = some sub ∧ sub.asMapping = some entries

/-- The pod of a manifest has the name of its shape. -/
theorem PodShape.podsMade_eq {serde : Serde} {content : Bytes} {shape : PodShape}
    (h : shape.Of serde content) (m : String) :
    podsMade serde (fun doc => (givenName doc).toList) m content = [shape.podName m] := by
  cases shape with
  | pod =>
    obtain ⟨doc, sub, entries, hdoc, htemplate, hmetadata, hsub⟩ := h
    rw [podsMade_of_ok _ m hdoc, givenName_namePods htemplate hmetadata hsub]
    rfl
  | deployment =>
    obtain ⟨doc, sub, entries, hdoc, htemplate, hsub⟩ := h
    rw [podsMade_of_ok _ m hdoc, givenName_namePods_template htemplate hsub]
    rfl

theorem PodShape.startsWith_podName (m : String) (shape : PodShape) :
    Text.startsWith (shape.podName m) "beemesh-" = true := by
  cases shape with
  | pod => exact Text.startsWith_iff.mpr ⟨m, rfl⟩
  | deployment => exact Text.startsWith_iff.mpr ⟨m ++ "-pod", String.append_assoc⟩

/-- **When a name is read as the id it was made of**: for a deployment always. -/
theorem manifestIdOfPod_podName_iff (m : String) (shape : PodShape) :
    manifestIdOfPod (shape.podName m) = m ↔
      shape = .deployment ∨ m ≠ "pod" ∧ Text.endsWith m "-pod" = false := by
  cases shape with
  | pod => exact (manifestIdOfPod_self m).trans (or_iff_right nofun).symm
  | deployment =>
    refine iff_of_true ?_ (.inl rfl)
    exact (manifestIdOfPod_eq_iff (PodShape.startsWith_podName m .deployment) m).mpr (.inl rfl)

/-! ## Deployments and their entries -/

/-- A manifest that was deployed. -/
structure Deployed where
  manifestId : String
  shape : PodShape

/-- The name of its pod. -/
def Deployed.podName (d : Deployed) : String := d.shape.podName d.manifestId

variable {T : Type} (e : PodmanEngine) (serde : Serde) (cli : Cli T)

/-- Deployments that succeed, one after the other. -/
inductive Deploys : T → List Deployed → T → Prop
  | nil (t : T) : Deploys t [] t
  | cons {t t₁ t' : T} {d : Deployed} {ds : List Deployed} {content : Bytes}
    {config : DeploymentConfig} {info : WorkloadInfo}
    (hdeploy : (e.engine serde cli).deployWorkload t d.manifestId content config = (.ok info, t₁))
    (hshape : d.shape.Of serde content) (hrest : Deploys t₁ ds t') : Deploys t (d :: ds) t'

/-- What the listing makes of a pod with this name. -/
def Entry (t : T) (podName : String) (w : WorkloadInfo) : Prop :=
  ∃ output pod, (e.executeCommand cli t podLs).1 = .ok output ∧ pod ∈ podsOf serde output ∧
    pod.getStr "Name" = some podName ∧ workloadOfPod pod = some w

/-- Every deployed pod has entries, all of them of its own manifest; and the pods of different
manifests have entries of different ones. -/
structure ListedFaithfully (t : T) (ds : List Deployed) : Prop where
  own : ∀ d ∈ ds, (∃ w, e.Entry serde cli t d.podName w) ∧ ∀ w, e.Entry serde cli t d.podName w →
    w.manifestId = d.manifestId ∧ ∀ content, w.id = generateWorkloadId d.manifestId content
  apart : ∀ d ∈ ds, ∀ d' ∈ ds, d.manifestId ≠ d'.manifestId → ∀ w w',
    e.Entry serde cli t d.podName w → e.Entry serde cli t d'.podName w' →
    w.manifestId ≠ w'.manifestId

variable {e serde cli} {t t' : T} {ds : List Deployed}

/-- An entry is one of the listed workloads. -/
theorem Entry.listed {podName : String} {w : WorkloadInfo} (h : e.Entry serde cli t podName w) :
    ∃ workloads, e.listWorkloads serde cli t = .ok workloads ∧ w ∈ workloads := by
  obtain ⟨output, pod, hls, hpod, -, hw⟩ := h
  refine ⟨(podsOf serde output).filterMap workloadOfPod, ?_,
    List.mem_filterMap.mpr ⟨pod, hpod, hw⟩⟩
  rw [listWorkloads, hls]

/-- An entry is of the manifest that the name of the pod is read as. -/
theorem Entry.eq {podName : String} {w : WorkloadInfo} (h : e.Entry serde cli t podName w) :
    w.manifestId = manifestIdOfPod podName ∧ w.id = "beemesh-" ++ manifestIdOfPod podName := by
  obtain ⟨output, pod, -, -, hname, hw⟩ := h
  obtain ⟨podName', hname', -, rfl⟩ := workloadOfPod_eq_some.mp hw
  obtain rfl := Option.some.inj (hname.symm.trans hname')
  exact ⟨rfl, rfl⟩

section Names

variable {names : T → List String} (h : e.Obeys serde cli names fun doc => (givenName doc).toList)

include h

/-- A pod of the engine that is there has an entry. -/
theorem Obeys.exists_entry {podName : String} (hmem : podName ∈ names t)
    (hstarts : Text.startsWith podName "beemesh-" = true) :
    ∃ w, e.Entry serde cli t podName w := by
  obtain ⟨output, hls, hnames⟩ := h.ls t
  rw [← hnames] at hmem
  obtain ⟨pod, hpod, hname⟩ := List.mem_filterMap.mp hmem
  exact ⟨_, output, pod, hls, hpod, hname,
    workloadOfPod_eq_some.mpr ⟨podName, hname, hstarts, rfl⟩⟩

/-- A deployment makes its pod, and leaves those that are there. -/
theorem Obeys.names_deployWorkload {d : Deployed} {content : Bytes} {config : DeploymentConfig}
    {info : WorkloadInfo}
    (hdeploy : (e.engine serde cli).deployWorkload t d.manifestId content config = (.ok info, t'))
    (hshape : d.shape.Of serde content) (podName : String) :
    podName ∈ names t' ↔ podName ∈ names t ∨ podName = d.podName := by
  obtain ⟨doc, text, output, t₁, hdoc, htext, hplay, -, rfl⟩ := deployWorkload_ok hdeploy
  have hmade := PodShape.podsMade_eq hshape d.manifestId
  rw [podsMade_of_ok _ _ hdoc] at hmade
  rw [h.names_extractPortMappings, h.play htext hplay, hmade, List.mem_singleton]
  rfl

/-- After deployments the pods of all of them are there. -/
theorem Obeys.names_of_deploys (hrun : e.Deploys serde cli t ds t') :
    (∀ podName ∈ names t, podName ∈ names t') ∧ ∀ d ∈ ds, d.podName ∈ names t' := by
  induction hrun with
  | nil t => exact ⟨fun _ => id, fun d hd => absurd hd List.not_mem_nil⟩
  | @cons t t₁ t' d ds content config info hdeploy hshape hrest ih =>
    have hstep := h.names_deployWorkload hdeploy hshape
    refine ⟨fun podName hmem => ih.1 podName ((hstep podName).mpr (.inl hmem)), fun d' hd' => ?_⟩
    rcases List.mem_cons.mp hd' with rfl | hd'
    · exact ih.1 _ ((hstep _).mpr (.inr rfl))
    · exact ih.2 d' hd'

/-- **When deployed pods are listed faithfully**: when every plain pod among them is of a manifest
whose id is not `pod` and does not end with `-pod`. -/
theorem Obeys.listedFaithfully_iff (hrun : e.Deploys serde cli t ds t') :
    e.ListedFaithfully serde cli t' ds ↔ ∀ d ∈ ds, d.shape = .deployment ∨
      d.manifestId ≠ "pod" ∧ Text.endsWith d.manifestId "-pod" = false := by
  have hentry (d : Deployed) (hd : d ∈ ds) : ∃ w, e.Entry serde cli t' d.podName w :=
    h.exists_entry ((h.names_of_deploys hrun).2 d hd) (PodShape.startsWith_podName _ _)
  constructor
  · intro hlisted d hd
    obtain ⟨w, hw⟩ := hentry d hd
    refine (manifestIdOfPod_podName_iff d.manifestId d.shape).mp ?_
    exact hw.eq.1.symm.trans ((hlisted.own d hd).2 w hw).1
  · intro hcond
    have hread (d : Deployed) (hd : d ∈ ds) {w : WorkloadInfo}
        (hw : e.Entry serde cli t' d.podName w) : manifestIdOfPod d.podName = d.manifestId :=
      (manifestIdOfPod_podName_iff d.manifestId d.shape).mpr (hcond d hd)
    refine ⟨fun d hd => ⟨hentry d hd, fun w hw => ?_⟩, fun d hd d' hd' hne w w' hw hw' heq => ?_⟩
    · obtain ⟨hmanifest, hid⟩ := hw.eq
      rw [hread d hd hw] at hmanifest hid
      exact ⟨hmanifest, fun _ => hid⟩
    · rw [hw.eq.1, hw'.eq.1, hread d hd hw, hread d' hd' hw'] at heq
      exact hne heq

end Names

/-! ## On a reference tool -/

/-- A plain pod of the manifest `m`, deployed where there was none. -/
theorem deploys_pod {m : String} {info : WorkloadInfo}
    (hdeploy : (podmanOf m).deployWorkload false m (podFile "web").toUTF8.data.toList {} =
      (.ok info, true))
    (hdoc : (serdeOf m).fromYaml (Text.fromUtf8Lossy (podFile "web").toUTF8.data.toList) =
      .ok (podDoc "web")) :
    localPodman.Deploys (serdeOf m) (referencePodman ("beemesh-" ++ m)) false [⟨m, .pod⟩] true :=
  .cons hdeploy ⟨podDoc "web", _, _, hdoc, rfl, rfl, rfl⟩ (.nil true)

/-- The pod of `web` is listed as it is. -/
theorem listedFaithfully_web :
    localPodman.ListedFaithfully (serdeOf "web") (referencePodman "beemesh-web") true
      [⟨"web", .pod⟩] := by
  have hobeys : localPodman.Obeys (serdeOf "web") (referencePodman "beemesh-web")
      (namesOf "beemesh-web") fun doc => (givenName doc).toList :=
    referencePodman_obeys (by decide) (by decide)
  refine (hobeys.listedFaithfully_iff (deploys_pod rfl rfl)).mpr ?_
  rintro d hd
  rw [List.mem_singleton.mp hd]
  exact .inr ⟨by decide, by decide⟩

/-- The pod of `web-pod` is not. -/
theorem not_listedFaithfully_web_pod :
    localPodman.Deploys (serdeOf "web-pod") (referencePodman "beemesh-web-pod") false
        [⟨"web-pod", .pod⟩] true ∧
      ¬ localPodman.ListedFaithfully (serdeOf "web-pod") (referencePodman "beemesh-web-pod") true
        [⟨"web-pod", .pod⟩] := by
  have hobeys : localPodman.Obeys (serdeOf "web-pod") (referencePodman "beemesh-web-pod")
      (namesOf "beemesh-web-pod") fun doc => (givenName doc).toList :=
    referencePodman_obeys (by decide) (by decide)
  have hrun : localPodman.Deploys (serdeOf "web-pod") (referencePodman "beemesh-web-pod") false
      [⟨"web-pod", .pod⟩] true := deploys_pod rfl rfl
  refine ⟨hrun, fun hlisted => ?_⟩
  obtain ⟨⟨w, hw⟩, hown⟩ := hlisted.own _ (.head _)
  have hread := hw.eq.1.symm.trans (hown w hw).1
  exact absurd hread (by decide)

end PodmanEngine

end Beemesh
