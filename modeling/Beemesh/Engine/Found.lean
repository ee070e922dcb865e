import Beemesh.Engine.Docker
import Beemesh.Engine.Mock
import Beemesh.Engine.Podman

/-!
# Finding deployed workloads again

A deletion knows the manifest id only: it asks every engine for its workloads and removes those that
are listed under this id. So an engine has to recover from the names of its objects the id that it
deployed them for. The mock engine keeps the id itself; podman recovers it from all pod names but
those whose id ends like the name of a template pod; docker from none.

## Main definitions

* `FoundAgain`: an engine lists a workload, and the removal of its manifest comes upon it

## Main results

* `foundAgain_iff`: the removal comes upon what is listed
* `deployed_found_iff`: for each engine, the deployments that are found again
-/

namespace Beemesh

variable {H T T' : Type}

/-! ## The removal loop -/

/-- The removal loop has come upon a workload: it was removed, or its removal failed. -/
def Removal.Reached (r : Removal H) (engineName id : String) : Prop :=
  id ∈ r.removed ∨ engineName ++ ":" ++ id ∈ r.errors

theorem Removal.workload_reached (engine : RuntimeEngine H) (name m : String) (r : Removal H)
    {w : WorkloadInfo} (hm : w.manifestId = m) :
    (r.workload engine name m w).Reached name w.id := by
  unfold Removal.workload
  rw [if_pos hm]
  split
  · exact .inl (List.mem_append_right _ (.head _))
  · exact .inr (List.mem_append_right _ (.head _))

theorem Removal.Reached.workload (engine : RuntimeEngine H) (name m : String) {r : Removal H}
    {id : String} (h : r.Reached name id) (w : WorkloadInfo) :
    (r.workload engine name m w).Reached name id := by
  unfold Removal.workload
  split_ifs
  · split
    · exact h.imp_left (List.mem_append_left _)
    · exact h.imp_right (List.mem_append_left _)
  · exact h

theorem Removal.reached_of_mem (engine : RuntimeEngine H) (name m : String)
    (workloads : List WorkloadInfo) (r : Removal H) {w : WorkloadInfo} (hw : w ∈ workloads)
    (hm : w.manifestId = m) :
    (workloads.foldl (Removal.workload engine name m) r).Reached name w.id := by
  -- What the loop has come upon stays so over the workloads that follow.
  have hstays (rest : List WorkloadInfo) {r : Removal H} (h : r.Reached name w.id) :
      (rest.foldl (Removal.workload engine name m) r).Reached name w.id := by
    induction rest generalizing r with
    | nil => exact h
    | cons w' rest ih => exact ih (h.workload engine name m w')
  induction workloads generalizing r with
  | nil => exact absurd hw List.not_mem_nil
  | cons w' rest ih =>
    rcases List.mem_cons.mp hw with rfl | hw
    · exact hstays rest (r.workload_reached engine name m hm)
    · exact ih (r.workload engine name m w') hw

/-- An engine lists a workload of the manifest under the id, and the removal of the manifest comes
upon it there. -/
structure FoundAgain (engineName : String) (engine : RuntimeEngine H) (host : H) (m id : String) :
    Prop where
  lists : engine.Lists host m id
  reached : (Removal.engine m ⟨host, [], []⟩ ⟨engineName, engine⟩).Reached engineName id

/-- The removal comes upon what is listed. -/
theorem foundAgain_iff {name : String} {engine : RuntimeEngine H} {host : H} {m id : String} :
    FoundAgain name engine host m id ↔ engine.Lists host m id := by
  refine ⟨FoundAgain.lists, fun h => ⟨h, ?_⟩⟩
  obtain ⟨workloads, hlist, w, hw, hm, rfl⟩ := h
  simp only [Removal.engine, hlist]
  exact Removal.reached_of_mem engine name m workloads _ hw hm

/-! ## The engines -/

/-- **Which deployed workloads are found again.** With podman, those for which a pod that is there
or is made of the manifest is read as the manifest id: `beemesh-m-pod`, or `beemesh-m` where `m` is
not `pod` and does not end with `-pod`, or else the one name that is read as itself. With docker,
those of the manifest `unknown` for which some container has the name of the project. With the mock
engine, all. -/
theorem deployed_found_iff (serde : Serde)
    (podman : PodmanEngine) (podmanCli : Cli T) (pods : T → List String)
    (podNames : Yaml → List String) (hpodman : podman.Obeys serde podmanCli pods podNames)
    (dockerCli : Cli T') (containers : T' → List String)
    (containerNames : String → Bytes → List String)
    (hdocker : DockerEngine.Obeys serde dockerCli containers containerNames)
    (shouldDeploymentSucceed : MockHost → Bool) (m : String) (content : Bytes)
    (config : DeploymentConfig) :
    (∀ t t' info,
      (podman.engine serde podmanCli).deployWorkload t m content config = (.ok info, t') →
        (FoundAgain "podman" (podman.engine serde podmanCli) t' m info.id ↔
          PodmanEngine.Recovers (pods t ++ PodmanEngine.podsMade serde podNames m content) m)) ∧
    (∀ t t' info,
      (DockerEngine.engine serde dockerCli).deployWorkload t m content config = (.ok info, t') →
        let project := DockerEngine.generateWorkloadId serde m content
        (FoundAgain "docker" (DockerEngine.engine serde dockerCli) t' m info.id ↔
          m = "unknown" ∧ project ∈ containers t ++ containerNames project content)) ∧
    (∀ host host' info,
      (MockEngine.engine serde shouldDeploymentSucceed).deployWorkload host m content config =
          (.ok info, host') →
        FoundAgain "mock" (MockEngine.engine serde shouldDeploymentSucceed) host' m info.id) := by
  refine ⟨fun t t' info hdeploy => ?_, fun t t' info hdeploy => ?_,
    fun host host' info hdeploy => ?_⟩
  · exact foundAgain_iff.trans (hpodman.deployed_lists_iff hdeploy)
  · exact foundAgain_iff.trans (hdocker.deployed_lists_iff hdeploy)
  · exact foundAgain_iff.mpr (MockEngine.deployed_lists hdeploy)

/-! ## On reference tools -/

/-- A manifest of one pod. -/
def podFile (name : String) : String :=
  "apiVersion: v1\nkind: Pod\nmetadata:\n  name: " ++ name ++ "\n"

def podDoc (name : String) : Yaml :=
  .mapping [(.string "apiVersion", .string "v1"), (.string "kind", .string "Pod"),
    (.string "metadata", .mapping [(.string "name", .string name)])]

/-- A compose file of one service. -/
def composeFile : String := "services:\n  web:\n    image: nginx\n"

def composeDoc : Yaml :=
  .mapping [(.string "services", .mapping [(.string "web", .mapping
    [(.string "image", .string "nginx")])])]

/-- What podman prints when it has the pod `name`, or none. -/
def podList (name : String) (up : Bool) : String :=
  if up then "[\x7b\"Name\":\"" ++ name ++ "\"\x7d]" else "[]"

/-- What docker prints when it has the container `name`, or none. -/
def containerList (name : String) (up : Bool) : String :=
  if up then "\x7b\"Names\":\"" ++ name ++ "\"\x7d\n" else ""

/-- The document libraries on these texts. -/
def referenceSerde (pod container : String) : Serde where
  fromYaml text :=
    if text = podFile "web" then .ok (podDoc "web")
    else if text = composeFile then .ok composeDoc
    else .error "not a manifest"
  toYaml doc := match PodmanEngine.givenName doc with
    | some name => .ok (podFile name)
    | none => .error "no name"
  fromJson text :=
    if text = podList pod false then .ok (.array [])
    else if text = podList pod true then .ok (.array [.object [("Name", .string pod)]])
    else if text ++ "\n" = containerList container true then
      .ok (.object [("Names", .string container)])
    else .error "not a list"

def printed (s : String) : Output := ⟨true, s.toUTF8.data.toList, []⟩

/-- Podman where it can have the pod `name` only. -/
def referencePodman (name : String) : Cli Bool := fun up args =>
  if args = PodmanEngine.podLs then (.ok (printed (podList name up)), up)
  else if args.getLast? = some (.file (podFile name).toUTF8.data.toList) then
    (.ok (printed name), true)
  else (.ok ⟨false, [], []⟩, up)

/-- Docker where it can have one project only, of the compose file. -/
def referenceDocker (project : String) : Cli Bool := fun up args =>
  if args = DockerEngine.dockerPs then (.ok (printed (containerList (project ++ "-web-1") up)), up)
  else if args[2]? = some (.file composeFile.toUTF8.data.toList) ∧
      args[4]? = some (.text project) then
    (.ok (printed ""), true)
  else (.ok ⟨false, [], []⟩, up)

/-- Podman without a socket. -/
def localPodman : PodmanEngine := ⟨none, false⟩

@[simp] theorem localPodman_executeCommand (cli : Cli T) (t : T) (args : List Arg) :
    localPodman.executeCommand cli t args = cli.execute t args := rfl

/-- The objects of a tool that has `name` or none. -/
def namesOf (name : String) (up : Bool) : List String := if up then [name] else []

theorem execute_printed {cli : Cli Bool} {up up' : Bool} {args : List Arg} {s : String}
    (h : cli up args = (.ok (printed s), up')) (hs : Text.fromUtf8Lossy s.toUTF8.data.toList = s) :
    cli.execute up args = (.ok s, up') := by
  simp only [Cli.execute, h, printed, if_true, hs]

theorem toUTF8_inj {s s' : String} (h : s.toUTF8.data.toList = s'.toUTF8.data.toList) : s = s' := by
  refine String.toByteArray_inj.mp (ByteArray.ext (Array.toList_inj.mp ?_))
  exact h

theorem podFile_inj {name name' : String} (h : podFile name = podFile name') : name = name' := by
  unfold podFile at h
  rwa [String.append_left_inj, String.append_right_inj] at h

/-- Podman as the engine relies on it, as far as the texts it prints are read. -/
theorem referencePodman_obeys {name container : String}
    (hprints : ∀ up, Text.fromUtf8Lossy (podList name up).toUTF8.data.toList = podList name up)
    (hreads : ∀ up, (PodmanEngine.podsOf (referenceSerde name container)
      (podList name up)).filterMap (Json.getStr "Name") = namesOf name up) :
    localPodman.Obeys (referenceSerde name container) (referencePodman name) (namesOf name)
      fun doc => (PodmanEngine.givenName doc).toList := by
  refine ⟨fun up => ⟨podList name up, ?_, hreads up⟩,
    fun {up up' config doc text output} htext hplay podName => ?_, fun up podName => ?_⟩
  · have hls : referencePodman name up PodmanEngine.podLs = (.ok (printed (podList name up)), up) :=
      if_pos rfl
    exact congrArg Prod.fst (execute_printed hls (hprints up))
  · have hlast : (PodmanEngine.kubePlay config text).getLast? =
        some (.file text.toUTF8.data.toList) := by
      simp [PodmanEngine.kubePlay]
    have hne : PodmanEngine.kubePlay config text ≠ PodmanEngine.podLs := by
      intro heq
      rw [heq] at hlast
      exact nomatch hlast
    simp only [localPodman_executeCommand, Cli.execute, referencePodman, if_neg hne, hlast,
      Option.some.injEq, Arg.file.injEq] at hplay
    split_ifs at hplay with hfile
    · obtain ⟨-, rfl⟩ := Prod.mk.inj hplay
      simp only [referenceSerde] at htext
      cases hgiven : PodmanEngine.givenName doc with
      | none =>
        rw [hgiven] at htext
        exact nomatch htext
      | some given =>
        rw [hgiven] at htext
        obtain rfl := Except.ok.inj htext
        obtain rfl := podFile_inj (toUTF8_inj hfile)
        cases up <;> simp [namesOf]
    · exact nomatch hplay
  · -- The last word is no file, and the second is not that of the listing.
    have hinspect : referencePodman name up
        (words ["pod", "inspect", podName, "--format", "json"]) = (.ok ⟨false, [], []⟩, up) := by
      simp [referencePodman, PodmanEngine.podLs, words]
    simp only [localPodman_executeCommand, Cli.execute, hinspect, Bool.false_eq_true, if_false]

/-- Docker as the engine relies on it, as far as the texts it prints are read. -/
theorem referenceDocker_obeys {pod project : String}
    (hprints : ∀ up,
      Text.fromUtf8Lossy (containerList (project ++ "-web-1") up).toUTF8.data.toList =
        containerList (project ++ "-web-1") up)
    (hreads : ∀ up, DockerEngine.containersOf (referenceSerde pod (project ++ "-web-1"))
      (containerList (project ++ "-web-1") up) = namesOf (project ++ "-web-1") up) :
    DockerEngine.Obeys (referenceSerde pod (project ++ "-web-1")) (referenceDocker project)
      (namesOf (project ++ "-web-1")) fun project _ => [project ++ "-web-1"] := by
  refine ⟨fun up => ⟨containerList (project ++ "-web-1") up, ?_, hreads up⟩,
    fun {up up' config content project' output} hup name => ?_⟩
  · have hps : referenceDocker project up DockerEngine.dockerPs =
        (.ok (printed (containerList (project ++ "-web-1") up)), up) := if_pos rfl
    exact congrArg Prod.fst (execute_printed hps (hprints up))
  · have hargs : (DockerEngine.composeUp config content project')[4]? = some (.text project') := by
      simp [DockerEngine.composeUp, words]
    have hne : DockerEngine.composeUp config content project' ≠ DockerEngine.dockerPs := by
      intro heq
      have hfirst := congrArg List.head? heq
      exact absurd hfirst (by simp [DockerEngine.composeUp, DockerEngine.dockerPs, words])
    simp only [Cli.execute, referenceDocker, if_neg hne, hargs, Option.some.injEq,
      Arg.text.injEq] at hup
    split_ifs at hup with hfile
    · obtain ⟨-, rfl⟩ := Prod.mk.inj hup
      obtain ⟨-, rfl⟩ := hfile
      cases up <;> simp [namesOf]
    · exact nomatch hup

/-- The document libraries where a pod of `m` and the container of a project of `m` can be. -/
def serdeOf (m : String) : Serde :=
  referenceSerde ("beemesh-" ++ m) ("beemesh-unnamed-" ++ m ++ "-web-1")

def podmanOf (m : String) : RuntimeEngine Bool :=
  localPodman.engine (serdeOf m) (referencePodman ("beemesh-" ++ m))

def dockerOf (m : String) : RuntimeEngine Bool :=
  DockerEngine.engine (serdeOf m) (referenceDocker ("beemesh-unnamed-" ++ m))

def mockOf (m : String) : RuntimeEngine MockHost := MockEngine.engine (serdeOf m) fun _ => true

/-- The pod of `web` is found again, and the project is not. -/
theorem deployed_found_iff_reference :
    FoundAgain "podman" (podmanOf "web") true "web" "beemesh-web" ∧
      ¬ FoundAgain "docker" (dockerOf "web") true "web" "beemesh-unnamed-web" ∧
      ∃ host, FoundAgain "mock" (mockOf "web") host "web" "mock-web-web" := by
  have hfound := deployed_found_iff (serdeOf "web") localPodman (referencePodman "beemesh-web")
    (namesOf "beemesh-web") _ (referencePodman_obeys (by decide) (by decide))
    (referenceDocker "beemesh-unnamed-web") (namesOf "beemesh-unnamed-web-web-1") _
    (referenceDocker_obeys (by decide) (by decide)) (fun _ => true) "web"
  refine ⟨?_, ?_, ?_⟩
  · refine ((hfound (podFile "web").toUTF8.data.toList {}).1 false true _ rfl).mpr ?_
    exact .inr (.inl ⟨.head _, by decide, by decide⟩)
  · intro hagain
    have hunknown := ((hfound composeFile.toUTF8.data.toList {}).2.1 false true _ rfl).mp hagain
    exact absurd hunknown.1 (by decide)
  · exact ⟨_, (hfound (podFile "web").toUTF8.data.toList {}).2.2 {} _ _ rfl⟩

/-- A pod of `web-pod` is listed as `web`, and a project of any manifest as `unknown`. -/
theorem deployed_not_found :
    (∃ info t',
      (podmanOf "web-pod").deployWorkload false "web-pod" (podFile "web").toUTF8.data.toList {} =
        (.ok info, t') ∧ ¬ (podmanOf "web-pod").Lists t' "web-pod" info.id) ∧
    ∃ info t',
      (dockerOf "web").deployWorkload false "web" composeFile.toUTF8.data.toList {} =
        (.ok info, t') ∧ ¬ (dockerOf "web").Lists t' "web" info.id := by
  have hpodman : localPodman.Obeys (serdeOf "web-pod") (referencePodman "beemesh-web-pod")
      (namesOf "beemesh-web-pod") fun doc => (PodmanEngine.givenName doc).toList :=
    referencePodman_obeys (by decide) (by decide)
  have hdocker : DockerEngine.Obeys (serdeOf "web") (referenceDocker "beemesh-unnamed-web")
      (namesOf "beemesh-unnamed-web-web-1") fun project _ => [project ++ "-web-1"] :=
    referenceDocker_obeys (by decide) (by decide)
  obtain ⟨info, hdeploy⟩ : ∃ info, (podmanOf "web-pod").deployWorkload false "web-pod"
      (podFile "web").toUTF8.data.toList {} = (.ok info, true) := ⟨_, rfl⟩
  refine ⟨⟨info, true, hdeploy, fun hlists => ?_⟩, ⟨_, true, rfl, fun hlists => ?_⟩⟩
  · exact absurd ((hpodman.deployed_lists_iff hdeploy).mp hlists) (by decide)
  · exact absurd ((hdocker.lists_iff true _ _).mp hlists).1 (by decide)

end Beemesh
