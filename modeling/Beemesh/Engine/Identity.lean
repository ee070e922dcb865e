import Beemesh.Engine.Docker
import Beemesh.Engine.Mock

/-!
# Workload ids

The docker and mock engines make the id of a workload out of the name in the manifest and the
manifest id, with a dash between them. Both of the parts may have dashes of their own: where one
name goes on with what the other manifest's id begins with, two manifests have one workload id, and
the second deployment takes the place of the first.

## Main definitions

* `Confusable`: the names and ids of two manifests are cut differently out of one text
* `DockerEngine.manifestName`, `MockEngine.manifestName`: the names that ids are made of
* `DockerEngine.composeProject`: the project that a command is about

## Main results

* `workloadIds_identify_iff`: when workload ids tell two manifests apart
-/

namespace Beemesh

/-! ## Names and ids -/

/-- One of the names is the other, a dash and more; and the id that goes with the other is the rest
of this name, a dash and the id that goes with it. -/
def Confusable (name₁ id₁ name₂ id₂ : String) : Prop :=
  (∃ x, name₁ = name₂ ++ "-" ++ x ∧ id₂ = x ++ "-" ++ id₁) ∨
    ∃ x, name₂ = name₁ ++ "-" ++ x ∧ id₁ = x ++ "-" ++ id₂

variable {name₁ id₁ name₂ id₂ : String}

/-- A text is not what is left of it behind a dash. -/
theorem ne_append_dash (x id : String) : id ≠ x ++ "-" ++ id := by
  intro h
  have hlength := congrArg (fun s : String => s.toList.length) h
  simp only [String.toList_append, List.length_append] at hlength
  have hdash : "-".toList.length = 1 := rfl
  omega

theorem Confusable.ne (h : Confusable name₁ id₁ name₂ id₂) : id₁ ≠ id₂ := by
  rintro rfl
  rcases h with ⟨x, -, hid⟩ | ⟨x, -, hid⟩
  · exact ne_append_dash x _ hid
  · exact ne_append_dash x _ hid

/-- Two names and ids give one text: they are the same, or cut differently. -/
theorem dashed_eq_iff :
    name₁ ++ "-" ++ id₁ = name₂ ++ "-" ++ id₂ ↔
      (name₁ = name₂ ∧ id₁ = id₂) ∨ Confusable name₁ id₁ name₂ id₂ :=
  Text.append_sep_append_eq_iff rfl

/-- **Ids identify** the manifests that are not confused. -/
theorem dashed_identifies_iff :
    (name₁ ++ "-" ++ id₁ = name₂ ++ "-" ++ id₂ → id₁ = id₂) ↔
      ¬ Confusable name₁ id₁ name₂ id₂ := by
  rw [dashed_eq_iff]
  constructor
  · -- The ids of manifests that are confused differ, though their texts are one.
    intro h hconfused
    exact hconfused.ne (h (.inr hconfused))
  · rintro h (⟨-, hid⟩ | hconfused)
    · exact hid
    · exact absurd hconfused h

/-! ## The engines -/

namespace DockerEngine

variable (serde : Serde)

def manifestName (content : Bytes) : String :=
  ((parseManifestMetadata serde content).lookup "name").getD "unnamed"

/-- The project of a compose command: the word behind `-p`. -/
def composeProject (args : List Arg) : Option Arg := (args.dropWhile (· ≠ .text "-p"))[1]?

variable {serde} {m₁ m₂ : String} {c₁ c₂ : Bytes}

theorem generateWorkloadId_eq_iff :
    generateWorkloadId serde m₁ c₁ = generateWorkloadId serde m₂ c₂ ↔
      manifestName serde c₁ ++ "-" ++ m₁ = manifestName serde c₂ ++ "-" ++ m₂ := by
  simp only [generateWorkloadId, manifestName, String.append_assoc, String.append_right_inj]

/-- A workload is brought up as the project of its id. -/
theorem composeProject_composeUp (config : DeploymentConfig) (content : Bytes) (id : String) :
    composeProject (composeUp config content id) = some (.text id) := by
  simp [composeProject, composeUp, words]

end DockerEngine

namespace MockEngine

variable (serde : Serde)

def manifestName (content : Bytes) : String :=
  ((parseManifestMetadata serde content).lookup "name").getD "unnamed"

variable {serde} {m₁ m₂ : String} {c₁ c₂ : Bytes}

theorem generateWorkloadId_eq_iff :
    generateWorkloadId serde m₁ c₁ = generateWorkloadId serde m₂ c₂ ↔
      manifestName serde c₁ ++ "-" ++ m₁ = manifestName serde c₂ ++ "-" ++ m₂ := by
  simp only [generateWorkloadId, manifestName, String.append_assoc, String.append_right_inj]

/-- The peer is the same in both of the ids. -/
theorem generateWorkloadIdWithPeer_eq_iff (peer : PeerId) :
    generateWorkloadIdWithPeer serde m₁ c₁ peer = generateWorkloadIdWithPeer serde m₂ c₂ peer ↔
      manifestName serde c₁ ++ "-" ++ m₁ = manifestName serde c₂ ++ "-" ++ m₂ := by
  rw [← generateWorkloadId_eq_iff]
  simp only [generateWorkloadIdWithPeer, generateWorkloadId, String.append_left_inj]

/-- The workload that is stored under `id` before is stored there after. -/
def Keeps (host host' : MockHost) (id : String) : Prop :=
  ∀ w, host.workloads.lookup id = some w → host'.workloads.lookup id = some w

/-- What a deployment that succeeds does to the table. -/
theorem deployWorkload_eq_ok {shouldDeploymentSucceed : MockHost → Bool} {host host' : MockHost}
    {m : String} {content : Bytes} {config : DeploymentConfig} {info : WorkloadInfo}
    (h : deployWorkload serde shouldDeploymentSucceed host m content config = (.ok info, host')) :
    info.manifestId = m ∧ host'.workloads =
      host.workloads.insert (generateWorkloadId serde m content) ⟨info, config, host.now⟩ := by
  have hid : info.id = generateWorkloadId serde m content := by
    unfold deployWorkload at h
    split at h
    · exact nomatch h
    · dsimp only at h
      split_ifs at h
      · rw [← Except.ok.inj (Prod.mk.inj h).1]
      · exact nomatch h
  rw [← hid]
  exact deployWorkload_ok (displayed_eq_ok_iff.mpr h)

theorem deployWorkloadWithPeer_eq_ok {shouldDeploymentSucceed : MockHost → Bool}
    {host host' : MockHost} {m : String} {content : Bytes} {config : DeploymentConfig}
    {peer : PeerId} {info : WorkloadInfo}
    (h : deployWorkloadWithPeer serde shouldDeploymentSucceed host m content config peer =
      (.ok info, host')) :
    info.manifestId = m ∧ host'.workloads = host.workloads.insert
      (generateWorkloadIdWithPeer serde m content peer) ⟨info, config, host.now⟩ := by
  unfold deployWorkloadWithPeer at h
  dsimp only at h
  split_ifs at h
  · obtain ⟨hinfo, rfl⟩ := Prod.mk.inj h
    obtain rfl := Except.ok.inj hinfo
    exact ⟨rfl, rfl⟩
  · exact nomatch h

/-- A workload of another manifest is stored as before unless the new one has its id. -/
theorem keeps_iff {host host' : MockHost} {id id' : String} {w w' : MockWorkload}
    (hw : host.workloads.lookup id = some w) (hne : w.info.manifestId ≠ w'.info.manifestId)
    (hhost' : host'.workloads = host.workloads.insert id' w') : Keeps host host' id ↔ id ≠ id' := by
  unfold Keeps
  rw [hhost']
  constructor
  · -- Under the same id there is a workload of the other manifest now.
    rintro h rfl
    have hsame := h w hw
    rw [AList.lookup_insert] at hsame
    exact hne (congrArg (fun w => w.info.manifestId) (Option.some.inj hsame).symm)
  · intro hid w hw
    rw [AList.lookup_insert_ne hid, hw]

end MockEngine

/-! ## Workload ids tell manifests apart -/

/-- Manifests with different ids have different workload ids exactly if they are not confused. -/
theorem ne_iff_of_dashed {m₁ m₂ name₁ name₂ id₁ id₂ : String} (hne : m₁ ≠ m₂)
    (hid : id₁ = id₂ ↔ name₁ ++ "-" ++ m₁ = name₂ ++ "-" ++ m₂) :
    id₁ ≠ id₂ ↔ ¬ Confusable name₁ m₁ name₂ m₂ := by
  rw [← dashed_identifies_iff, Ne, hid]
  exact ⟨fun h heq => absurd heq h, fun h heq => hne (h heq)⟩

/-- **Workload ids identify manifests** exactly where the names and ids are not confused: the ids
of both engines do, so do the ids with a peer; the project that is brought up is then another one,
and a stored workload of another manifest stays as it is. -/
theorem workloadIds_identify_iff (serde : Serde) (m₁ m₂ : String) (c₁ c₂ : Bytes) :
    ((DockerEngine.generateWorkloadId serde m₁ c₁ = DockerEngine.generateWorkloadId serde m₂ c₂ →
        m₁ = m₂) ↔
      ¬ Confusable (DockerEngine.manifestName serde c₁) m₁
        (DockerEngine.manifestName serde c₂) m₂) ∧
    ((MockEngine.generateWorkloadId serde m₁ c₁ = MockEngine.generateWorkloadId serde m₂ c₂ →
        m₁ = m₂) ↔
      ¬ Confusable (MockEngine.manifestName serde c₁) m₁ (MockEngine.manifestName serde c₂) m₂) ∧
    (∀ peer, (MockEngine.generateWorkloadIdWithPeer serde m₁ c₁ peer =
        MockEngine.generateWorkloadIdWithPeer serde m₂ c₂ peer → m₁ = m₂) ↔
      ¬ Confusable (MockEngine.manifestName serde c₁) m₁ (MockEngine.manifestName serde c₂) m₂) ∧
    (∀ config₁ config₂, m₁ ≠ m₂ →
      (DockerEngine.composeProject
          (DockerEngine.composeUp config₁ c₁ (DockerEngine.generateWorkloadId serde m₁ c₁)) ≠
        DockerEngine.composeProject
          (DockerEngine.composeUp config₂ c₂ (DockerEngine.generateWorkloadId serde m₂ c₂)) ↔
      ¬ Confusable (DockerEngine.manifestName serde c₁) m₁
        (DockerEngine.manifestName serde c₂) m₂)) ∧
    (∀ succeeds host host' config info w, m₁ ≠ m₂ → w.info.manifestId = m₁ →
      host.workloads.lookup (MockEngine.generateWorkloadId serde m₁ c₁) = some w →
      MockEngine.deployWorkload serde succeeds host m₂ c₂ config = (.ok info, host') →
      (MockEngine.Keeps host host' (MockEngine.generateWorkloadId serde m₁ c₁) ↔
      ¬ Confusable (MockEngine.manifestName serde c₁) m₁ (MockEngine.manifestName serde c₂) m₂)) ∧
    ∀ succeeds host host' config peer info w, m₁ ≠ m₂ → w.info.manifestId = m₁ →
      host.workloads.lookup (MockEngine.generateWorkloadIdWithPeer serde m₁ c₁ peer) = some w →
      MockEngine.deployWorkloadWithPeer serde succeeds host m₂ c₂ config peer = (.ok info, host') →
      (MockEngine.Keeps host host' (MockEngine.generateWorkloadIdWithPeer serde m₁ c₁ peer) ↔
      ¬ Confusable (MockEngine.manifestName serde c₁) m₁
        (MockEngine.manifestName serde c₂) m₂) := by
  refine ⟨?docker, ?mock, ?withPeer, ?project, ?stored, ?storedWithPeer⟩
  case docker =>
    rw [DockerEngine.generateWorkloadId_eq_iff]
    exact dashed_identifies_iff
  case mock =>
    rw [MockEngine.generateWorkloadId_eq_iff]
    exact dashed_identifies_iff
  case withPeer =>
    intro peer
    rw [MockEngine.generateWorkloadIdWithPeer_eq_iff]
    exact dashed_identifies_iff
  case project =>
    intro config₁ config₂ hne
    rw [DockerEngine.composeProject_composeUp, DockerEngine.composeProject_composeUp, Ne,
      Option.some.injEq, Arg.text.injEq]
    exact ne_iff_of_dashed hne DockerEngine.generateWorkloadId_eq_iff
  case stored =>
    intro succeeds host host' config info w hne hw hlookup hdeploy
    obtain ⟨hinfo, hhost'⟩ := MockEngine.deployWorkload_eq_ok hdeploy
    have hother : w.info.manifestId ≠ info.manifestId := by rw [hw, hinfo]; exact hne
    rw [MockEngine.keeps_iff hlookup hother hhost']
    exact ne_iff_of_dashed hne MockEngine.generateWorkloadId_eq_iff
  case storedWithPeer =>
    intro succeeds host host' config peer info w hne hw hlookup hdeploy
    obtain ⟨hinfo, hhost'⟩ := MockEngine.deployWorkloadWithPeer_eq_ok hdeploy
    have hother : w.info.manifestId ≠ info.manifestId := by rw [hw, hinfo]; exact hne
    rw [MockEngine.keeps_iff hlookup hother hhost']
    exact ne_iff_of_dashed hne (MockEngine.generateWorkloadIdWithPeer_eq_iff peer)

/-! ## Two manifests with one workload id -/

/-- A compose file of one service, under a name. -/
def namedCompose (name : String) : String :=
  "services:\n  web:\n    image: nginx\nmetadata:\n  name: " ++ name ++ "\n"

def namedContent (name : String) : Bytes := (namedCompose name).toUTF8.data.toList

def namedDoc (name : String) : Yaml :=
  .mapping [(.string "services", .mapping [(.string "web", .mapping
    [(.string "image", .string "nginx")])]),
    (.string "metadata", .mapping [(.string "name", .string name)])]

/-- The document libraries on two such files. -/
def namedSerde : Serde where
  fromYaml text :=
    if text = namedCompose "web" then .ok (namedDoc "web")
    else if text = namedCompose "web-a" then .ok (namedDoc "web-a")
    else .error "not a manifest"
  toYaml _ := .error "not written"
  fromJson _ := .error "expected value"

/-- The mock engine, after a deployment on it. -/
def afterDeploying (host : MockHost) (m name : String) : MockHost :=
  (MockEngine.deployWorkload namedSerde (fun _ => true) host m (namedContent name) {}).2

/-- The manifest `a-b` of name `web` and the manifest `b` of name `web-a` have one workload id, with
both of the engines. On the mock engine the second takes the place of the first. -/
theorem workloadIds_confused :
    "a-b" ≠ "b" ∧
    DockerEngine.generateWorkloadId namedSerde "a-b" (namedContent "web") = "beemesh-web-a-b" ∧
    DockerEngine.generateWorkloadId namedSerde "b" (namedContent "web-a") = "beemesh-web-a-b" ∧
    MockEngine.generateWorkloadId namedSerde "a-b" (namedContent "web") = "mock-web-a-b" ∧
    MockEngine.generateWorkloadId namedSerde "b" (namedContent "web-a") = "mock-web-a-b" ∧
    (((afterDeploying {} "a-b" "web").workloads.lookup "mock-web-a-b").map
      fun w => w.info.manifestId) = some "a-b" ∧
    (((afterDeploying (afterDeploying {} "a-b" "web") "b" "web-a").workloads.lookup
      "mock-web-a-b").map fun w => w.info.manifestId) = some "b" := by
  decide

end Beemesh
