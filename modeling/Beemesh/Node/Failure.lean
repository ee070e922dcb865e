import Beemesh.Engine.Mock
import Beemesh.Node.Deployment

/-!
# Failures of an engine

What a node keeps when an engine fails it, or when there is none. A deployment has recorded its
owner before it knows whether there is an engine, so a failure leaves the new owner. A listing that
fails is taken for an empty one, so a failure leaves a node with nothing allocated.

## Main definitions

* `GoesTo`: a deployment gets as far as an engine
* `Unchanged`, `LeavesNoTrace`: owners, providers and workloads are as they were, and what it takes
* `listed`: the workloads that the default engine lists
* `AllocationSound`: the allocated resources follow the listing, or stay

## Main results

* `failed_deployment_unchanged_iff`: the failed deployments that change nothing
* `allocationSound_iff`: the updates of the allocated resources that can be relied on
-/

namespace Beemesh

variable {H W : Type}

/-! ## Deployments -/

/-- The deployment of `content` gets as far as `engine`, which is asked to deploy `text`. -/
def GoesTo (P : NodePlatform) (n : Node H) (content : Bytes) (engine : RuntimeEngine H)
    (text : Bytes) : Prop :=
  P.modifyManifestReplicas content = .ok text ∧ ∃ engineName registry,
    selectRuntimeEngine (P.runtimeEngineAnnotation text) n.registry n.host = .ok engineName ∧
    n.registry = some registry ∧ registry.getEngine engineName = some engine

/-- The owners, the provider entries and the workloads of `n'` are those of `n`. What counts as the
workloads of a host is up to `workloads`. -/
structure Unchanged (workloads : H → W) (n n' : Node H) : Prop where
  owners (m : String) : n'.owner m = n.owner m
  providers : n'.localProviders = n.localProviders
  workloads : workloads n'.host = workloads n.host

/-- A deployment of `content` has no effect if it fails: its key is none, or that of the recorded
owner, and the engine that it gets to leaves the workloads alone. -/
structure LeavesNoTrace (workloads : H → W) (P : NodePlatform) (n : Node H) (req : ApplyRequest)
    (content key : Bytes) : Prop where
  owner : key = [] ∨ n.owner (req.manifestId.getD "unknown") = some key
  engine {engine : RuntimeEngine H} {text : Bytes} (hgoes : GoesTo P n content engine text) :
    workloads (engine.deployWorkload n.host (req.manifestId.getD "unknown") text
      (createDeploymentConfig req)).2 = workloads n.host

/-- A deployment gets to one engine at most. -/
theorem GoesTo.unique {P : NodePlatform} {n : Node H} {content text text' : Bytes}
    {engine engine' : RuntimeEngine H} (h : GoesTo P n content engine text)
    (h' : GoesTo P n content engine' text') : engine' = engine ∧ text' = text := by
  obtain ⟨htext, name, registry, hname, hregistry, hengine⟩ := h
  obtain ⟨htext', name', registry', hname', hregistry', hengine'⟩ := h'
  obtain rfl : text' = text := Except.ok.inj (htext'.symm.trans htext)
  obtain rfl : name' = name := Except.ok.inj (hname'.symm.trans hname)
  obtain rfl : registry' = registry := Option.some.inj (hregistry'.symm.trans hregistry)
  exact ⟨Option.some.inj (hengine'.symm.trans hengine), rfl⟩

/-- Recording an owner does not change the way to an engine. -/
theorem goesTo_recordOwner {P : NodePlatform} {n : Node H} {content text : Bytes}
    {engine : RuntimeEngine H} (m : String) (key : Bytes) :
    GoesTo P (n.recordOwner m key) content engine text ↔ GoesTo P n content engine text := by
  simp only [GoesTo, recordOwner_registry, recordOwner_host]

/-- A deployment that fails has got to no engine, or to one that failed. -/
theorem deployManifest_error {P : NodePlatform} {n n' : Node H} {req : ApplyRequest}
    {content : Bytes} {e : String} (h : deployManifest P n req content = (.error e, n')) :
    (n' = n ∧ ∀ engine text, ¬ GoesTo P n content engine text) ∨
      ∃ engine text host, GoesTo P n content engine text ∧
        engine.deployWorkload n.host (req.manifestId.getD "unknown") text
          (createDeploymentConfig req) = (.error e, host) ∧ n' = { n with host := host } := by
  unfold deployManifest at h
  split at h
  · rename_i htext
    refine .inl ⟨(Prod.mk.inj h).2.symm, fun engine text hgoes => ?_⟩
    exact nomatch htext.symm.trans hgoes.1
  · rename_i text htext
    split at h
    · rename_i hselect
      refine .inl ⟨(Prod.mk.inj h).2.symm, ?_⟩
      rintro engine text' ⟨htext', name, -, hname, -⟩
      obtain rfl : text = text' := Except.ok.inj (htext.symm.trans htext')
      exact nomatch hselect.symm.trans hname
    · rename_i engineName hselect
      split at h
      · rename_i hregistry
        refine .inl ⟨(Prod.mk.inj h).2.symm, ?_⟩
        rintro engine text' ⟨-, -, registry, -, hsome, -⟩
        exact nomatch hregistry.symm.trans hsome
      · rename_i registry hregistry
        split at h
        · rename_i hengine
          refine .inl ⟨(Prod.mk.inj h).2.symm, ?_⟩
          rintro engine text' ⟨htext', name, registry', hname, hregistry', hsome⟩
          obtain rfl : text = text' := Except.ok.inj (htext.symm.trans htext')
          obtain rfl : engineName = name := Except.ok.inj (hselect.symm.trans hname)
          obtain rfl : registry = registry' := Option.some.inj (hregistry.symm.trans hregistry')
          exact nomatch hengine.symm.trans hsome
        · rename_i engine hengine
          split at h
          · rename_i e' host hdeploy
            obtain ⟨he, rfl⟩ := Prod.mk.inj h
            obtain rfl : e' = e := Except.error.inj he
            have hgoes : GoesTo P n content engine text :=
              ⟨htext, engineName, registry, hselect, hregistry, hengine⟩
            exact .inr ⟨engine, text, host, hgoes, hdeploy, rfl⟩
          · exact nomatch (Prod.mk.inj h).1

/-- A deployment fails with the engine it gets to. -/
theorem deployManifest_of_fails {P : NodePlatform} {n : Node H} {req : ApplyRequest}
    {content text : Bytes} {engine : RuntimeEngine H} {e : String} {host : H}
    (hgoes : GoesTo P n content engine text)
    (hfails : engine.deployWorkload n.host (req.manifestId.getD "unknown") text
      (createDeploymentConfig req) = (.error e, host)) :
    deployManifest P n req content = (.error e, { n with host := host }) := by
  obtain ⟨htext, engineName, registry, hselect, hregistry, hengine⟩ := hgoes
  unfold deployManifest
  rw [htext]
  simp only [hselect]
  rw [hregistry]
  simp only [hengine, hfails]

/-- The node that records an owner is unchanged when it had no other one. -/
theorem recordOwner_owners_iff (n : Node H) (m : String) (key : Bytes) :
    (∀ m', (n.recordOwner m key).owner m' = n.owner m') ↔ key = [] ∨ n.owner m = some key := by
  simp only [recordOwner_owner]
  constructor
  · intro h
    by_cases hkey : key = []
    · exact .inl hkey
    · exact .inr (by simpa [hkey] using (h m).symm)
  · rintro (hkey | howner) m'
    · simp [hkey]
    · rcases eq_or_ne m' m with rfl | hm
      · split_ifs
        · exact howner.symm
        · rfl
      · simp [hm]

section Deployment

variable (workloads : H → W) (P : NodePlatform) (n : Node H) (req : ApplyRequest)

/-- A deployment that fails after its manifest is decrypted. -/
theorem failed_deployManifest_unchanged_iff {content key : Bytes} {e : String} {n' : Node H}
    (h : deployManifest P (n.recordOwner (req.manifestId.getD "unknown") key) req content =
      (.error e, n')) :
    Unchanged workloads n n' ↔ LeavesNoTrace workloads P n req content key := by
  have howners := recordOwner_owners_iff n (req.manifestId.getD "unknown") key
  rcases deployManifest_error h with ⟨rfl, hnone⟩ | ⟨engine, text, host, hgoes, hdeploy, rfl⟩
  · simp only [goesTo_recordOwner] at hnone
    constructor
    · intro hsame
      exact ⟨howners.mp hsame.owners, fun hgoes => absurd hgoes (hnone _ _)⟩
    · intro htrace
      exact ⟨howners.mpr htrace.owner, recordOwner_localProviders n _ key,
        congrArg workloads (recordOwner_host n _ key)⟩
  · rw [goesTo_recordOwner] at hgoes
    rw [recordOwner_host] at hdeploy
    have hhost : (engine.deployWorkload n.host (req.manifestId.getD "unknown") text
        (createDeploymentConfig req)).2 = host := congrArg Prod.snd hdeploy
    constructor
    · intro hsame
      refine ⟨howners.mp hsame.owners, fun hgoes' => ?_⟩
      obtain ⟨rfl, rfl⟩ := hgoes.unique hgoes'
      rw [hhost]
      exact hsame.workloads
    · intro htrace
      exact ⟨howners.mpr htrace.owner, recordOwner_localProviders n _ key,
        hhost ▸ htrace.engine hgoes⟩

/-- **A failed deployment changes nothing** if and only if its manifest did not decrypt, or its key
is none or that of the recorded owner and the engine it got to, if any, left the workloads alone. -/
theorem failed_deployment_unchanged_iff (manifestJson : String) (key : Bytes)
    (hfailed : ∃ e, (processManifestDeployment P n req manifestJson key).1 = .error e) :
    Unchanged workloads n (processManifestDeployment P n req manifestJson key).2 ↔
      ∀ content, P.decryptManifestContent manifestJson = .ok content →
        LeavesNoTrace workloads P n req content key := by
  rw [processManifestDeployment_eq] at hfailed ⊢
  cases hdecrypt : P.decryptManifestContent manifestJson with
  | error e =>
    simp only [reduceCtorEq, false_implies, implies_true, iff_true]
    exact ⟨fun _ => rfl, rfl, rfl⟩
  | ok content =>
    simp only [hdecrypt] at hfailed
    obtain ⟨e, he⟩ := hfailed
    simp only [Except.ok.injEq, forall_eq']
    exact failed_deployManifest_unchanged_iff workloads P n req (e := e) (Prod.ext he rfl)

end Deployment

/-- The document libraries, on the text of the pod manifest. -/
def podSerde : Serde where
  fromYaml _ :=
    .ok (.mapping [(.string "apiVersion", .string "v1"), (.string "kind", .string "Pod")])
  toYaml _ := .ok podYaml
  fromJson _ := .error "expected value"

/-- A mock engine that lets every deployment fail. -/
def failingMock : RuntimeEngine MockHost := MockEngine.engine podSerde fun _ => false

/-- A node with this engine, on which key `7` owns manifest `m`. -/
def failingNode : Node MockHost where
  localPeer := "node"
  schedulingDisabled := false
  signingPubkey := []
  verifier := ⟨fourCoreNode, ∅⟩
  nonceStore := ∅
  manifestOwners := (∅ : Table String Bytes).insert "m" [7]
  registry := some
    { engines := (∅ : Table String (RuntimeEngine MockHost)).insert "mock" failingMock
      defaultEngine := some "mock" }
  localProviders := some ∅
  pendingQueries := ∅
  deleteTasks := []
  host := {}
  now := 0

theorem trusting_decryptManifestContent :
    trusting.decryptManifestContent podManifest = .ok podYaml.toUTF8.data.toList :=
  referenceNodePlatform_decryptManifestContent _ rfl rfl

/-- The engine fails every deployment, and leaves its host. -/
theorem failingMock_fails (host : MockHost) (m : String) (text : Bytes)
    (config : DeploymentConfig) :
    ∃ e, failingMock.deployWorkload host m text config = (.error e, host) := by
  change ∃ e, displayed (MockEngine.deployWorkload podSerde (fun _ => false) host m text config) = _
  rw [MockEngine.deployWorkload]
  split
  · exact ⟨_, rfl⟩
  · exact ⟨_, rfl⟩

/-- The owner of `m` applies it once more, and the engine fails. -/
theorem failed_deployment_unchanged_reference :
    let out := processManifestDeployment trusting failingNode (applyPod "m") podManifest [7]
    (∃ e, out.1 = .error e) ∧ Unchanged id failingNode out.2 := by
  intro out
  have hgoes (text : Bytes) : GoesTo trusting (failingNode.recordOwner "m" [7]) text failingMock
      text :=
    ⟨rfl, "mock", _, rfl, rfl, rfl⟩
  have hfailed : ∃ e, out.1 = .error e := by
    have hdeploy : out = deployManifest trusting (failingNode.recordOwner "m" [7]) (applyPod "m")
        podYaml.toUTF8.data.toList := by
      change processManifestDeployment trusting failingNode (applyPod "m") podManifest [7] = _
      rw [processManifestDeployment_eq, trusting_decryptManifestContent]
      rfl
    obtain ⟨e, hfails⟩ := failingMock_fails (failingNode.recordOwner "m" [7]).host
      ((applyPod "m").manifestId.getD "unknown") podYaml.toUTF8.data.toList
      (createDeploymentConfig (applyPod "m"))
    rw [hdeploy, deployManifest_of_fails (hgoes _) hfails]
    exact ⟨e, rfl⟩
  have howner : failingNode.owner "m" = some [7] := AList.lookup_insert _
  refine ⟨hfailed, (failed_deployment_unchanged_iff id trusting failingNode (applyPod "m")
    podManifest [7] hfailed).mpr fun content _ => ⟨.inr howner, ?_⟩⟩
  rintro engine text ⟨-, name, registry, -, hregistry, hengine⟩
  obtain rfl := Option.some.inj hregistry
  obtain ⟨-, rfl⟩ := AList.lookup_insert_empty.mp hengine
  obtain ⟨e, hfails⟩ := failingMock_fails failingNode.host _ text _
  exact congrArg Prod.snd hfails

/-- Key `9` owns manifest `m`, and key `7` applies it on a node without engines: the deployment
fails, and `7` is the owner. -/
theorem failed_deployment_takes_over :
    let n : Node Pods :=
      { blankNode with manifestOwners := (∅ : Table String Bytes).insert "m" [9] }
    let out := processManifestDeployment trusting n (applyPod "m") podManifest [7]
    out.1 = .error "No suitable runtime engine available" ∧ n.owner "m" = some [9] ∧
      out.2.owner "m" = some [7] ∧ ¬ Unchanged id n out.2 := by
  intro n out
  have hout : out = (.error "No suitable runtime engine available", n.recordOwner "m" [7]) := by
    change processManifestDeployment trusting n (applyPod "m") podManifest [7] = _
    rw [processManifestDeployment_eq, trusting_decryptManifestContent]
    rfl
  have howner : out.2.owner "m" = some [7] := by
    rw [hout]
    decide
  refine ⟨by rw [hout], by decide, howner, fun hsame => ?_⟩
  have hkept : out.2.owner "m" = some [9] := (hsame.owners "m").trans (by decide)
  exact absurd (howner.symm.trans hkept) (by decide)

/-! ## Listings -/

/-- The workloads that the default engine lists, if there is one and its listing succeeds. -/
def listed (registry : Option (RuntimeRegistry H)) (host : H) : Option (List WorkloadInfo) :=
  (registry.bind RuntimeRegistry.getDefaultEngine).bind fun engine =>
    (engine.listWorkloads host).toOption

/-- The amounts under `key` in the metadata of the workloads, where they parse. -/
def parsedAmounts (w : ℕ) (key : String) (workloads : List WorkloadInfo) : List (BitVec w) :=
  workloads.filterMap fun workload => (workload.metadata.lookup key).bind (parseUnsigned w)

/-- The exact sum of words, cut at the largest one. -/
def saturatedSum {w : ℕ} (amounts : List (BitVec w)) : ℕ :=
  min (amounts.map BitVec.toNat).sum (2 ^ w - 1)

/-- The allocated resources and the number of workloads are those of `workloads`. -/
structure AllocatedTo (workloads : List WorkloadInfo) (s : SystemResources) : Prop where
  cpu : s.allocatedCpuMilli.toNat = saturatedSum (parsedAmounts 32 "cpu_milli" workloads)
  memory : s.allocatedMemoryBytes.toNat = saturatedSum (parsedAmounts 64 "memory_bytes" workloads)
  storage :
    s.allocatedStorageBytes.toNat = saturatedSum (parsedAmounts 64 "storage_bytes" workloads)
  count : s.runningWorkloads.toNat = workloads.length

/-- Nothing is allocated, and nothing runs. -/
structure NothingAllocated (s : SystemResources) : Prop where
  cpu : s.allocatedCpuMilli = 0
  memory : s.allocatedMemoryBytes = 0
  storage : s.allocatedStorageBytes = 0
  count : s.runningWorkloads = 0

/-- The allocated resources and the number of workloads of `s'` are those of `s`. -/
structure SameAllocation (s s' : SystemResources) : Prop where
  cpu : s'.allocatedCpuMilli = s.allocatedCpuMilli
  memory : s'.allocatedMemoryBytes = s.allocatedMemoryBytes
  storage : s'.allocatedStorageBytes = s.allocatedStorageBytes
  count : s'.runningWorkloads = s.runningWorkloads

/-- The allocated resources of `s'` follow the listing, and without one they are those of `s`. -/
structure AllocationSound (listing : Option (List WorkloadInfo)) (s s' : SystemResources) :
    Prop where
  failed (h : listing = none) : SameAllocation s s'
  succeeded {workloads : List WorkloadInfo} (h : listing = some workloads) :
    AllocatedTo workloads s'

/-- The resources with those of `workloads` allocated. -/
def allocate (workloads : List WorkloadInfo) (s : SystemResources) : SystemResources :=
  { s with
    allocatedCpuMilli := workloads.foldl (fun total w =>
      total.saturatingAdd (metadataAmount 32 w "cpu_milli")) 0
    allocatedMemoryBytes := workloads.foldl (fun total w =>
      total.saturatingAdd (metadataAmount 64 w "memory_bytes")) 0
    allocatedStorageBytes := workloads.foldl (fun total w =>
      total.saturatingAdd (metadataAmount 64 w "storage_bytes")) 0
    runningWorkloads := workloads.foldl (fun total _ => total + 1) 0 }

/-- With a registry, an update takes a listing that fails for an empty one. -/
theorem updateAllocatedResources_eq (registry : RuntimeRegistry H) (host : H)
    (s : SystemResources) :
    updateAllocatedResources (some registry) host s =
      allocate ((listed (some registry) host).getD []) s := by
  unfold updateAllocatedResources listed
  cases hengine : registry.getDefaultEngine with
  | none => simp [hengine, allocate]
  | some engine =>
    cases hlist : engine.listWorkloads host with
    | error e => simp [hengine, hlist, allocate, Except.toOption]
    | ok workloads => simp [hengine, hlist, allocate, Except.toOption]

/-- What does not parse adds nothing. -/
theorem sum_metadataAmount (w : ℕ) (key : String) (workloads : List WorkloadInfo) :
    (workloads.map fun workload => (metadataAmount w workload key).toNat).sum =
      ((parsedAmounts w key workloads).map BitVec.toNat).sum := by
  induction workloads with
  | nil => rfl
  | cons workload workloads ih =>
    rw [List.map_cons, List.sum_cons, ih]
    simp only [parsedAmounts, List.filterMap_cons, metadataAmount]
    cases (workload.metadata.lookup key).bind (parseUnsigned w) with
    | none => simp
    | some amount => simp

/-- A total over the metadata of the workloads. -/
theorem toNat_foldl_metadataAmount (w : ℕ) (key : String) (workloads : List WorkloadInfo) :
    (workloads.foldl (fun total workload =>
      total.saturatingAdd (metadataAmount w workload key)) (0 : BitVec w)).toNat =
      saturatedSum (parsedAmounts w key workloads) := by
  rw [BitVec.toNat_foldl_saturatingAdd, sum_metadataAmount, saturatedSum]
  simp

/-- The counter wraps around. -/
theorem toNat_foldl_count {α : Type} (l : List α) (count : U32) :
    (l.foldl (fun total _ => total + 1) count).toNat = (count.toNat + l.length) % 2 ^ 32 := by
  induction l generalizing count with
  | nil => exact (Nat.mod_eq_of_lt count.isLt).symm
  | cons x l ih =>
    have hone : (1 : U32).toNat = 1 := rfl
    rw [List.foldl_cons, ih, BitVec.toNat_add, List.length_cons, hone]
    omega

/-- The workloads are allocated, unless there are too many to count. -/
theorem allocatedTo_allocate_iff (workloads : List WorkloadInfo) (s : SystemResources) :
    AllocatedTo workloads (allocate workloads s) ↔ workloads.length < 2 ^ 32 := by
  have hcount : (allocate workloads s).runningWorkloads.toNat = workloads.length % 2 ^ 32 := by
    change (workloads.foldl (fun total _ => total + 1) (0 : U32)).toNat = _
    have hzero : (0 : U32).toNat = 0 := rfl
    rw [toNat_foldl_count, hzero, Nat.zero_add]
  constructor
  · intro h
    rw [← h.count]
    exact BitVec.isLt _
  · intro h
    exact ⟨toNat_foldl_metadataAmount 32 _ workloads, toNat_foldl_metadataAmount 64 _ workloads,
      toNat_foldl_metadataAmount 64 _ workloads, hcount.trans (Nat.mod_eq_of_lt h)⟩

/-- **An update of the allocated resources can be relied on** if and only if there is no registry,
or the listing succeeds with fewer workloads than a word can count, or nothing was allocated. -/
theorem allocationSound_iff (registry : Option (RuntimeRegistry H)) (host : H)
    (s : SystemResources) :
    AllocationSound (listed registry host) s (updateAllocatedResources registry host s) ↔
      (listed registry host = none → registry = none ∨ NothingAllocated s) ∧
        ∀ workloads, listed registry host = some workloads → workloads.length < 2 ^ 32 := by
  cases registry with
  | none =>
    have hlisted : listed (none : Option (RuntimeRegistry H)) host = none := rfl
    rw [hlisted]
    refine iff_of_true ⟨fun _ => ⟨rfl, rfl, rfl, rfl⟩, fun h => nomatch h⟩ ?_
    exact ⟨fun _ => .inl rfl, fun _ h => nomatch h⟩
  | some registry =>
    rw [updateAllocatedResources_eq]
    cases hlisted : listed (some registry) host with
    | none =>
      constructor
      · intro h
        obtain ⟨hcpu, hmemory, hstorage, hcount⟩ := h.failed rfl
        exact ⟨fun _ => .inr ⟨hcpu.symm, hmemory.symm, hstorage.symm, hcount.symm⟩,
          fun _ h => nomatch h⟩
      · rintro ⟨h, -⟩
        obtain hnone | ⟨hcpu, hmemory, hstorage, hcount⟩ := h rfl
        · exact nomatch hnone
        · exact ⟨fun _ => ⟨hcpu.symm, hmemory.symm, hstorage.symm, hcount.symm⟩, fun h => nomatch h⟩
    | some workloads =>
      constructor
      · intro h
        refine ⟨fun hnone => (nomatch hnone), fun workloads' hsome => ?_⟩
        obtain rfl := Option.some.inj hsome
        exact (allocatedTo_allocate_iff workloads s).mp (h.succeeded rfl)
      · rintro ⟨-, h⟩
        refine ⟨fun hnone => (nomatch hnone), fun hsome => ?_⟩
        obtain rfl := Option.some.inj hsome
        exact (allocatedTo_allocate_iff workloads s).mpr (h workloads rfl)

/-- A node with one core in use loses sight of it when podman does not answer. -/
theorem failed_listing_erases_allocation :
    let registry := some (faultyRegistry fun call => call = .list "podman")
    let s := { fourCoreNode with allocatedCpuMilli := 1000, runningWorkloads := 1 }
    let after := updateAllocatedResources registry ∅ s
    listed registry ∅ = none ∧ after.allocatedCpuMilli = 0 ∧ after.runningWorkloads = 0 ∧
      ¬ AllocationSound (listed registry ∅) s after := by
  intro registry s after
  have hlisted : listed registry ∅ = none := rfl
  refine ⟨hlisted, rfl, rfl, fun h => ?_⟩
  exact absurd (h.failed hlisted).cpu (by decide)

end Beemesh
