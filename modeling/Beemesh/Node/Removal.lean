import Beemesh.Node.Reference

/-!
# Deletion

What `remove_workloads_by_manifest_id` and `process_delete_request` do on engines that hold
workloads by id, for any pattern of calls that fail. The removal loop goes on after a failure, and
counts it; the provider entry goes in any case, the owner when nothing failed, and the answer is a
success.

## Main definitions

* `EngineCall`, `Holds`: engines that hold workloads, and the calls to them that fail
* `removable`, `unremovable`: the workloads that a removal takes away, and fails on
* `Node.owner`, `Node.provider`: the bookkeeping of a manifest
* `Authorized`: the delete tasks that go ahead
* `DeleteSound`: an answer that can be relied on

## Main results

* `removeWorkloads_spec`: the removal loop, for any failures
* `processDeleteRequest_of_authorized`: an authorized task is a removal
* `removeWorkloadsByManifestId_exact`: without failures a removal takes the workloads of the
  manifest and its bookkeeping, and nothing else
* `deleteSound_iff`: when the answer to a delete request can be relied on
-/

namespace Beemesh

variable {H : Type}

/-! ## Engines -/

/-- A call of the removal loop to an engine. -/
inductive EngineCall
  | list (engine : String)
  | remove (engine id : String)
  deriving DecidableEq

/-- The engines of `registry` hold the workloads `entries`, each under an id of its own, and the
calls that `fails` names fail. A removal that succeeds takes the entry with that id, and one that
fails takes nothing. -/
structure RuntimeRegistry.Holds (registry : RuntimeRegistry H)
    (entries : String → H → List WorkloadInfo) (fails : EngineCall → Bool) : Prop where
  ids_nodup (name : String) (host : H) : ((entries name host).map WorkloadInfo.id).Nodup
  list_ok {name : String} {engine : RuntimeEngine H}
    (hengine : registry.getEngine name = some engine) (hok : fails (.list name) = false)
    (host : H) : engine.listWorkloads host = .ok (entries name host)
  list_error {name : String} {engine : RuntimeEngine H}
    (hengine : registry.getEngine name = some engine) (hfails : fails (.list name) = true)
    (host : H) : ∃ e, engine.listWorkloads host = .error e
  remove_ok {name : String} {engine : RuntimeEngine H}
    (hengine : registry.getEngine name = some engine) {host : H} {w : WorkloadInfo}
    (hw : w ∈ entries name host) (hok : fails (.remove name w.id) = false) :
    ∃ host', engine.removeWorkload host w.id = (.ok (), host') ∧
      (∀ other ≠ name, entries other host' = entries other host) ∧
      ∀ w', w' ∈ entries name host' ↔ w' ∈ entries name host ∧ w'.id ≠ w.id
  remove_error {name : String} {engine : RuntimeEngine H}
    (hengine : registry.getEngine name = some engine) {host : H} {w : WorkloadInfo}
    (hw : w ∈ entries name host) (hfails : fails (.remove name w.id) = true) :
    ∃ e host', engine.removeWorkload host w.id = (.error e, host') ∧
      ∀ other, entries other host' = entries other host

/-- The removal of manifest `m` takes the workload `w` away from engine `name`. -/
def removable (fails : EngineCall → Bool) (m name : String) (w : WorkloadInfo) : Bool :=
  w.manifestId = m && !fails (.list name) && !fails (.remove name w.id)

/-- The removal of manifest `m` tries the workload `w` of engine `name`, and fails. -/
def unremovable (fails : EngineCall → Bool) (m name : String) (w : WorkloadInfo) : Bool :=
  w.manifestId = m && !fails (.list name) && fails (.remove name w.id)

/-- The ids that the removal of `m` takes away from engine `name`. -/
def removedIds (entries : String → H → List WorkloadInfo) (fails : EngineCall → Bool) (m : String)
    (host : H) (name : String) : List String :=
  ((entries name host).filter (removable fails m name)).map WorkloadInfo.id

/-- The errors that the removal of `m` meets on engine `name`. -/
def removalErrors (entries : String → H → List WorkloadInfo) (fails : EngineCall → Bool)
    (m : String) (host : H) (name : String) : List String :=
  (if fails (.list name) then ["list:" ++ name] else []) ++
    ((entries name host).filter (unremovable fails m name)).map fun w => name ++ ":" ++ w.id

/-! ## The removal loop -/

section Loop

variable {registry : RuntimeRegistry H} {entries : String → H → List WorkloadInfo}
  {fails : EngineCall → Bool}

/-- Entries of one engine with one id are one entry. -/
theorem RuntimeRegistry.Holds.eq_of_id (h : registry.Holds entries fails) {name : String} {host : H}
    {w w' : WorkloadInfo} (hw : w ∈ entries name host) (hw' : w' ∈ entries name host)
    (hid : w.id = w'.id) : w = w' :=
  List.inj_on_of_nodup_map (h.ids_nodup name host) hw hw' hid

/-- One workload that engine `name` listed and still holds. -/
theorem workload_spec (h : registry.Holds entries fails) (m : String) {name : String}
    {engine : RuntimeEngine H} (hengine : registry.getEngine name = some engine)
    (hlist : fails (.list name) = false) (r : Removal H) {w : WorkloadInfo}
    (hw : w ∈ entries name r.host) :
    let r' := Removal.workload engine name m r w
    r'.removed = r.removed ++ ([w].filter (removable fails m name)).map WorkloadInfo.id ∧
      r'.errors = r.errors ++
        ([w].filter (unremovable fails m name)).map (fun w => name ++ ":" ++ w.id) ∧
      (∀ other ≠ name, entries other r'.host = entries other r.host) ∧
      ∀ w', w' ∈ entries name r'.host ↔
        w' ∈ entries name r.host ∧ (w' = w → removable fails m name w' = false) := by
  by_cases hm : w.manifestId = m
  · cases hremove : fails (.remove name w.id) with
    | false =>
      obtain ⟨host', hcall, hothers, hentries⟩ := h.remove_ok hengine hw hremove
      have hin : removable fails m name w = true := by simp [removable, hm, hlist, hremove]
      have hout : unremovable fails m name w = false := by simp [unremovable, hremove]
      simp only [Removal.workload, hm, if_true, hcall]
      refine ⟨by simp [hin], by simp [hout], hothers, fun w' => ?_⟩
      rw [hentries w']
      refine and_congr_right fun hw' => ⟨?_, ?_⟩
      · rintro hid rfl
        exact absurd rfl hid
      · intro hne hid
        obtain rfl : w' = w := h.eq_of_id hw' hw hid
        exact nomatch hin.symm.trans (hne rfl)
    | true =>
      obtain ⟨e, host', hcall, hentries⟩ := h.remove_error hengine hw hremove
      have hin : removable fails m name w = false := by simp [removable, hremove]
      have hout : unremovable fails m name w = true := by simp [unremovable, hm, hlist, hremove]
      simp only [Removal.workload, hm, if_true, hcall]
      refine ⟨by simp [hin], by simp [hout], fun other _ => hentries other, fun w' => ?_⟩
      rw [hentries name]
      exact ⟨fun hw' => ⟨hw', fun heq => heq ▸ hin⟩, And.left⟩
  · have hin : removable fails m name w = false := by simp [removable, hm]
    have hout : unremovable fails m name w = false := by simp [unremovable, hm]
    simp only [Removal.workload, hm, if_false]
    refine ⟨by simp [hin], by simp [hout], fun _ _ => trivial, fun w' => ?_⟩
    exact ⟨fun hw' => ⟨hw', fun heq => heq ▸ hin⟩, And.left⟩

/-- The loop over a snapshot of workloads that engine `name` still holds. -/
theorem foldl_workload_spec (h : registry.Holds entries fails) (m : String) {name : String}
    {engine : RuntimeEngine H} (hengine : registry.getEngine name = some engine)
    (hlist : fails (.list name) = false) (ws : List WorkloadInfo) (r : Removal H)
    (hnodup : ws.Nodup) (hws : ∀ w ∈ ws, w ∈ entries name r.host) :
    let r' := ws.foldl (Removal.workload engine name m) r
    r'.removed = r.removed ++ (ws.filter (removable fails m name)).map WorkloadInfo.id ∧
      r'.errors = r.errors ++
        (ws.filter (unremovable fails m name)).map (fun w => name ++ ":" ++ w.id) ∧
      (∀ other ≠ name, entries other r'.host = entries other r.host) ∧
      ∀ w', w' ∈ entries name r'.host ↔
        w' ∈ entries name r.host ∧ (w' ∈ ws → removable fails m name w' = false) := by
  induction ws generalizing r with
  | nil => simp
  | cons w ws ih =>
    rw [List.nodup_cons] at hnodup
    obtain ⟨hremoved, herrors, hothers, hentries⟩ :=
      workload_spec h m hengine hlist r (hws w (by simp))
    -- The rest of the snapshot is other workloads, so the engine still holds them.
    have hrest : ∀ w' ∈ ws, w' ∈ entries name (Removal.workload engine name m r w).host :=
      fun w' hw' => (hentries w').mpr
        ⟨hws w' (by simp [hw']), fun heq => absurd (heq ▸ hw') hnodup.1⟩
    obtain ⟨hremoved', herrors', hothers', hentries'⟩ := ih _ hnodup.2 hrest
    refine ⟨?_, ?_, fun other hother => ?_, fun w' => ?_⟩
    · rw [List.foldl_cons, hremoved', hremoved, List.append_assoc, ← List.map_append,
        ← List.filter_append, List.singleton_append]
    · rw [List.foldl_cons, herrors', herrors, List.append_assoc, ← List.map_append,
        ← List.filter_append, List.singleton_append]
    · rw [List.foldl_cons, hothers' other hother, hothers other hother]
    · rw [List.foldl_cons, hentries', hentries, List.mem_cons, and_assoc, or_imp]

/-- One engine. -/
theorem engine_spec (h : registry.Holds entries fails) (m : String) (r : Removal H)
    {e : Sigma fun _ : String => RuntimeEngine H} (he : registry.getEngine e.1 = some e.2) :
    let r' := Removal.engine m r e
    r'.removed = r.removed ++ removedIds entries fails m r.host e.1 ∧
      r'.errors = r.errors ++ removalErrors entries fails m r.host e.1 ∧
      (∀ other ≠ e.1, entries other r'.host = entries other r.host) ∧
      ∀ w', w' ∈ entries e.1 r'.host ↔
        w' ∈ entries e.1 r.host ∧ removable fails m e.1 w' = false := by
  cases hlist : fails (.list e.1) with
  | false =>
    obtain ⟨hremoved, herrors, hothers, hentries⟩ := foldl_workload_spec h m he hlist
      (entries e.1 r.host) r (h.ids_nodup e.1 r.host).of_map fun _ hw => hw
    simp only [Removal.engine, h.list_ok he hlist, removalErrors, hlist]
    refine ⟨hremoved, by simpa using herrors, hothers, fun w' => ?_⟩
    rw [hentries w']
    exact ⟨fun hw' => ⟨hw'.1, hw'.2 hw'.1⟩, fun hw' => ⟨hw'.1, fun _ => hw'.2⟩⟩
  | true =>
    obtain ⟨error, hcall⟩ := h.list_error he hlist r.host
    -- An engine that does not list its workloads keeps them all.
    have hin (w : WorkloadInfo) : removable fails m e.1 w = false := by simp [removable, hlist]
    have hout (w : WorkloadInfo) : unremovable fails m e.1 w = false := by simp [unremovable, hlist]
    simp [Removal.engine, hcall, removedIds, removalErrors, hlist, hin, hout]

/-- The loop over engines of different names. -/
theorem foldl_engine_spec (h : registry.Holds entries fails) (m : String)
    (es : List (Sigma fun _ : String => RuntimeEngine H)) (r : Removal H)
    (hnodup : es.keys.Nodup) (hes : ∀ e ∈ es, registry.getEngine e.1 = some e.2) :
    let r' := es.foldl (Removal.engine m) r
    r'.removed = r.removed ++ es.keys.flatMap (removedIds entries fails m r.host) ∧
      r'.errors = r.errors ++ es.keys.flatMap (removalErrors entries fails m r.host) ∧
      (∀ other ∉ es.keys, entries other r'.host = entries other r.host) ∧
      ∀ name ∈ es.keys, ∀ w', w' ∈ entries name r'.host ↔
        w' ∈ entries name r.host ∧ removable fails m name w' = false := by
  induction es generalizing r with
  | nil => simp
  | cons e es ih =>
    rw [List.keys_cons, List.nodup_cons] at hnodup
    obtain ⟨hremoved, herrors, hothers, hentries⟩ := engine_spec h m r (hes e (by simp))
    obtain ⟨hremoved', herrors', hothers', hentries'⟩ :=
      ih (Removal.engine m r e) hnodup.2 fun e' he' => hes e' (by simp [he'])
    -- The engines that come later hold what they held at the start.
    have hlater : ∀ name ∈ es.keys,
        entries name (Removal.engine m r e).host = entries name r.host := by
      intro name hname
      refine hothers name ?_
      rintro rfl
      exact hnodup.1 hname
    have hids : es.keys.flatMap (removedIds entries fails m (Removal.engine m r e).host) =
        es.keys.flatMap (removedIds entries fails m r.host) :=
      List.flatMap_congr fun name hname => by rw [removedIds, removedIds, hlater name hname]
    have herrs : es.keys.flatMap (removalErrors entries fails m (Removal.engine m r e).host) =
        es.keys.flatMap (removalErrors entries fails m r.host) :=
      List.flatMap_congr fun name hname => by
        rw [removalErrors, removalErrors, hlater name hname]
    refine ⟨?_, ?_, fun other hother => ?_, fun name hname w' => ?_⟩
    · rw [List.foldl_cons, hremoved', hremoved, hids, List.keys_cons, List.flatMap_cons,
        List.append_assoc]
    · rw [List.foldl_cons, herrors', herrors, herrs, List.keys_cons, List.flatMap_cons,
        List.append_assoc]
    · rw [List.keys_cons, List.mem_cons, not_or] at hother
      rw [List.foldl_cons, hothers' other hother.2, hothers other hother.1]
    · rw [List.foldl_cons]
      rcases List.mem_cons.mp hname with rfl | hname
      · rw [hothers' _ hnodup.1]
        exact hentries w'
      · rw [hentries' name hname, hlater name hname]

/-- **The removal loop**, for any failures: what it removes and the errors it meets, engine by
engine, and what it leaves. -/
theorem removeWorkloads_spec (h : registry.Holds entries fails) (host : H) (m : String) :
    let r := removeWorkloads registry host m
    r.removed = registry.engines.keys.flatMap (removedIds entries fails m host) ∧
      r.errors = registry.engines.keys.flatMap (removalErrors entries fails m host) ∧
      (∀ other ∉ registry.engines, entries other r.host = entries other host) ∧
      ∀ name ∈ registry.engines, ∀ w', w' ∈ entries name r.host ↔
        w' ∈ entries name host ∧ removable fails m name w' = false :=
  foldl_engine_spec h m registry.engines.entries ⟨host, [], []⟩ registry.engines.nodupKeys
    fun _ he => AList.mem_entries_iff.mp he

end Loop

/-! ## The bookkeeping of a manifest -/

/-- The recorded owner of `m`. -/
def Node.owner (n : Node H) (m : String) : Option Bytes := n.manifestOwners.lookup m

/-- The local provider entry of `m`. -/
def Node.provider (n : Node H) (m : String) : Option (Table String String) :=
  n.localProviders.bind (·.lookup m)

/-- A delete task goes ahead: there is an owner, which signed the request or is overridden. -/
def Authorized (n : Node H) (task : DeleteTask) : Prop :=
  ∃ owner, n.owner task.manifestId = some owner ∧ owner ≠ [] ∧
    (owner = task.envelopePubkey ∨ task.force = true)

/-- The answer to a delete request reports a success. -/
def Handled.succeeded (h : Handled H) : Bool :=
  match h.response with
  | some (.deleteResponse ok _ _ _ _) => ok
  | _ => false

/-- The provider entries after that of `m` is withdrawn. -/
theorem lookup_map_erase (providers : Option (Table String (Table String String))) (m m' : String) :
    (providers.map (·.erase m)).bind (·.lookup m') =
      if m' = m then none else providers.bind (·.lookup m') := by
  cases providers with
  | none => simp
  | some providers =>
    rcases eq_or_ne m' m with rfl | hm
    · simp [AList.lookup_erase]
    · simp [hm, AList.lookup_erase_ne hm]

section Bookkeeping

variable {n : Node H} {registry : RuntimeRegistry H} {m : String}

/-- What a removal does to a node with a registry. -/
theorem removeWorkloadsByManifestId_of_registry (hregistry : n.registry = some registry) :
    let removal := removeWorkloads registry n.host m
    let out := removeWorkloadsByManifestId n m
    out.1 = .ok removal.removed ∧ out.2.host = removal.host ∧
      (∀ m', out.2.provider m' = if m' = m then none else n.provider m') ∧
      ∀ m', out.2.owner m' = if m' = m ∧ removal.errors = [] then none else n.owner m' := by
  simp only [removeWorkloadsByManifestId, hregistry]
  refine ⟨trivial, trivial, fun m' => lookup_map_erase n.localProviders m m', fun m' => ?_⟩
  · simp only [Node.owner]
    by_cases herrors : (removeWorkloads registry n.host m).errors = []
    · rcases eq_or_ne m' m with rfl | hm
      · simp [herrors, AList.lookup_erase]
      · simp [herrors, hm, AList.lookup_erase_ne hm]
    · simp [herrors]

/-- The tasks that go ahead, by the status of their ownership. -/
theorem authorized_iff {task : DeleteTask} :
    Authorized n task ↔
      verifyDeleteOwnership n task.manifestId task.envelopePubkey = .match ∨
        verifyDeleteOwnership n task.manifestId task.envelopePubkey = .mismatch ∧
          task.force = true := by
  simp only [Authorized, Node.owner, verifyDeleteOwnership]
  cases n.manifestOwners.lookup task.manifestId with
  | none => simp
  | some owner =>
    by_cases hempty : owner = []
    · simp [hempty]
    · by_cases hsigner : owner = task.envelopePubkey
      · subst hsigner
        simp [hempty]
      · simp [hempty, hsigner]

/-- An authorized task is a removal. -/
theorem processDeleteRequest_of_authorized {task : DeleteTask} (h : Authorized n task)
    (hregistry : n.registry = some registry) :
    (processDeleteRequest n task).node = (removeWorkloadsByManifestId n task.manifestId).2 ∧
      (processDeleteRequest n task).succeeded = true := by
  have hok := (removeWorkloadsByManifestId_of_registry (m := task.manifestId) hregistry).1
  rw [processDeleteRequest]
  cases hout : removeWorkloadsByManifestId n task.manifestId with
  | mk result n' =>
    rw [hout] at hok
    obtain rfl : result = .ok _ := hok
    rcases authorized_iff.mp h with hstatus | ⟨hstatus, hforce⟩
    · rw [hstatus]
      exact ⟨rfl, rfl⟩
    · rw [hstatus, hforce]
      exact ⟨rfl, rfl⟩

/-- Without a registry there is nothing to remove. -/
theorem processDeleteRequest_of_no_registry (hregistry : n.registry = none) (task : DeleteTask) :
    (processDeleteRequest n task).node = n := by
  have hremove : removeWorkloadsByManifestId n task.manifestId =
      (.error "Runtime registry not initialized", n) := by
    simp only [removeWorkloadsByManifestId, hregistry]
  rw [processDeleteRequest, hremove]
  cases verifyDeleteOwnership n task.manifestId task.envelopePubkey with
  | «match» => rfl
  | mismatch => cases task.force <;> rfl
  | unknown => rfl

/-- Any other task changes nothing, and says so. -/
theorem processDeleteRequest_of_not_authorized {task : DeleteTask} (h : ¬ Authorized n task) :
    (processDeleteRequest n task).node = n ∧ (processDeleteRequest n task).succeeded = false := by
  rw [authorized_iff] at h
  rw [processDeleteRequest]
  cases hstatus : verifyDeleteOwnership n task.manifestId task.envelopePubkey with
  | «match» => exact absurd (.inl hstatus) h
  | mismatch =>
    have hforce : task.force = false := by
      rw [← Bool.not_eq_true]
      exact fun hforce => h (.inr ⟨hstatus, hforce⟩)
    rw [hforce]
    exact ⟨rfl, rfl⟩
  | unknown => exact ⟨rfl, rfl⟩

end Bookkeeping

/-! ## Without failures -/

/-- **A removal takes what belongs to the manifest, and nothing else**: on engines whose calls
succeed it returns the ids listed for `m`, engine by engine, leaves no workload of `m`, keeps every
other workload, and drops the owner and the provider entry of `m` only. -/
theorem removeWorkloadsByManifestId_exact (n : Node H) (registry : RuntimeRegistry H)
    (entries : String → H → List WorkloadInfo) (hregistry : n.registry = some registry)
    (h : registry.Holds entries fun _ => false) (m : String) :
    let out := removeWorkloadsByManifestId n m
    out.1 = .ok (registry.engines.keys.flatMap fun name =>
        ((entries name n.host).filter (·.manifestId = m)).map WorkloadInfo.id) ∧
      (∀ name ∈ registry.engines, ∀ w ∈ entries name out.2.host, w.manifestId ≠ m) ∧
      (∀ name w, w.manifestId ≠ m → (w ∈ entries name out.2.host ↔ w ∈ entries name n.host)) ∧
      (∀ m', out.2.owner m' = if m' = m then none else n.owner m') ∧
      ∀ m', out.2.provider m' = if m' = m then none else n.provider m' := by
  intro out
  obtain ⟨hok, hhost, hproviders, howners⟩ :=
    removeWorkloadsByManifestId_of_registry (m := m) hregistry
  obtain ⟨hremoved, herrors, hothers, hentries⟩ := removeWorkloads_spec h n.host m
  have hremovable (name : String) (w : WorkloadInfo) :
      removable (fun _ => false) m name w = decide (w.manifestId = m) := by simp [removable]
  have hnoErrors : (removeWorkloads registry n.host m).errors = [] := by
    rw [herrors]
    simp [removalErrors, unremovable]
  refine ⟨?_, fun name hname w hw => ?_, fun name w hm => ?_, fun m' => ?_, hproviders⟩
  · rw [hok, hremoved]
    refine congrArg _ (List.flatMap_congr fun name _ => ?_)
    rw [removedIds, List.filter_congr fun w _ => hremovable name w]
  · rw [hhost, hentries name hname, hremovable, decide_eq_false_iff_not] at hw
    exact hw.2
  · rw [hhost]
    by_cases hname : name ∈ registry.engines
    · rw [hentries name hname, hremovable, decide_eq_false_iff_not, and_iff_left hm]
    · rw [hothers name hname]
  · rw [howners]
    simp [hnoErrors]

/-! ## With failures -/

/-- A call that the removal of `m` makes fails. -/
def CallFails (registry : RuntimeRegistry H) (entries : String → H → List WorkloadInfo)
    (fails : EngineCall → Bool) (host : H) (m : String) : Prop :=
  ∃ name ∈ registry.engines, fails (.list name) = true ∨
    ∃ w ∈ entries name host, unremovable fails m name w = true

/-- The answer to a delete request can be relied on: after a success no engine holds a workload of
the manifest, and when a call failed the node keeps its provider entry and its owner. -/
structure DeleteSound (registry : RuntimeRegistry H) (entries : String → H → List WorkloadInfo)
    (fails : EngineCall → Bool) (n : Node H) (task : DeleteTask) : Prop where
  success : (processDeleteRequest n task).succeeded = true →
    ∀ name ∈ registry.engines, ∀ w ∈ entries name (processDeleteRequest n task).node.host,
      w.manifestId ≠ task.manifestId
  failure : CallFails registry entries fails n.host task.manifestId →
    (processDeleteRequest n task).node.provider task.manifestId = n.provider task.manifestId ∧
      (processDeleteRequest n task).node.owner task.manifestId = n.owner task.manifestId

/-- **When the answer can be relied on**: exactly when the task is refused, or every workload of
the manifest can be listed and removed, and no listing fails while the node is a provider. -/
theorem deleteSound_iff (registry : RuntimeRegistry H) (entries : String → H → List WorkloadInfo)
    (fails : EngineCall → Bool) (h : registry.Holds entries fails) (n : Node H)
    (hregistry : n.registry = some registry) (task : DeleteTask) :
    DeleteSound registry entries fails n task ↔
      (Authorized n task →
        (∀ name ∈ registry.engines, ∀ w ∈ entries name n.host, w.manifestId = task.manifestId →
          fails (.list name) = false ∧ fails (.remove name w.id) = false) ∧
        (n.provider task.manifestId ≠ none →
          ∀ name ∈ registry.engines, fails (.list name) = false)) := by
  by_cases hauthorized : Authorized n task
  · obtain ⟨hnode, hsucceeded⟩ := processDeleteRequest_of_authorized hauthorized hregistry
    obtain ⟨-, hhost, hproviders, howners⟩ :=
      removeWorkloadsByManifestId_of_registry (m := task.manifestId) hregistry
    obtain ⟨-, herrors, -, hentries⟩ := removeWorkloads_spec h n.host task.manifestId
    simp only [hauthorized, forall_const]
    constructor
    · intro hsound
      have hleft := hsound.success hsucceeded
      rw [hnode, hhost] at hleft
      refine ⟨fun name hname w hw hm => ?_, fun hprovider name hname => ?_⟩
      · -- A workload that is not removable would still be there.
        have hremovable : removable fails task.manifestId name w = true := by
          rw [← Bool.not_eq_false]
          exact fun hkept => hleft name hname w ((hentries name hname w).mpr ⟨hw, hkept⟩) hm
        simpa [removable, hm] using hremovable
      · rw [← Bool.not_eq_true]
        intro hfails
        have hkept := (hsound.failure ⟨name, hname, .inl hfails⟩).1
        rw [hnode, hproviders, if_pos rfl] at hkept
        exact hprovider hkept.symm
    · rintro ⟨hall, hlisted⟩
      refine ⟨fun _ name hname w hw hm => ?_, fun hfailed => ?_⟩
      · rw [hnode, hhost, hentries name hname] at hw
        obtain ⟨hlist, hremove⟩ := hall name hname w hw.1 hm
        have hremovable : removable fails task.manifestId name w = true := by
          simp [removable, hm, hlist, hremove]
        exact nomatch hremovable.symm.trans hw.2
      · obtain ⟨name, hname, hfails | ⟨w, hw, hunremovable⟩⟩ := hfailed
        · -- A listing failed, so the node is no provider, and the owner stays.
          have hnone : n.provider task.manifestId = none := by
            by_contra hprovider
            exact nomatch hfails.symm.trans (hlisted hprovider name hname)
          have herror : (removeWorkloads registry n.host task.manifestId).errors ≠ [] := by
            rw [herrors]
            intro hnil
            rw [List.flatMap_eq_nil_iff] at hnil
            simpa [removalErrors, hfails] using hnil name hname
          rw [hnode, hproviders, if_pos rfl, howners, if_neg fun hgone => herror hgone.2]
          exact ⟨hnone.symm, rfl⟩
        · simp only [unremovable, Bool.and_eq_true, decide_eq_true_eq] at hunremovable
          exact nomatch hunremovable.2.symm.trans (hall name hname w hw hunremovable.1.1).2
  · obtain ⟨hnode, hrefused⟩ := processDeleteRequest_of_not_authorized hauthorized
    simp only [hauthorized, false_implies, iff_true]
    refine ⟨fun hsucceeded => ?_, fun _ => ?_⟩
    · exact nomatch hrefused.symm.trans hsucceeded
    · rw [hnode]
      exact ⟨rfl, rfl⟩

/-! ## On the reference engine -/

/-- The reference engine, with the calls that `fails` names failing. -/
def faultyPodman (fails : EngineCall → Bool) : RuntimeEngine Pods where
  isAvailable := podman.isAvailable
  deployWorkload := podman.deployWorkload
  listWorkloads pods :=
    if fails (.list "podman") then .error "podman pod ps failed" else podman.listWorkloads pods
  removeWorkload pods id :=
    if fails (.remove "podman" id) then (.error "podman pod rm failed", pods)
    else podman.removeWorkload pods id

def faultyRegistry (fails : EngineCall → Bool) : RuntimeRegistry Pods where
  engines := (∅ : Table String (RuntimeEngine Pods)).insert "podman" (faultyPodman fails)
  defaultEngine := some "podman"

/-- The workloads of the pods. -/
def podEntries (name : String) (pods : Pods) : List WorkloadInfo :=
  if name = "podman" then pods.entries.map fun pod => ⟨"beemesh-" ++ pod.1, pod.1, pod.2⟩ else []

theorem podEntries_id {name : String} {pods : Pods} {w : WorkloadInfo}
    (hw : w ∈ podEntries name pods) : w.id = "beemesh-" ++ w.manifestId := by
  unfold podEntries at hw
  split_ifs at hw
  · obtain ⟨pod, -, rfl⟩ := List.mem_map.mp hw
    rfl
  · exact nomatch hw

theorem podEntries_retain (pods : Pods) (w : WorkloadInfo) (id : String) :
    w ∈ podEntries "podman" (pods.retain fun m _ => "beemesh-" ++ m ≠ id) ↔
      w ∈ podEntries "podman" pods ∧ w.id ≠ id := by
  simp only [podEntries, if_true, AList.entries_retain, List.mem_map, List.mem_filter]
  constructor
  · rintro ⟨pod, ⟨hpod, hne⟩, rfl⟩
    exact ⟨⟨pod, hpod, rfl⟩, by simpa using hne⟩
  · rintro ⟨⟨pod, hpod, rfl⟩, hne⟩
    exact ⟨pod, ⟨hpod, by simpa using hne⟩, rfl⟩

theorem faultyRegistry_holds (fails : EngineCall → Bool) :
    (faultyRegistry fails).Holds podEntries fails := by
  have hpodman {name : String} {engine : RuntimeEngine Pods}
      (hengine : (faultyRegistry fails).getEngine name = some engine) :
      name = "podman" ∧ engine = faultyPodman fails := AList.lookup_insert_empty.mp hengine
  refine ⟨fun name pods => ?_, fun hengine hok pods => ?_, fun hengine hfails pods => ?_,
    fun {_ _} hengine {pods w} hw hok => ?_, fun {_ _} hengine {pods w} hw hfails => ?_⟩
  · unfold podEntries
    split_ifs
    · have hkeys : (pods.entries.map Sigma.fst).Nodup := pods.nodupKeys
      have hids : (pods.entries.map fun pod => (⟨"beemesh-" ++ pod.1, pod.1, pod.2⟩ :
          WorkloadInfo)).map WorkloadInfo.id = (pods.entries.map Sigma.fst).map ("beemesh-" ++ ·) :=
        by simp
      rw [hids]
      exact hkeys.map fun a b hab => by simpa using hab
    · exact List.nodup_nil
  · obtain ⟨rfl, rfl⟩ := hpodman hengine
    simp [faultyPodman, hok, podman, podEntries]
  · obtain ⟨rfl, rfl⟩ := hpodman hengine
    exact ⟨"podman pod ps failed", by simp [faultyPodman, hfails]⟩
  · obtain ⟨rfl, rfl⟩ := hpodman hengine
    refine ⟨_, by simp [faultyPodman, hok, podman], fun other hother => ?_,
      fun w' => podEntries_retain pods w' w.id⟩
    simp [podEntries, hother]
  · obtain ⟨rfl, rfl⟩ := hpodman hengine
    exact ⟨"podman pod rm failed", pods, by simp [faultyPodman, hfails], fun _ => rfl⟩

/-- The reference node with pods for `m` and `x`, both owned by key `7` and provided. -/
def deleteNode (fails : EngineCall → Bool) : Node Pods :=
  { referenceNode with
    registry := some (faultyRegistry fails)
    host := ((∅ : Pods).insert "m" ∅).insert "x" ∅
    manifestOwners := ((∅ : Table String Bytes).insert "m" [7]).insert "x" [7]
    localProviders := some (((∅ : Table String (Table String String)).insert "m" ∅).insert "x" ∅) }

/-- A delete request for `m`, signed by its owner. -/
def deleteTaskM : DeleteTask := ⟨"m", "op", false, [7], []⟩

theorem removeWorkloadsByManifestId_exact_reference :
    let out := removeWorkloadsByManifestId (deleteNode fun _ => false) "m"
    out.1 = .ok ["beemesh-m"] ∧ ∀ w ∈ podEntries "podman" out.2.host, w.manifestId ≠ "m" := by
  intro out
  obtain ⟨hok, hgone, -⟩ := removeWorkloadsByManifestId_exact (deleteNode fun _ => false)
    (faultyRegistry fun _ => false) podEntries rfl (faultyRegistry_holds _) "m"
  exact ⟨hok.trans (by decide), hgone "podman" (by decide)⟩

/-- A failing removal of `x` does not touch the answer for `m`. -/
theorem deleteSound_reference :
    let fails (call : EngineCall) : Bool := call = .remove "podman" "beemesh-x"
    Authorized (deleteNode fails) deleteTaskM ∧
      DeleteSound (faultyRegistry fails) podEntries fails (deleteNode fails) deleteTaskM := by
  intro fails
  refine ⟨⟨[7], by decide, by decide, .inl rfl⟩, ?_⟩
  refine (deleteSound_iff (faultyRegistry fails) podEntries fails (faultyRegistry_holds fails)
    (deleteNode fails) rfl deleteTaskM).mpr fun _ => ⟨fun name _ w hw hm => ?_, fun _ _ _ => ?_⟩
  · have hid : w.id = "beemesh-" ++ "m" := (podEntries_id hw).trans (by rw [hm]; rfl)
    refine ⟨by simp [fails], ?_⟩
    simp only [fails, hid, EngineCall.remove.injEq, decide_eq_false_iff_not, not_and]
    exact fun _ => by decide
  · simp [fails]

/-- The removal of `m` fails, the answer is a success, and its pod is still there. -/
theorem delete_reports_success :
    let fails (call : EngineCall) : Bool := call = .remove "podman" "beemesh-m"
    let out := processDeleteRequest (deleteNode fails) deleteTaskM
    out.succeeded = true ∧ (∃ w ∈ podEntries "podman" out.node.host, w.manifestId = "m") ∧
      out.node.provider "m" = none ∧
      ¬ DeleteSound (faultyRegistry fails) podEntries fails (deleteNode fails) deleteTaskM := by
  intro fails out
  have hsucceeded : out.succeeded = true := by decide
  have hleft : ∃ w ∈ podEntries "podman" out.node.host, w.manifestId = "m" :=
    ⟨⟨"beemesh-" ++ "m", "m", ∅⟩, .tail _ (.head _), rfl⟩
  refine ⟨hsucceeded, hleft, by decide, fun hsound => ?_⟩
  obtain ⟨w, hw, hm⟩ := hleft
  exact hsound.success hsucceeded "podman" (by decide) w hw hm

end Beemesh
