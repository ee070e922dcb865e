import Beemesh.Lib.Run
import Beemesh.Tasks.Reference

/-!
# Workloads and their bookkeeping

A node that runs a workload should know its owner and provide its manifest. An apply records the
owner, deploys and announces, in this order; a deletion lists, removes, withdraws the provider entry
and drops the owner. A deletion that has listed before a deployment still withdraws what goes with
it. Where no deletion withdraws the books of what is running, they are kept at rest.

## Main definitions

* `Accounts`: engines whose workloads come from deployments
* `Runs`, `System.Applying`, `System.Announcing`: where a manifest stands
* `KeepsBooks`: no deletion withdraws the books of a manifest that is running or being applied
* `BooksKept`: the invariant

## Main results

* `step_booksKept`: what every such event keeps
* `books_kept_at_rest`: after every such run, a node at rest owns and provides what it runs
-/

namespace Beemesh

variable {H : Type}

/-! ## Engines -/

/-- The workloads `entries` of the engines come from deployments: a deployment adds workloads of its
manifest, and neither a failure nor a removal adds any. -/
structure RuntimeRegistry.Accounts (registry : RuntimeRegistry H)
    (entries : String → H → List WorkloadInfo) : Prop where
  deploy_ok {name : String} {engine : RuntimeEngine H}
    (hengine : registry.getEngine name = some engine) {host host' : H} {m : String} {text : Bytes}
    {config : DeploymentConfig} {w : WorkloadInfo}
    (h : engine.deployWorkload host m text config = (.ok w, host')) :
    ∀ other, ∀ w' ∈ entries other host', w' ∈ entries other host ∨ w'.manifestId = m
  deploy_error {name : String} {engine : RuntimeEngine H}
    (hengine : registry.getEngine name = some engine) {host host' : H} {m : String} {text : Bytes}
    {config : DeploymentConfig} {e : String}
    (h : engine.deployWorkload host m text config = (.error e, host')) :
    ∀ other, ∀ w' ∈ entries other host', w' ∈ entries other host
  remove {name : String} {engine : RuntimeEngine H}
    (hengine : registry.getEngine name = some engine) (host : H) (id : String) :
    ∀ other, ∀ w' ∈ entries other (engine.removeWorkload host id).2, w' ∈ entries other host

/-! ## Where a manifest stands -/

/-- Some engine holds a workload of `m`. -/
def Runs (entries : String → H → List WorkloadInfo) (host : H) (m : String) : Prop :=
  ∃ name, ∃ w ∈ entries name host, w.manifestId = m

section Accounts

variable {registry : RuntimeRegistry H} {entries : String → H → List WorkloadInfo}
  (h : registry.Accounts entries) {name : String} {engine : RuntimeEngine H}
  (hengine : registry.getEngine name = some engine) {host host' : H} {m m' : String}

include h hengine

theorem RuntimeRegistry.Accounts.runs_of_deploy_ok {text : Bytes} {config : DeploymentConfig}
    {w : WorkloadInfo} (hdeploy : engine.deployWorkload host m text config = (.ok w, host'))
    (hruns : Runs entries host' m') : Runs entries host m' ∨ m' = m := by
  obtain ⟨other, w', hw', rfl⟩ := hruns
  rcases h.deploy_ok hengine hdeploy other w' hw' with hold | hnew
  · exact .inl ⟨other, w', hold, rfl⟩
  · exact .inr hnew

theorem RuntimeRegistry.Accounts.runs_of_deploy_error {text : Bytes} {config : DeploymentConfig}
    {e : String} (hdeploy : engine.deployWorkload host m text config = (.error e, host'))
    (hruns : Runs entries host' m') : Runs entries host m' := by
  obtain ⟨other, w', hw', rfl⟩ := hruns
  exact ⟨other, w', h.deploy_error hengine hdeploy other w' hw', rfl⟩

theorem RuntimeRegistry.Accounts.runs_of_remove {id : String}
    (hruns : Runs entries (engine.removeWorkload host id).2 m') : Runs entries host m' := by
  obtain ⟨other, w', hw', rfl⟩ := hruns
  exact ⟨other, w', h.remove hengine host id other w' hw', rfl⟩

end Accounts

namespace System

/-- An apply of `m` has recorded its owner, and is not done. -/
def Applying (s : System H) (m : String) : Prop :=
  ∃ c ∈ s.apply, c.manifestId = m ∧
    match c.stage with
    | .decrypt | .done => False
    | _ => True

/-- An apply of `m` has deployed, and is about to announce it. -/
def Announcing (s : System H) (m : String) : Prop :=
  ∃ c ∈ s.apply, c.manifestId = m ∧ ∃ name w, c.stage = .announce name w

/-- An apply about to announce keeps the event loop busy. -/
theorem Announcing.busy {s : System H} {m : String} (h : s.Announcing m) : s.busy = true := by
  obtain ⟨c, hc, -, name, w, hstage⟩ := h
  simp only [System.busy, Option.mem_def.mp hc, hstage]

/-- No apply and no deletion is in progress. -/
def AtRest (s : System H) : Prop := s.busy = false ∧ ∀ t ∈ s.tasks, t.stage = .done

end System

section Books

variable (registry : RuntimeRegistry H) (entries : String → H → List WorkloadInfo)

/-- An event at which the books of a manifest are not withdrawn behind its workloads: an apply has a
key; a provider entry goes only when no engine holds the manifest, or an apply is about to announce
it again; and an owner goes only when no engine holds the manifest and no apply has recorded it. -/
def KeepsBooks (s : System H) : Event → Prop
  | .applyStep => ∀ c ∈ s.apply, c.key ≠ []
  | .taskStep i => ∀ c ∈ s.tasks[i]?,
    match c.stage with
    | .stopProviding => Runs entries s.node.host c.task.manifestId →
      s.Announcing c.task.manifestId
    | .dropOwner => c.errors = [] →
      ¬ Runs entries s.node.host c.task.manifestId ∧ ¬ s.Applying c.task.manifestId
    | _ => True
  | _ => True

/-- What runs, or is being applied, has an owner; and what runs is provided, or about to be. -/
structure BooksKept (s : System H) : Prop where
  registry_eq : s.node.registry = some registry
  providers : s.node.localProviders ≠ none
  engines : ∀ t ∈ s.tasks, t.stage.ahead ⊆ registry.engines.entries
  owned : ∀ m, Runs entries s.node.host m → s.node.owner m ≠ none
  applying : ∀ m, s.Applying m → s.node.owner m ≠ none
  provided : ∀ m, Runs entries s.node.host m → s.node.provider m ≠ none ∨ s.Announcing m

end Books

/-! ## Providers -/

theorem announce_provider (n : Node H) (m : String) (metadata : Table String String)
    (h : n.localProviders ≠ none) (m' : String) :
    (n.announce m metadata).provider m' = if m' = m then some metadata else n.provider m' := by
  simp only [Node.provider, Node.announce]
  cases hproviders : n.localProviders with
  | none => exact absurd hproviders h
  | some providers =>
    rcases eq_or_ne m' m with rfl | hm
    · simp
    · simp [hm, AList.lookup_insert_ne hm]

/-! ## The invariant -/

section Step

variable {registry : RuntimeRegistry H} {entries : String → H → List WorkloadInfo}
  {s : System H} (h : BooksKept registry entries s)

include h

/-- Unless an apply is at its last step, what runs is provided. -/
theorem BooksKept.provider_ne_none {m : String} (hruns : Runs entries s.node.host m)
    (hstage : ∀ c ∈ s.apply, ∀ name w, c.stage ≠ .announce name w) : s.node.provider m ≠ none := by
  rcases h.provided m hruns with hprovider | ⟨c, hc, -, name, w, hannounce⟩
  · exact hprovider
  · exact absurd hannounce (hstage c hc name w)

/-- Recording a key leaves every owner there. -/
theorem BooksKept.recordOwner {m m' : String} (key : Bytes)
    (hruns : Runs entries (s.node.recordOwner m' key).host m ∨ s.Applying m) :
    (s.node.recordOwner m' key).owner m ≠ none := by
  rw [recordOwner_host] at hruns
  rw [recordOwner_owner]
  split_ifs
  · simp
  · exact hruns.elim (h.owned m) (h.applying m)

/-- A step of an apply with a key. -/
theorem BooksKept.applies (haccounts : registry.Accounts entries) {c c' : ApplyCall}
    (happly : s.apply = some c) (hkey : c.key ≠ []) {n : Node H}
    (hstep : Applies s.node c (n, c')) :
    BooksKept registry entries { s with node := n, apply := some c' } := by
  have hcall : ∀ d ∈ s.apply, d = c := fun d hd => Option.some.inj (hd.symm.trans happly)
  -- Before its last step, the call owes no provider to what runs.
  have hprovider {m : String} (hruns : Runs entries s.node.host m)
      (hstage : ∀ name w, c.stage ≠ .announce name w) : s.node.provider m ≠ none :=
    h.provider_ne_none hruns fun d hd => hcall d hd ▸ hstage
  cases hstep with
  | quiet stage hbefore hafter =>
    refine ⟨h.registry_eq, h.providers, h.engines, h.owned, ?_, fun m hruns => .inl ?_⟩
    · rintro m ⟨d, hd, hm, hstage⟩
      obtain rfl := Option.some.inj hd
      rcases hafter with rfl | ⟨content, text, name, hselect, rfl⟩
      · exact hstage.elim
      · exact h.applying m ⟨c, happly, hm, by simp [hselect]⟩
    · exact hprovider hruns hbefore
  | records content hstage =>
    refine ⟨(recordOwner_registry _ _ _).trans h.registry_eq, ?_, h.engines,
      fun m hruns => h.recordOwner c.key (.inl hruns), ?_, fun m hruns => .inl ?_⟩
    · exact (recordOwner_localProviders _ _ _).symm ▸ h.providers
    · rintro m ⟨d, hd, rfl, -⟩
      obtain rfl := Option.some.inj hd
      change (s.node.recordOwner c.manifestId c.key).owner c.manifestId ≠ none
      rw [recordOwner_owner, if_pos ⟨hkey, rfl⟩]
      simp
    · change Runs entries (s.node.recordOwner c.manifestId c.key).host m at hruns
      change (s.node.recordOwner c.manifestId c.key).provider m ≠ none
      rw [recordOwner_host] at hruns
      rw [Node.provider, recordOwner_localProviders]
      exact hprovider hruns (by simp [hstage])
  | fails hstage hengine hdeploy =>
    rw [h.registry_eq, Option.bind_some] at hengine
    refine ⟨h.registry_eq, h.providers, h.engines, fun m hruns => ?_, ?_, fun m hruns => .inl ?_⟩
    · exact h.owned m (haccounts.runs_of_deploy_error hengine hdeploy hruns)
    · rintro m ⟨d, hd, -, hdone⟩
      obtain rfl := Option.some.inj hd
      exact hdone.elim
    · have hbefore := haccounts.runs_of_deploy_error hengine hdeploy hruns
      exact hprovider hbefore (by simp [hstage])
  | deploys hstage hengine hdeploy =>
    rw [h.registry_eq, Option.bind_some] at hengine
    have howner : s.node.owner c.manifestId ≠ none :=
      h.applying c.manifestId ⟨c, happly, rfl, by simp [hstage]⟩
    refine ⟨h.registry_eq, h.providers, h.engines, fun m hruns => ?_, ?_, fun m hruns => ?_⟩
    · rcases haccounts.runs_of_deploy_ok hengine hdeploy hruns with hruns | rfl
      · exact h.owned m hruns
      · exact howner
    · rintro m ⟨d, hd, rfl, -⟩
      obtain rfl := Option.some.inj hd
      exact howner
    · rcases haccounts.runs_of_deploy_ok hengine hdeploy hruns with hruns | rfl
      · exact .inl (hprovider hruns (by simp [hstage]))
      · exact .inr ⟨_, rfl, rfl, _, _, rfl⟩
  | announces hstage =>
    refine ⟨h.registry_eq, ?_, h.engines, h.owned, ?_, fun m hruns => .inl ?_⟩
    · simpa [Node.announce] using h.providers
    · rintro m ⟨d, hd, -, hdone⟩
      obtain rfl := Option.some.inj hd
      exact hdone.elim
    · change (s.node.announce _ _).provider m ≠ none
      rw [announce_provider _ _ _ h.providers]
      split_ifs with hm
      · simp
      · rcases h.provided m hruns with hprovider | ⟨d, hd, rfl, -⟩
        · exact hprovider
        · exact absurd (hcall d hd ▸ rfl) hm

/-- A removal by an engine of the registry, whether it succeeds or fails. -/
theorem BooksKept.removed (haccounts : registry.Accounts entries) {tasks : List (TaskCall H)}
    (htasks : ∀ t ∈ tasks, t.stage.ahead ⊆ registry.engines.entries)
    {engine : Sigma fun _ : String => RuntimeEngine H} (hengine : engine ∈ registry.engines.entries)
    {id : String} {host : H} (hcall : (engine.2.removeWorkload s.node.host id).2 = host) :
    BooksKept registry entries { s with node := { s.node with host := host }, tasks := tasks } := by
  have hold (m : String) (hruns : Runs entries host m) : Runs entries s.node.host m :=
    haccounts.runs_of_remove (AList.mem_entries_iff.mp hengine) (hcall ▸ hruns)
  exact ⟨h.registry_eq, h.providers, htasks, fun m hruns => h.owned m (hold m hruns), h.applying,
    fun m hruns => h.provided m (hold m hruns)⟩

/-- A step of a deletion. -/
theorem BooksKept.deletes (haccounts : registry.Accounts entries) {i : ℕ} {c c' : TaskCall H}
    (htask : s.tasks[i]? = some c) (hguard : KeepsBooks entries s (.taskStep i)) {n : Node H}
    (hstep : Deletes s.node c (n, c')) :
    BooksKept registry entries { s with node := n, tasks := s.tasks.set i c' } := by
  have hguard := hguard c htask
  have hahead := h.engines c (List.mem_of_getElem? htask)
  -- The engines ahead of the tasks, once those ahead of this one are in the registry.
  have hengines (hc' : c'.stage.ahead ⊆ registry.engines.entries) :
      ∀ t ∈ s.tasks.set i c', t.stage.ahead ⊆ registry.engines.entries := by
    intro t ht
    rcases List.mem_or_eq_of_mem_set ht with ht | rfl
    · exact h.engines t ht
    · exact hc'
  cases hstep with
  | quiet stage errors hchecked hsub =>
    exact ⟨h.registry_eq, h.providers, hengines (List.Subset.trans hsub hahead), h.owned,
      h.applying, h.provided⟩
  | passes hauthorized hregistry =>
    obtain rfl := Option.some.inj (h.registry_eq.symm.trans hregistry)
    exact ⟨h.registry_eq, h.providers, hengines (List.Subset.refl _), h.owned, h.applying,
      h.provided⟩
  | @removes engine w pending rest hstage hm host hcall =>
    rw [hstage] at hahead
    refine h.removed haccounts (hengines hahead) (hahead (.head _)) (congrArg Prod.snd hcall)
  | @fails engine w pending rest hstage hm e host hcall =>
    rw [hstage] at hahead
    refine h.removed haccounts (hengines hahead) (hahead (.head _)) (congrArg Prod.snd hcall)
  | stops hstage =>
    simp only [hstage] at hguard
    refine ⟨h.registry_eq, ?_, hengines (List.nil_subset _), h.owned, h.applying,
      fun m hruns => ?_⟩
    · simpa using h.providers
    · rcases h.provided m hruns with hprovider | hannouncing
      · rcases eq_or_ne m c.task.manifestId with rfl | hm
        · exact .inr (hguard hruns)
        · refine .inl ?_
          rw [Node.provider, lookup_map_erase, if_neg hm]
          exact hprovider
      · exact .inr hannouncing
  | drops hstage herrors =>
    simp only [hstage] at hguard
    obtain ⟨hidle, happlied⟩ := hguard herrors
    have howner {m : String} (hm : m ≠ c.task.manifestId) (hsome : s.node.owner m ≠ none) :
        (s.node.manifestOwners.erase c.task.manifestId).lookup m ≠ none := by
      rwa [AList.lookup_erase_ne hm]
    refine ⟨h.registry_eq, h.providers, hengines (List.nil_subset _), fun m hruns => ?_,
      fun m happlying => ?_, h.provided⟩
    · have hm : m ≠ c.task.manifestId := fun heq => hidle (heq ▸ hruns)
      exact howner hm (h.owned m hruns)
    · have hm : m ≠ c.task.manifestId := fun heq => happlied (heq ▸ happlying)
      exact howner hm (h.applying m happlying)

/-- An event that leaves the stores. -/
theorem BooksKept.of_stores {n : Node H} (hstores : n.stores = s.node.stores)
    {apply : Option ApplyCall} {tasks : List (TaskCall H)}
    (htasks : ∀ t ∈ tasks, t.stage.ahead ⊆ registry.engines.entries)
    (happlying : ∀ m, System.Applying { s with apply := apply } m → s.Applying m)
    (hannouncing : ∀ m, s.Announcing m → System.Announcing { s with apply := apply } m) :
    BooksKept registry entries { s with node := n, apply := apply, tasks := tasks } := by
  have hhost : n.host = s.node.host := host_of_stores hstores
  refine ⟨(congrArg Stores.registry hstores).trans h.registry_eq, ?_, htasks, fun m hruns => ?_,
    fun m hm => ?_, fun m hruns => ?_⟩
  · have hproviders : n.localProviders = s.node.localProviders := congrArg Stores.providers hstores
    change n.localProviders ≠ none
    rw [hproviders]
    exact h.providers
  · change n.owner m ≠ none
    rw [owner_of_stores hstores]
    exact h.owned m (hhost ▸ hruns)
  · change n.owner m ≠ none
    rw [owner_of_stores hstores]
    exact h.applying m (happlying m hm)
  · change n.provider m ≠ none ∨ _
    rw [provider_of_stores hstores]
    exact (h.provided m (hhost ▸ hruns)).imp_right (hannouncing m)

/-- What every event keeps that keeps books. -/
theorem step_booksKept (haccounts : registry.Accounts entries) (P : NodePlatform) (e : Event)
    (hguard : KeepsBooks entries s e) : BooksKept registry entries (s.step P e) := by
  have hstep := step_happens P s e
  generalize s.step P e = s' at hstep
  cases hstep with
  | quiet e n hstores => exact h.of_stores hstores h.engines (fun _ hm => hm) fun _ hm => hm
  | starts e n hstores hfree call hcall =>
    refine h.of_stores hstores h.engines ?_ fun m hm => ?_
    · rintro m ⟨c, hc, -, hstage⟩
      rw [hcall c hc] at hstage
      exact hstage.elim
    · exact nomatch hfree.symm.trans hm.busy
  | creates metadata m' =>
    refine ⟨(recordOwner_registry _ _ _).trans h.registry_eq, ?_, h.engines,
      fun m hruns => h.recordOwner _ (.inl hruns), fun m hm => h.recordOwner _ (.inr hm),
      fun m hruns => ?_⟩
    · exact (recordOwner_localProviders _ _ _).symm ▸ h.providers
    · change Runs entries (s.node.recordOwner m' _).host m at hruns
      change (s.node.recordOwner m' _).provider m ≠ none ∨ _
      rw [recordOwner_host] at hruns
      rw [Node.provider, recordOwner_localProviders]
      exact h.provided m hruns
  | begins e n hstores task =>
    refine h.of_stores hstores (fun t ht => ?_) (fun _ hm => hm) fun _ hm => hm
    rcases List.mem_append.mp ht with ht | ht
    · exact h.engines t ht
    · obtain rfl := List.mem_singleton.mp ht
      exact List.nil_subset _
  | applies happly hstep => exact h.applies haccounts happly (hguard _ happly) hstep
  | deletes htask hstep => exact h.deletes haccounts htask hguard hstep

end Step

/-! ## Runs -/

/-- **The books are kept**: from a node with no workloads, in every run of events that keep books,
whatever the order of their steps, a node at rest has an owner and a provider entry for each
manifest that some engine runs. -/
theorem books_kept_at_rest (P : NodePlatform) (registry : RuntimeRegistry H)
    (entries : String → H → List WorkloadInfo) (haccounts : registry.Accounts entries) (n : Node H)
    (hregistry : n.registry = some registry) (hproviders : n.localProviders ≠ none)
    (hempty : ∀ name, entries name n.host = []) (events : List Event)
    (hguarded : Run.Guarded (System.step P) (KeepsBooks entries) { node := n } events) :
    let s := Run.run (System.step P) { node := n } events
    s.AtRest → ∀ m, Runs entries s.node.host m →
      s.node.owner m ≠ none ∧ s.node.provider m ≠ none := by
  have hstart : BooksKept registry entries ({ node := n } : System H) := by
    have hidle (m : String) : ¬ Runs entries n.host m := by
      rintro ⟨name, w, hw, -⟩
      rw [hempty] at hw
      exact nomatch hw
    refine ⟨hregistry, hproviders, fun _ ht => (nomatch ht), fun m hruns => absurd hruns (hidle m),
      ?_, fun m hruns => absurd hruns (hidle m)⟩
    rintro m ⟨c, hc, -⟩
    exact nomatch hc
  have hkept := hguarded.invariant
    (fun _ e hguard hkept => step_booksKept hkept haccounts P e hguard) hstart
  intro s hrest m hruns
  refine ⟨hkept.owned m hruns, ?_⟩
  rcases hkept.provided m hruns with hprovider | hannouncing
  · exact hprovider
  · exact nomatch hrest.1.symm.trans hannouncing.busy

/-! ## On the reference node -/

theorem podmanRegistry_accounts : podmanRegistry.Accounts podEntries := by
  have hpodman {name : String} {engine : RuntimeEngine Pods}
      (hengine : podmanRegistry.getEngine name = some engine) : engine = podman :=
    (AList.lookup_insert_empty.mp hengine).2
  refine ⟨fun {_ _} hengine {_ _ _ _ _ _} hdeploy other w' hw' => ?_,
    fun {_ _} hengine {_ _ _ _ _ _} hdeploy => ?_, fun {_ _} hengine pods id other w' hw' => ?_⟩
  · obtain rfl := hpodman hengine
    obtain ⟨-, rfl⟩ := Prod.mk.inj hdeploy
    unfold podEntries at hw' ⊢
    split_ifs at hw' ⊢
    · obtain ⟨pod, hpod, rfl⟩ := List.mem_map.mp hw'
      rcases AList.mem_entries_insert hpod with rfl | hold
      · exact .inr rfl
      · exact .inl (List.mem_map_of_mem hold)
    · exact absurd hw' List.not_mem_nil
  · obtain rfl := hpodman hengine
    cases hdeploy
  · obtain rfl := hpodman hengine
    unfold podEntries at hw' ⊢
    split_ifs at hw' ⊢
    · obtain ⟨pod, hpod, rfl⟩ := List.mem_map.mp hw'
      exact List.mem_map_of_mem (List.mem_filter.mp hpod).1
    · exact absurd hw' List.not_mem_nil

/-- A pod that was just played runs. -/
theorem runs_insert (pods : Pods) (m : String) : Runs podEntries (pods.insert m ∅) m := by
  refine ⟨"podman", ⟨"beemesh-" ++ m, m, ∅⟩, ?_, rfl⟩
  rw [podEntries, if_pos rfl, AList.entries_insert]
  exact List.mem_map.mpr ⟨⟨m, ∅⟩, .head _, rfl⟩

/-- The reference node with a signing key. -/
def signingNode : Node Pods := { referenceNode with signingPubkey := [7] }

/-- The node applies `m` by itself. -/
def selfApplyEvents : List Event :=
  [.selfApply (applyRequestCodec.write (applyPod "m")), .applyStep, .applyStep, .applyStep,
    .applyStep]

/-- Its owner deletes `m`. -/
def ownDeleteEvents : List Event :=
  .deleteMessage "p" (deletePod "m" [7] "c") :: .beginTask 0 :: List.replicate 7 (.taskStep 0)

theorem run_selfApplyEvents {s : System Pods} (hfree : s.busy = false)
    (hregistry : s.node.registry = some podmanRegistry) :
    Run.run (System.step everyone) s selfApplyEvents =
      { s with
        node := Node.announce { s.node.recordOwner "m" s.node.signingPubkey with
          host := s.node.host.insert "m" ∅ } "m" (deploymentMetadata "podman" ("beemesh-" ++ "m"))
        apply := some (podCall "m" s.node.signingPubkey .done) } := by
  have hrecorded : (s.node.recordOwner "m" s.node.signingPubkey).registry = some podmanRegistry :=
    (recordOwner_registry _ _ _).trans hregistry
  rw [selfApplyEvents, Run.run_cons, step_selfApply_pod hfree, Run.run_cons, step_decrypt_pod rfl,
    Run.run_cons, step_select_pod rfl hrecorded, Run.run_cons, step_deploy_pod rfl hrecorded,
    Run.run_cons, step_announce_pod rfl, Run.run_nil]
  rw [recordOwner_host]

/-- A node at rest applies `m`, is at rest again and runs it. -/
theorem run_selfApplyEvents_atRest {s : System Pods} (hrest : s.AtRest)
    (hregistry : s.node.registry = some podmanRegistry) :
    let s' := Run.run (System.step everyone) s selfApplyEvents
    s'.AtRest ∧ Runs podEntries s'.node.host "m" := by
  rw [run_selfApplyEvents hrest.1 hregistry]
  exact ⟨⟨rfl, hrest.2⟩, runs_insert _ "m"⟩

theorem guarded_selfApplyEvents {s : System Pods} (hfree : s.busy = false)
    (hregistry : s.node.registry = some podmanRegistry) (hkey : s.node.signingPubkey ≠ []) :
    Run.Guarded (System.step everyone) (KeepsBooks podEntries) s selfApplyEvents := by
  have hrecorded : (s.node.recordOwner "m" s.node.signingPubkey).registry = some podmanRegistry :=
    (recordOwner_registry _ _ _).trans hregistry
  -- Each step is of the apply under the key of the node.
  have hcall {s' : System Pods} {stage : ApplyStage}
      (happly : s'.apply = some (podCall "m" s.node.signingPubkey stage)) :
      KeepsBooks podEntries s' .applyStep := by
    intro c hc
    obtain rfl := Option.some.inj (happly.symm.trans hc)
    exact hkey
  rw [selfApplyEvents, Run.guarded_cons, step_selfApply_pod hfree]
  refine ⟨trivial, ?_⟩
  rw [Run.guarded_cons, step_decrypt_pod rfl]
  refine ⟨hcall rfl, ?_⟩
  rw [Run.guarded_cons, step_select_pod rfl hrecorded]
  refine ⟨hcall rfl, ?_⟩
  rw [Run.guarded_cons, step_deploy_pod rfl hrecorded]
  exact ⟨hcall rfl, hcall rfl, trivial⟩

/-- The node after it has applied `m` by itself. -/
def selfApplied : System Pods where
  node := Node.announce { signingNode.recordOwner "m" [7] with host := (∅ : Pods).insert "m" ∅ } "m"
    (deploymentMetadata "podman" ("beemesh-" ++ "m"))
  apply := some (podCall "m" [7] .done)

theorem run_selfApplied :
    Run.run (System.step everyone) { node := signingNode } selfApplyEvents = selfApplied :=
  run_selfApplyEvents rfl rfl

theorem guarded_ownDeleteEvents :
    Run.Guarded (System.step everyone) (KeepsBooks podEntries) selfApplied ownDeleteEvents := by
  have hidle : ¬ Runs podEntries (∅ : Pods) "m" := by
    rintro ⟨name, w, hw, -⟩
    unfold podEntries at hw
    split_ifs at hw
    · exact absurd hw List.not_mem_nil
    · exact absurd hw List.not_mem_nil
  rw [ownDeleteEvents, Run.guarded_cons, step_deleteMessage_pod rfl (by decide)]
  refine ⟨trivial, trivial, ?_, ?_, ?_, ?_, ?_, ?_, ?_, trivial⟩
  all_goals
    intro c hc
    obtain rfl := Option.some.inj hc
  · trivial
  · trivial
  · trivial
  · trivial
  · trivial
  · exact fun hruns => absurd hruns hidle
  · refine fun _ => ⟨hidle, ?_⟩
    rintro ⟨c, hc, -, hstage⟩
    obtain rfl := Option.some.inj hc
    exact hstage

/-- After the deletion the event loop is free, and the task done. -/
theorem run_ownDeleteEvents :
    let s := Run.run (System.step everyone) selfApplied ownDeleteEvents
    s.AtRest ∧ s.node.registry = some podmanRegistry ∧ s.node.signingPubkey = [7] := by
  rw [ownDeleteEvents, Run.run_cons, step_deleteMessage_pod rfl (by decide)]
  refine ⟨⟨rfl, fun t ht => ?_⟩, rfl, rfl⟩
  obtain rfl := List.mem_singleton.mp ht
  rfl

/-- The node applies `m`, deletes it for its owner and applies it again. -/
theorem books_kept_at_rest_reference :
    let s := Run.run (System.step everyone) { node := signingNode }
      (selfApplyEvents ++ (ownDeleteEvents ++ selfApplyEvents))
    Runs podEntries s.node.host "m" ∧ s.node.owner "m" ≠ none ∧ s.node.provider "m" ≠ none := by
  obtain ⟨hrest, hregistry, hkey⟩ := run_ownDeleteEvents
  have hguarded : Run.Guarded (System.step everyone) (KeepsBooks podEntries) { node := signingNode }
      (selfApplyEvents ++ (ownDeleteEvents ++ selfApplyEvents)) := by
    refine Run.guarded_append.mpr ⟨guarded_selfApplyEvents rfl rfl (by decide), ?_⟩
    rw [run_selfApplied]
    refine Run.guarded_append.mpr ⟨guarded_ownDeleteEvents, ?_⟩
    exact guarded_selfApplyEvents hrest.1 hregistry (by rw [hkey]; decide)
  have hkept := books_kept_at_rest everyone podmanRegistry podEntries podmanRegistry_accounts
    signingNode rfl (by decide) (fun name => by unfold podEntries; split_ifs <;> rfl) _ hguarded
  obtain ⟨hquiet, hruns⟩ := run_selfApplyEvents_atRest hrest hregistry
  rw [Run.run_append, run_selfApplied, Run.run_append] at hkept ⊢
  exact ⟨hruns, hkept hquiet "m" hruns⟩

/-- A deletion of `m` by its owner passes its check and lists before the pod is there, and withdraws
the books after. -/
def lostEvents : List Event :=
  [.deleteMessage "p" (deletePod "m" [7] "c"), .beginTask 0,
    .selfApply (applyRequestCodec.write (applyPod "m")), .applyStep,
    .taskStep 0, .taskStep 0, .taskStep 0, .taskStep 0,
    .applyStep, .applyStep, .applyStep, .taskStep 0, .taskStep 0]

theorem lost_books :
    let s := Run.run (System.step everyone) { node := signingNode } lostEvents
    s.AtRest ∧ Runs podEntries s.node.host "m" ∧ s.node.owner "m" = none ∧
      s.node.provider "m" = none := by
  rw [lostEvents, Run.run_cons, step_deleteMessage_pod rfl (by decide), Run.run_cons, Run.run_cons,
    step_selfApply_pod rfl, Run.run_cons, step_decrypt_pod rfl, Run.run_cons, Run.run_cons,
    Run.run_cons, Run.run_cons, Run.run_cons, step_select_pod rfl rfl, Run.run_cons,
    step_deploy_pod rfl rfl, Run.run_cons, step_announce_pod rfl]
  refine ⟨⟨rfl, ?_⟩, runs_insert _ "m", rfl, rfl⟩
  intro t ht
  obtain rfl := List.mem_singleton.mp ht
  rfl

end Beemesh
