import Beemesh.Engine.PodRemoval
import Beemesh.Lib.Run
import Beemesh.Tasks.Reference

/-!
# Whose workloads a deletion removes

A delete task that is not forced goes ahead when its key is the recorded owner. Whether that keeps
the workloads of others depends on who writes the owner: an apply and the REST interface record
their key over any other, and the check is made once, before the workloads are listed. Where no such
step is taken, and no engine takes more than it is asked to, a deletion takes workloads of its own
key only.

The engines are watched from outside: a workload is what runs there under an engine and an id, and
it was deployed by the last apply in whose deployment it appeared, changed or was answered, whether
that deployment succeeded or failed.

## Main definitions

* `Watched`, `Watched.step`: a node with its calls in flight, and who deployed what runs
* `Takes`: a workload that leaves the engines
* `TakesOwn`: what an unforced deletion takes was deployed under its key
* `KeepsOwners`: no owner is recorded over the workloads of another, nothing is deployed under a
  deletion that has passed its check for another key, and no deletion takes from other manifests
* `OwnersKept`: the invariant

## Main results

* `step_ownersKept`: what every such event keeps
* `deletions_keep_to_their_key`: in every such run a deletion takes workloads of its own key
* `PodmanEngine.Acts.takes_own`: where podman takes pods of the workload only
-/

namespace Beemesh

variable {H ω : Type}

/-! ## Watching the engines -/

/-- For what manifest and under which key a workload was deployed. -/
structure Deployer where
  manifestId : String
  key : Bytes
  deriving DecidableEq

/-- A node with its calls in flight, and who deployed what runs, by engine and id. -/
structure Watched (H : Type) where
  system : System H
  deployers : String × String → Option Deployer := fun _ => none

/-- The apply that deploys at an event. -/
def System.deploying (s : System H) : Event → Option ApplyCall
  | .applyStep => s.apply.filter fun c =>
    match c.stage with
    | .deploy _ _ => true
    | _ => false
  | _ => none

/-- The engine and the id of the workload that an apply was answered. -/
def ApplyCall.deployed (c : ApplyCall) : Option (String × String) :=
  match c.stage with
  | .announce engineName workload => some (engineName, workload.id)
  | _ => none

/-- What `runs` shows as `x` leaves between two hosts. -/
def Takes (runs : H → String × String → Option ω) (host host' : H) (x : String × String) : Prop :=
  runs host x ≠ none ∧ runs host' x ≠ runs host x

/-- An event, and the deployers of what runs after it. -/
def Watched.step [DecidableEq ω] (P : NodePlatform) (runs : H → String × String → Option ω)
    (w : Watched H) (e : Event) : Watched H :=
  let before := w.system
  let after := before.step P e
  { system := after
    deployers := fun x =>
      if runs after.node.host x = none then none
      else
        match before.deploying e with
        | none => w.deployers x
        | some c =>
          if runs after.node.host x ≠ runs before.node.host x ∨
              after.apply.bind ApplyCall.deployed = some x then
            some ⟨c.manifestId, c.key⟩
          else w.deployers x }

/-- What runs of a manifest was deployed under `k`. -/
def Watched.RunsOnly (w : Watched H) (m : String) (k : Bytes) : Prop :=
  ∀ x, ∀ d ∈ w.deployers x, d.manifestId = m → d.key = k

/-- An unforced deletion takes what was deployed under its key. -/
def TakesOwn (P : NodePlatform) (runs : H → String × String → Option ω) (w : Watched H) :
    Event → Prop
  | .taskStep i => ∀ c ∈ w.system.tasks[i]?, c.task.force = false →
    ∀ x, Takes runs w.system.node.host (w.system.step P (.taskStep i)).node.host x →
      ∀ d ∈ w.deployers x, d.key = c.task.envelopePubkey
  | _ => True

/-- An event at which no key gets hold of the workloads of another: the owner of a manifest is
recorded under the key of its workloads; a manifest is deployed while no other key is recorded for
it, or has passed the check of a deletion; and the engine takes, for an unforced deletion, what was
deployed for its manifest. -/
def KeepsOwners (runs : H → String × String → Option ω) (w : Watched H) : Event → Prop
  | .createTask metadata m =>
    metadata.signingPubkey ≠ [] → w.RunsOnly m metadata.signingPubkey
  | .applyStep => ∀ c ∈ w.system.apply,
    match c.stage with
    | .decrypt => c.key ≠ [] → w.RunsOnly c.manifestId c.key
    | .deploy _ _ =>
      (∀ k, w.system.node.owner c.manifestId = some k → k = c.key) ∧
        ∀ t ∈ w.system.tasks, t.Checked → t.task.force = false →
          t.task.manifestId = c.manifestId → t.task.envelopePubkey = c.key
    | _ => True
  | .taskStep i => ∀ c ∈ w.system.tasks[i]?, c.task.force = false →
    match c.stage with
    | .workloads engine (workload :: _) _ =>
      let host := w.system.node.host
      workload.manifestId = c.task.manifestId →
        ∀ x, Takes runs host (engine.2.removeWorkload host workload.id).2 x →
          ∀ d ∈ w.deployers x, d.manifestId = c.task.manifestId
    | _ => True
  | _ => True

/-- The recorded owner of a manifest is the key of its workloads, as is the key of a deletion that
has passed its check. -/
structure OwnersKept (w : Watched H) : Prop where
  owners : ∀ x, ∀ d ∈ w.deployers x, ∀ k, w.system.node.owner d.manifestId = some k → k = d.key
  tasks : ∀ t ∈ w.system.tasks, t.Checked → t.task.force = false →
    w.RunsOnly t.task.manifestId t.task.envelopePubkey

/-! ## What a step does to owners, tasks and hosts -/

/-- A task that goes ahead unforced is of the recorded owner. -/
theorem Authorized.owner_eq {n : Node H} {task : DeleteTask} (h : Authorized n task)
    (hforce : task.force = false) : n.owner task.manifestId = some task.envelopePubkey := by
  obtain ⟨owner, howner, -, rfl | hforced⟩ := h
  · exact howner
  · exact nomatch hforce.symm.trans hforced

/-- A step of an apply records its own key, or leaves the owners. -/
theorem Applies.owner {n n' : Node H} {c c' : ApplyCall} (h : Applies n c (n', c')) :
    c.stage = .decrypt ∧ n' = n.recordOwner c.manifestId c.key ∨ ∀ m, n'.owner m = n.owner m := by
  cases h with
  | quiet stage hbefore hafter => exact .inr fun _ => rfl
  | records content hstage => exact .inl ⟨hstage, rfl⟩
  | fails hstage hengine hdeploy => exact .inr fun _ => rfl
  | deploys hstage hengine hdeploy => exact .inr fun _ => rfl
  | announces hstage => exact .inr fun _ => rfl

section Deletes

variable {n n' : Node H} {c c' : TaskCall H} (h : Deletes n c (n', c'))

include h

/-- A step of a deletion records no owner. -/
theorem Deletes.owner {m : String} {k : Bytes} (hk : n'.owner m = some k) :
    n.owner m = some k := by
  cases h with
  | quiet stage errors hchecked hahead => exact hk
  | passes hauthorized hregistry => exact hk
  | removes hstage hm hcall => exact hk
  | fails hstage hm hcall => exact hk
  | stops hstage => exact hk
  | drops hstage herrors =>
    have hk : (n.manifestOwners.erase c.task.manifestId).lookup m = some k := hk
    rcases eq_or_ne m c.task.manifestId with rfl | hm
    · rw [AList.lookup_erase] at hk
      exact nomatch hk
    · rwa [AList.lookup_erase_ne hm] at hk

/-- A step of a deletion keeps its request. -/
theorem Deletes.task : c'.task = c.task := by
  cases h <;> rfl

/-- A deletion past its check was so before, or has just passed it. -/
theorem Deletes.checked (hchecked : c'.Checked) : c.Checked ∨ Authorized n c.task := by
  cases h with
  | quiet stage errors hbefore hahead => exact .inl (hbefore hchecked)
  | passes hauthorized hregistry => exact .inr hauthorized
  | removes hstage hm hcall => exact .inl (by simp [TaskCall.Checked, hstage])
  | fails hstage hm hcall => exact .inl (by simp [TaskCall.Checked, hstage])
  | stops hstage => exact .inl (by simp [TaskCall.Checked, hstage])
  | drops hstage herrors => exact hchecked.elim

/-- A step of a deletion has an engine remove a listed workload of the manifest, or leaves the
host. -/
theorem Deletes.host : n'.host = n.host ∨
    ∃ engine w pending rest, c.stage = .workloads engine (w :: pending) rest ∧
      w.manifestId = c.task.manifestId ∧ n'.host = (engine.2.removeWorkload n.host w.id).2 := by
  cases h with
  | quiet stage errors hchecked hahead => exact .inl rfl
  | passes hauthorized hregistry => exact .inl rfl
  | removes hstage hm hcall => exact .inr ⟨_, _, _, _, hstage, hm, (congrArg Prod.snd hcall).symm⟩
  | fails hstage hm hcall => exact .inr ⟨_, _, _, _, hstage, hm, (congrArg Prod.snd hcall).symm⟩
  | stops hstage => exact .inl rfl
  | drops hstage herrors => exact .inl rfl

end Deletes

/-- What runs after an event was deployed before, or by the apply that deploys at it. -/
theorem Watched.step_deployers [DecidableEq ω] {P : NodePlatform}
    {runs : H → String × String → Option ω} {w : Watched H} {e : Event} {x : String × String}
    {d : Deployer} (hd : d ∈ (w.step P runs e).deployers x) :
    d ∈ w.deployers x ∨ ∃ c ∈ w.system.deploying e, d = ⟨c.manifestId, c.key⟩ := by
  simp only [Watched.step] at hd
  cases hdeploying : w.system.deploying e with
  | none =>
    simp only [hdeploying] at hd
    split_ifs at hd
    · exact nomatch hd
    · exact .inl hd
  | some c =>
    simp only [hdeploying] at hd
    split_ifs at hd
    · exact nomatch hd
    · exact .inr ⟨c, rfl, (Option.some.inj hd).symm⟩
    · exact .inl hd

/-- An apply that deploys is at that stage. -/
theorem System.mem_deploying {s : System H} {e : Event} {c : ApplyCall} (hc : c ∈ s.deploying e) :
    e = .applyStep ∧ c ∈ s.apply ∧ ∃ text name, c.stage = .deploy text name := by
  cases e with
  | applyStep =>
    obtain ⟨hmem, hstage⟩ := Option.filter_eq_some_iff.mp hc
    refine ⟨rfl, hmem, ?_⟩
    split at hstage
    · exact ⟨_, _, ‹_›⟩
    · exact nomatch hstage
  | _ => exact nomatch hc

/-! ## The invariant -/

section Step

variable {runs : H → String × String → Option ω} {w : Watched H} (h : OwnersKept w)

include h

/-- What was deployed before an event that keeps owners runs, after it, under the recorded owner. -/
theorem OwnersKept.owners_step (P : NodePlatform) {e : Event} (hguard : KeepsOwners runs w e)
    {x : String × String} {d : Deployer} (hd : d ∈ w.deployers x) {k : Bytes}
    (hk : (w.system.step P e).node.owner d.manifestId = some k) : k = d.key := by
  have hstep := step_happens P w.system e
  generalize w.system.step P e = s' at hstep hk
  -- Recording a key under which all workloads of the manifest run.
  have hrecords {m : String} {key : Bytes} (hruns : key ≠ [] → w.RunsOnly m key)
      (hk : (w.system.node.recordOwner m key).owner d.manifestId = some k) : k = d.key := by
    rw [recordOwner_owner] at hk
    split_ifs at hk with hrecorded
    · rw [← Option.some.inj hk]
      exact (hruns hrecorded.1 x d hd hrecorded.2).symm
    · exact h.owners x d hd k hk
  cases hstep with
  | quiet e n hstores => exact h.owners x d hd k ((owner_of_stores hstores _).symm.trans hk)
  | starts e n hstores hfree call hcall =>
    exact h.owners x d hd k ((owner_of_stores hstores _).symm.trans hk)
  | creates metadata m => exact hrecords hguard hk
  | begins e n hstores task =>
    exact h.owners x d hd k ((owner_of_stores hstores _).symm.trans hk)
  | applies happly hstep =>
    rcases hstep.owner with ⟨hstage, rfl⟩ | hsame
    · have hguard := hguard _ happly
      simp only [hstage] at hguard
      exact hrecords hguard hk
    · exact h.owners x d hd k ((hsame _).symm.trans hk)
  | deletes htask hstep => exact h.owners x d hd k (hstep.owner hk)

/-- A deletion that has passed its check after an event is of the key of what was deployed for its
manifest before. -/
theorem OwnersKept.tasks_step (P : NodePlatform) (e : Event) {t : TaskCall H}
    (ht : t ∈ (w.system.step P e).tasks) (hchecked : t.Checked) (hforce : t.task.force = false) :
    w.RunsOnly t.task.manifestId t.task.envelopePubkey := by
  have hstep := step_happens P w.system e
  generalize w.system.step P e = s' at hstep ht
  cases hstep with
  | quiet e n hstores => exact h.tasks t ht hchecked hforce
  | starts e n hstores hfree call hcall => exact h.tasks t ht hchecked hforce
  | creates metadata m => exact h.tasks t ht hchecked hforce
  | begins e n hstores task =>
    rcases List.mem_append.mp ht with ht | ht
    · exact h.tasks t ht hchecked hforce
    · obtain rfl := List.mem_singleton.mp ht
      exact hchecked.elim
  | applies happly hstep => exact h.tasks t ht hchecked hforce
  | deletes htask hstep =>
    rcases List.mem_or_eq_of_mem_set ht with ht | rfl
    · exact h.tasks t ht hchecked hforce
    · rw [hstep.task] at hforce ⊢
      rcases hstep.checked hchecked with hpast | hauthorized
      · exact h.tasks _ (List.mem_of_getElem? htask) hpast hforce
      · -- The check was against the recorded owner, which is the key of the workloads.
        intro x d hd hm
        have howner := hauthorized.owner_eq hforce
        rw [← hm] at howner
        exact (h.owners x d hd _ howner).symm

/-- What every event keeps that keeps owners. -/
theorem step_ownersKept [DecidableEq ω] (P : NodePlatform) (e : Event)
    (hguard : KeepsOwners runs w e) : OwnersKept (w.step P runs e) := by
  refine ⟨fun x d hd k hk => ?_, fun t ht hchecked hforce x d hd hm => ?_⟩
  · rcases Watched.step_deployers hd with hd | ⟨c, hc, rfl⟩
    · exact h.owners_step P hguard hd hk
    · -- The apply that deploys records no owner, and the recorded one is its own.
      obtain ⟨rfl, happly, text, name, hstage⟩ := System.mem_deploying hc
      have hguard := hguard c happly
      simp only [hstage] at hguard
      have hstep := applyStep_applies P w.system.node c
      have hsame := hstep.owner.resolve_left fun hdecrypt => nomatch hstage.symm.trans hdecrypt.1
      simp only [Watched.step, System.step, Option.mem_def.mp happly] at hk
      exact hguard.1 k ((hsame _).symm.trans hk)
  · rcases Watched.step_deployers hd with hd | ⟨c, hc, rfl⟩
    · exact h.tasks_step P e ht hchecked hforce x d hd hm
    · obtain ⟨rfl, happly, text, name, hstage⟩ := System.mem_deploying hc
      have hguard := hguard c happly
      simp only [hstage] at hguard
      simp only [Watched.step, System.step, Option.mem_def.mp happly] at ht
      exact (hguard.2 t ht hchecked hforce hm.symm).symm

/-- What an unforced deletion takes, at an event that keeps owners, was deployed under its key. -/
theorem OwnersKept.takesOwn (P : NodePlatform) {e : Event} (hguard : KeepsOwners runs w e) :
    TakesOwn P runs w e := by
  cases e with
  | taskStep i =>
    intro c hc hforce x htakes d hd
    have hstep := taskStep_deletes w.system.node c
    simp only [System.step, Option.mem_def.mp hc] at htakes
    generalize taskStep w.system.node c = result at hstep htakes
    rcases hstep.host with hhost | ⟨engine, workload, pending, rest, hstage, hm, hhost⟩
    · rw [hhost] at htakes
      exact absurd rfl htakes.2
    · have hguard := hguard c hc hforce
      simp only [hstage] at hguard
      rw [hhost] at htakes
      have hchecked : c.Checked := by simp [TaskCall.Checked, hstage]
      exact h.tasks c (List.mem_of_getElem? hc) hchecked hforce x d hd (hguard hm x htakes d hd)
  | _ => trivial

end Step

/-! ## Runs -/

/-- **Ownership protects workloads** in every run of events that keep owners, whatever the order of
their steps: at each of them, an unforced deletion takes no workload from the engines that was
deployed under another key. -/
theorem deletions_keep_to_their_key [DecidableEq ω] (P : NodePlatform)
    (runs : H → String × String → Option ω) (n : Node H) (events : List Event)
    (hguarded : Run.Guarded (Watched.step P runs) (KeepsOwners runs)
      { system := { node := n } } events) :
    Run.Guarded (Watched.step P runs) (TakesOwn P runs) { system := { node := n } } events := by
  have hstart : OwnersKept ({ system := { node := n } } : Watched H) :=
    ⟨fun _ _ hd => (nomatch hd), fun _ ht => (nomatch ht)⟩
  exact hguarded.of_invariant (fun _ e hguard hkept => step_ownersKept hkept P e hguard)
    (fun _ _ hguard hkept => hkept.takesOwn P hguard) hstart

/-! ## Podman -/

namespace PodmanEngine

/-- The pods that podman has, under any engine's name. -/
def podsShown {T : Type} (view : T → Pods) (t : T) (x : String × String) : Option Unit :=
  if x.2 ∈ (view t).names then some () else none

/-- Podman takes pods of the workload it is asked to remove only, where one of its two names can be
removed: it goes by the text of the id only where neither can. -/
theorem Acts.takes_own {T : Type} {e : PodmanEngine} {cli : Cli T} {view : T → Pods}
    (h : e.Acts cli view) {t : T} {id : String}
    (hnamed : (view t).fails 0 = false ∧ id ++ "-pod" ∈ (view t).names ∨
      (view t).fails 1 = false ∧ id ∈ (view t).names) {x : String × String}
    (htakes : Takes (podsShown view) t (e.removeWorkload cli t id).2 x) :
    x.2 = id ∨ x.2 = id ++ "-pod" := by
  obtain ⟨hbefore, hafter⟩ := htakes
  have hmem : x.2 ∈ (view t).names := by
    by_contra hnot
    exact hbefore (if_neg hnot)
  by_contra hother
  obtain ⟨hne, hne'⟩ := not_or.mp hother
  have hleft := Pods.mem_removeWorkload hnamed hmem hne hne'
  rw [h.removeWorkload] at hleft
  exact hafter ((if_pos hleft).trans (if_pos hmem).symm)

end PodmanEngine

/-! ## On the reference node -/

/-- The pods of the reference engine, by manifest. -/
def podRuns (pods : Pods) (x : String × String) : Option String :=
  if x.1 = "podman" then pods.keys.find? fun m => "beemesh-" ++ m = x.2 else none

/-- The pod of `m` was deployed under a key. -/
def podDeployers (key : Bytes) (x : String × String) : Option Deployer :=
  if x = ("podman", "beemesh-m") then some ⟨"m", key⟩ else none

theorem mem_podDeployers {key : Bytes} {x : String × String} {d : Deployer}
    (h : d ∈ podDeployers key x) : d = ⟨"m", key⟩ := by
  unfold podDeployers at h
  split_ifs at h
  · exact (Option.some.inj h).symm
  · exact nomatch h

theorem podRuns_insert (x : String × String) :
    podRuns ((∅ : Pods).insert "m" ∅) x =
      if x = ("podman", "beemesh-m") then some "m" else none := by
  obtain ⟨name, id⟩ := x
  have hkeys : ((∅ : Pods).insert "m" ∅).keys = ["m"] := rfl
  have hid : "beemesh-" ++ "m" = "beemesh-m" := rfl
  rw [podRuns, hkeys, List.find?_singleton]
  by_cases hname : name = "podman"
  · simp [hname, hid, eq_comm]
  · simp [hname]

/-- A pod that does not run has no deployer. -/
theorem podDeployers_eq_none (key : Bytes) (x : String × String)
    (h : podRuns ((∅ : Pods).insert "m" ∅) x = none) : podDeployers key x = none := by
  rw [podRuns_insert] at h
  split_ifs at h with hx
  exact if_neg hx

/-- An event at which no apply deploys, and no workload leaves that has a deployer. -/
theorem Watched.step_of_quiet [DecidableEq ω] {P : NodePlatform}
    {runs : H → String × String → Option ω} {w : Watched H} {e : Event} {s : System H}
    (hstep : w.system.step P e = s) (hquiet : w.system.deploying e = none)
    (hkept : ∀ x, runs s.node.host x = none → w.deployers x = none) :
    w.step P runs e = { system := s, deployers := w.deployers } := by
  obtain ⟨system, deployers⟩ := w
  simp only [Watched.step, hstep, hquiet]
  congr 1
  funext x
  split_ifs with hx
  · exact (hkept x hx).symm
  · rfl

/-- The first pod is deployed. -/
theorem step_deploy_watched {s : System Pods} {deployers : String × String → Option Deployer}
    {key : Bytes} (happly : s.apply = some (podCall "m" key (.deploy podText "podman")))
    (hregistry : s.node.registry = some podmanRegistry) (hhost : s.node.host = ∅) :
    Watched.step everyone podRuns ⟨s, deployers⟩ .applyStep =
      { system := { s with
          node := { s.node with host := (∅ : Pods).insert "m" ∅ }
          apply := some (podCall "m" key (.announce "podman" ⟨"beemesh-" ++ "m", "m", ∅⟩)) }
        deployers := podDeployers key } := by
  have hdeploying : s.deploying .applyStep = some (podCall "m" key (.deploy podText "podman")) := by
    rw [System.deploying, happly]
    rfl
  have hempty (x : String × String) : podRuns ∅ x = none := by
    rw [podRuns]
    split_ifs
    · rfl
    · rfl
  simp only [Watched.step, step_deploy_pod happly hregistry, hdeploying, hhost, hempty,
    podRuns_insert]
  congr 1
  funext x
  by_cases hx : x = ("podman", "beemesh-m")
  · have hdeployed : podDeployers key x = some ⟨"m", key⟩ := if_pos hx
    rw [hdeployed, if_pos hx, if_neg (by simp), if_pos (.inl (by simp))]
    rfl
  · have hnone : podDeployers key x = none := if_neg hx
    rw [hnone, if_neg hx, if_pos rfl]

/-- Key `7` applies `m`. -/
def applyEvents : List Event :=
  [.applyMessage "p" (sealedBy [7] (applyRequestCodec.write (applyPod "m")) "b"),
    .applyStep, .applyStep, .applyStep, .applyStep]

/-- The node that granted `m`, once it is applied and a key is recorded for its owner. -/
def appliedSystem (owner : Bytes) : System Pods where
  node := { Node.announce { bidNode.noted "p" "b" with
      verifier := bidNode.verifier.pruned 0
      host := (∅ : Pods).insert "m" ∅ } "m" (deploymentMetadata "podman" ("beemesh-" ++ "m")) with
    manifestOwners := (∅ : Table String Bytes).insert "m" owner }
  apply := some (podCall "m" [7] .done)

/-- Key `7` applies `m`, and nothing speaks against it. -/
theorem run_applyEvents :
    let start : Watched Pods := { system := { node := bidNode } }
    Run.Guarded (Watched.step everyone podRuns) (KeepsOwners podRuns) start applyEvents ∧
      Run.run (Watched.step everyone podRuns) start applyEvents =
        ⟨appliedSystem [7], podDeployers [7]⟩ := by
  intro start
  simp only [applyEvents, Run.guarded_cons, Run.run_cons]
  rw [Watched.step_of_quiet (step_applyMessage_pod rfl (by decide) (by decide) (by decide)) rfl
      fun _ _ => rfl,
    Watched.step_of_quiet (step_decrypt_pod rfl) rfl fun _ _ => rfl,
    Watched.step_of_quiet (step_select_pod rfl rfl) rfl fun _ _ => rfl,
    step_deploy_watched rfl rfl rfl,
    Watched.step_of_quiet (step_announce_pod rfl) rfl (podDeployers_eq_none [7])]
  refine ⟨⟨trivial, ?_, ?_, ?_, ?_, trivial⟩, rfl⟩
  all_goals
    intro c hc
    obtain rfl := Option.some.inj hc
  -- Nothing is deployed yet, so any key may be recorded.
  · exact fun _ x d hd => nomatch hd
  · trivial
  · exact ⟨fun k hk => (Option.some.inj hk).symm, fun t ht => nomatch ht⟩
  · trivial

/-- A key deletes `m`, up to the removal of its pod. -/
def deleteEvents (key : Bytes) : List Event :=
  [.deleteMessage "p" (deletePod "m" key "c"), .beginTask 0, .taskStep 0, .taskStep 0]

/-- The node whose delete task for `m` is at a stage. -/
def deletingSystem (key : Bytes) (stage : TaskStage Pods) : System Pods where
  node := (appliedSystem key).node.noted "p" "c"
  apply := some (podCall "m" [7] .done)
  tasks := [⟨podTask "m" key "c", stage, []⟩]

/-- The task has listed the pod of `m`. -/
def listedStage : TaskStage Pods :=
  .workloads ⟨"podman", podman⟩ [⟨"beemesh-" ++ "m", "m", ∅⟩] []

/-- The key that is recorded deletes `m`: its task finds the pod, whoever deployed it. -/
theorem run_deleteEvents (key : Bytes) (hkey : key ≠ []) (owner : Bytes) :
    let start : Watched Pods := ⟨appliedSystem key, podDeployers owner⟩
    Run.Guarded (Watched.step everyone podRuns) (KeepsOwners podRuns) start (deleteEvents key) ∧
      Run.run (Watched.step everyone podRuns) start (deleteEvents key) =
        ⟨deletingSystem key listedStage, podDeployers owner⟩ := by
  intro start
  have hnonce : ¬ (bidNode.noted "p" "b").nonceStore.Live 0 nonceWindow "p" "c" := by decide
  have hcheck : (deletingSystem key .check).step everyone (.taskStep 0) =
      deletingSystem key (.engines [⟨"podman", podman⟩]) := by
    have hauthorized : Authorized (deletingSystem key .check).node (podTask "m" key "c") :=
      ⟨key, rfl, hkey, .inl rfl⟩
    have hstep := taskStep_of_authorized rfl hauthorized []
    simp only [System.step, deletingSystem, List.getElem?_cons_zero] at hstep ⊢
    rw [hstep]
    rfl
  have hnone := podDeployers_eq_none owner
  simp only [deleteEvents, Run.guarded_cons, Run.run_cons]
  rw [Watched.step_of_quiet (step_deleteMessage_pod (s := appliedSystem key) rfl hnonce) rfl hnone,
    Watched.step_of_quiet (s := deletingSystem key .check) rfl rfl hnone,
    Watched.step_of_quiet hcheck rfl hnone,
    Watched.step_of_quiet (s := deletingSystem key listedStage) rfl rfl hnone]
  refine ⟨⟨trivial, trivial, ?_, ?_, trivial⟩, rfl⟩
  all_goals
    intro c hc
    obtain rfl := Option.some.inj hc
    exact fun _ => trivial

/-- What the task takes next is that pod. -/
theorem takes_pod (key : Bytes) : Takes podRuns (deletingSystem key listedStage).node.host
    ((deletingSystem key listedStage).step everyone (.taskStep 0)).node.host
    ("podman", "beemesh-m") :=
  ⟨nofun, nofun⟩

/-- Key `7` applies `m` and deletes it: the pod that it takes is its own. -/
theorem deletions_keep_to_their_key_reference :
    let start : Watched Pods := { system := { node := bidNode } }
    let w := Run.run (Watched.step everyone podRuns) start (applyEvents ++ deleteEvents [7])
    Takes podRuns w.system.node.host (w.system.step everyone (.taskStep 0)).node.host
        ("podman", "beemesh-m") ∧
      w.deployers ("podman", "beemesh-m") = some ⟨"m", [7]⟩ ∧
      Run.Guarded (Watched.step everyone podRuns) (TakesOwn everyone podRuns) start
        (applyEvents ++ (deleteEvents [7] ++ [.taskStep 0])) := by
  intro start w
  obtain ⟨happlied, hrun⟩ := run_applyEvents
  obtain ⟨hdeleted, hrun'⟩ := run_deleteEvents [7] (by decide) [7]
  have hw : w = ⟨deletingSystem [7] listedStage, podDeployers [7]⟩ := by
    rw [← hrun', ← hrun, ← Run.run_append]
  rw [hw]
  refine ⟨takes_pod [7], rfl, ?_⟩
  refine deletions_keep_to_their_key everyone podRuns bidNode _ ?_
  rw [Run.guarded_append, hrun, Run.guarded_append, hrun']
  refine ⟨happlied, hdeleted, ?_, trivial⟩
  intro c hc
  obtain rfl := Option.some.inj hc
  intro _ _ x _ d hd
  rw [mem_podDeployers hd]
  rfl

/-- Key `7` applies `m`, key `8` creates a task for `m` and takes the pod of key `7`. -/
theorem takeover_removes :
    ¬ Run.Guarded (Watched.step everyone podRuns) (TakesOwn everyone podRuns)
      { system := { node := bidNode } }
      (applyEvents ++ .createTask ⟨none, [8]⟩ "m" :: (deleteEvents [8] ++ [.taskStep 0])) := by
  obtain ⟨-, hrun⟩ := run_applyEvents
  obtain ⟨-, hrun'⟩ := run_deleteEvents [8] (by decide) [7]
  rw [Run.guarded_append, hrun, Run.guarded_cons,
    Watched.step_of_quiet (s := appliedSystem [8]) rfl rfl (podDeployers_eq_none [7]),
    Run.guarded_append, hrun']
  rintro ⟨-, -, -, hown, -⟩
  exact absurd (hown _ rfl rfl _ (takes_pod [8]) _ rfl) (by decide)

end Beemesh
