import Beemesh.Lib.Run
import Beemesh.Lib.Text
import Beemesh.Workplane.Task
import Mathlib.Data.List.Perm.Basic

/-!
# Self-healing replicas

Every replica of a workload counts, at every tick, the replicas that the workload DHT lists, and
posts a clone task for each that is missing. A clone task takes its time until a replica has started
from it; the next tick, of this replica or of another, does not know of it and posts again.

What gets through of a tick's posts is up to the network: a post can fail to arrive, and one that
arrives can fail to be answered.

## Main definitions

* `parseManifestName`, `publishCloneTask`, `checkAndHeal`: a tick
* `Workload`, `healStep`: the live replicas and the outstanding clone tasks, and what happens to
  them
* `LosesEnough`: a tick loses as many posts as there are outstanding clone tasks

## Main results

* `length_checkAndHeal`: the clone tasks of one tick
* `workload_within_iff`: when replicas and clone tasks stay within the desired number
-/

namespace Beemesh.Workplane

open Run

/-! ## The name in a manifest -/

/-- What manifests are read with: the YAML library, and quoting in messages. -/
structure ManifestReader where
  /-- The field `kind`. -/
  kind : String → Except String String
  /-- The name of a Deployment. -/
  deploymentName : String → Except String String
  /-- The name of a StatefulSet. -/
  statefulSetName : String → Except String String
  quote : String → String

variable (Y : ManifestReader)

/-- `strings.ToLower`, of what becomes ASCII. -/
def toLower (s : String) : String :=
  String.ofList ((Text.toAsciiLowercase s).toList.map fun c =>
    -- The capital I with a dot, and the Kelvin sign.
    if c.toNat = 0x130 then 'i' else if c.toNat = 0x212A then 'k' else c)

/-- `normalizeKind`. -/
def normalizeKind (kind : String) : String :=
  match toLower (Text.trim kind) with
  | "statelessworkload" => "Deployment"
  | "statefulworkload" => "StatefulSet"
  | _ => kind

/-- `splitYAMLDocuments`. -/
def splitYAMLDocuments (input : String) : List String :=
  ((Text.split input "---").map Text.trim).filter fun part => part ≠ ""

/-- The name that a document of the wanted kind has to have. -/
def documentName (name : String) (message : String) : Except String String :=
  if name ≠ "" then .ok name else .error message

/-- The loop of `ParseManifestName` over the documents. -/
def nameInDocuments (targetKind : String) : List String → Except String String
  | [] => .error s!"could not find metadata.name for kind {Y.quote targetKind} in manifest"
  | doc :: docs =>
    -- Documents that cannot be read, or are of another kind, are passed over. None is empty.
    match Y.kind doc with
    | .error _ => nameInDocuments targetKind docs
    | .ok kind =>
      if toLower kind = "deployment" ∧ (targetKind = "Deployment" ∨ targetKind = "") then
        match Y.deploymentName doc with
        | .error _ => nameInDocuments targetKind docs
        | .ok name => documentName name "deployment manifest missing metadata.name"
      else if toLower kind = "statefulset" ∧ (targetKind = "StatefulSet" ∨ targetKind = "") then
        match Y.statefulSetName doc with
        | .error _ => nameInDocuments targetKind docs
        | .ok name => documentName name "statefulset manifest missing metadata.name"
      else nameInDocuments targetKind docs

/-- `ParseManifestName`. -/
def parseManifestName (manifest kind : String) : Except String String :=
  if manifest = "" then .error "manifest content is empty"
  else
    let rawDocs := splitYAMLDocuments manifest
    if rawDocs = [] then .error "no valid YAML documents found in manifest"
    else nameInDocuments Y (normalizeKind kind) rawDocs

/-! ## A tick -/

/-- `SelfHealer`, with what it reads of its configuration. -/
structure SelfHealer where
  replicas : ℕ
  namespaceName : String
  manifest : String

/-- What becomes of a post: whether it gets to the machine plane, and the answer that comes back. -/
structure Post where
  arrives : Bool
  response : Except String ℕ

/-- The kind of the workload, and its name. -/
def cloneSource (manifest : String) : Except String (String × String) := do
  let kind ← match Y.kind manifest with
    | .error e => .error s!"parse manifest kind: {e}"
    | .ok "Deployment" => .ok "StatelessWorkload"
    | .ok "StatefulSet" => .ok "StatefulWorkload"
    | .ok kind => .error s!"unsupported manifest kind {Y.quote kind}"
  match parseManifestName Y manifest kind with
  | .error e => .error s!"parse manifest name: {e}"
  | .ok name => .ok (kind, name)

/-- `publishCloneTask`: the task that is published, if any, and what comes back. -/
def publishCloneTask (s : SelfHealer) (uuid : String) (post : Post) :
    Option Task × Except String Unit :=
  match cloneSource Y s.manifest with
  | .error e => (none, .error e)
  | .ok (kind, name) =>
    let task : Task :=
      { taskID := uuid
        kind := kind
        name := name
        manifest := s.manifest
        destination := "scheduler"
        cloneRequest := true
        replicas := 1
        namespaceName := s.namespaceName }
    let result := match post.response with
      | .error e => .error e
      | .ok status =>
        if status ≥ 300 then .error s!"publish clone task: status {status}" else .ok ()
    (if post.arrives then some task else none, result)

/-- `checkAndHeal`: the tasks that are published. What comes back is not looked at. -/
def checkAndHeal (s : SelfHealer) (found : Except String (List String)) (uuid : ℕ → String)
    (posts : ℕ → Post) : List Task :=
  match found with
  | .error _ => []
  | .ok providers =>
    if s.replicas ≤ providers.length then []
    else (List.range (s.replicas - providers.length)).filterMap fun i =>
      (publishCloneTask Y s (uuid i) (posts i)).1

/-! ## A workload -/

/-- The live replicas of a workload, and the clone tasks from which none has started yet. -/
structure Workload where
  live : List String
  outstanding : List Task

/-- What happens to a workload. -/
inductive HealAction
  /-- A replica's healer ticks. The DHT finds replicas for it. -/
  | tick (id : String) (found : Except String (List String)) (uuid : ℕ → String) (posts : ℕ → Post)
  | fail (id : String)
  /-- A replica starts from a clone task. -/
  | start (task : Task) (id : String)

/-- The DHT lists exactly the live replicas, when it answers. -/
def Lists (live : List String) : Except String (List String) → Prop
  | .error _ => True
  | .ok providers => providers.Perm live

instance (live : List String) : ∀ found, Decidable (Lists live found)
  | .error _ => inferInstanceAs (Decidable True)
  | .ok providers => inferInstanceAs (Decidable (providers.Perm live))

/-- One step, where it is possible. -/
def healStep (s : SelfHealer) (w : Workload) : HealAction → Workload
  | .tick id found uuid posts =>
    if id ∈ w.live ∧ Lists w.live found then
      { w with outstanding := w.outstanding ++ checkAndHeal Y s found uuid posts }
    else w
  | .fail id => { w with live := w.live.erase id }
  | .start task id =>
    if task ∈ w.outstanding ∧ id ∉ w.live then
      { live := w.live ++ [id], outstanding := w.outstanding.erase task }
    else w

/-- Replicas and clone tasks together are no more than desired. -/
def Workload.Within (s : SelfHealer) (w : Workload) : Prop :=
  w.live.length + w.outstanding.length ≤ s.replicas

/-- The posts among the first `n` that do not arrive. -/
def lostPosts (posts : ℕ → Post) (n : ℕ) : ℕ :=
  (List.range n).countP fun i => !(posts i).arrives

/-- A live replica that misses others, and can clone them, loses at least as many of its posts as
there are clone tasks outstanding. -/
def LosesEnough (s : SelfHealer) (w : Workload) : HealAction → Prop
  | .tick id (.ok providers) _ posts =>
    id ∈ w.live → providers.Perm w.live → w.live.length < s.replicas →
      (cloneSource Y s.manifest).isOk = true →
        w.outstanding.length ≤ lostPosts posts (s.replicas - w.live.length)
  | _ => True

/-! ## The clone tasks of a tick -/

variable {Y} {s : SelfHealer}

/-- A post of a manifest that can be cloned is published if it arrives. -/
theorem isSome_publishCloneTask (uuid : String) (post : Post) :
    (publishCloneTask Y s uuid post).1.isSome =
      ((cloneSource Y s.manifest).isOk && post.arrives) := by
  unfold publishCloneTask
  cases cloneSource Y s.manifest with
  | error e => rfl
  | ok source => cases h : post.arrives <;> simp [Except.isOk, Except.toBool]

theorem countP_arrives_add_lostPosts (posts : ℕ → Post) (n : ℕ) :
    ((List.range n).countP fun i => (posts i).arrives) + lostPosts posts n = n := by
  have h := List.length_eq_countP_add_countP (fun i => (posts i).arrives) (l := List.range n)
  rw [List.length_range] at h
  simpa [lostPosts] using h.symm

/-- A tick with a manifest that can be cloned publishes a task for each missing replica, but for the
posts that are lost. -/
theorem length_checkAndHeal {providers : List String} (hlt : providers.length < s.replicas)
    (hclone : (cloneSource Y s.manifest).isOk = true) (uuid : ℕ → String) (posts : ℕ → Post) :
    (checkAndHeal Y s (.ok providers) uuid posts).length +
      lostPosts posts (s.replicas - providers.length) = s.replicas - providers.length := by
  have hcount := countP_arrives_add_lostPosts posts (s.replicas - providers.length)
  simp only [checkAndHeal, if_neg (Nat.not_le.mpr hlt), List.length_filterMap_eq_countP,
    isSome_publishCloneTask, hclone, Bool.true_and]
  exact hcount

/-- No other tick publishes anything. -/
theorem checkAndHeal_eq_nil {found : Except String (List String)}
    (h : ∀ providers, found = .ok providers → providers.length < s.replicas →
      (cloneSource Y s.manifest).isOk = false) (uuid : ℕ → String) (posts : ℕ → Post) :
    checkAndHeal Y s found uuid posts = [] := by
  cases found with
  | error e => rfl
  | ok providers =>
    simp only [checkAndHeal]
    split_ifs with hle
    · rfl
    · have hclone := h providers rfl (Nat.not_le.mp hle)
      refine List.filterMap_eq_nil_iff.mpr fun i _ => ?_
      rw [← Option.not_isSome_iff_eq_none, isSome_publishCloneTask, hclone, Bool.false_and]
      exact Bool.false_ne_true

/-! ## Runs -/

/-- A tick of a live replica, which finds the live ones. -/
theorem within_tick_iff {w : Workload} (hw : w.Within s) {id : String} (hid : id ∈ w.live)
    {providers : List String} (hperm : providers.Perm w.live) {uuid : ℕ → String}
    {posts : ℕ → Post} :
    Workload.Within s
        { w with outstanding := w.outstanding ++ checkAndHeal Y s (.ok providers) uuid posts } ↔
      LosesEnough Y s w (.tick id (.ok providers) uuid posts) := by
  have hlength := hperm.length_eq
  by_cases hheals : w.live.length < s.replicas ∧ (cloneSource Y s.manifest).isOk = true
  · obtain ⟨hlt, hclone⟩ := hheals
    have hpublished := length_checkAndHeal (hlength ▸ hlt) hclone uuid posts
    rw [hlength] at hpublished
    have hloses : LosesEnough Y s w (.tick id (.ok providers) uuid posts) ↔
        w.outstanding.length ≤ lostPosts posts (s.replicas - w.live.length) :=
      ⟨fun h => h hid hperm hlt hclone, fun h _ _ _ _ => h⟩
    rw [hloses, Workload.Within, List.length_append]
    dsimp only
    omega
  · -- Nothing is missing, or the manifest cannot be cloned.
    have hnil : checkAndHeal Y s (.ok providers) uuid posts = [] := by
      refine checkAndHeal_eq_nil (fun found hfound hlt => ?_) uuid posts
      obtain rfl := Except.ok.inj hfound
      exact Bool.eq_false_iff.mpr fun hclone => hheals ⟨hlength ▸ hlt, hclone⟩
    rw [hnil, List.append_nil]
    exact iff_of_true hw fun _ _ hlt hclone => absurd ⟨hlt, hclone⟩ hheals

/-- A step of a workload within its bound stays within it exactly if it loses enough posts. -/
theorem within_healStep_iff {w : Workload} (hw : w.Within s) (a : HealAction) :
    (healStep Y s w a).Within s ↔ LosesEnough Y s w a := by
  cases a with
  | tick id found uuid posts =>
    simp only [healStep]
    split_ifs with henabled
    · cases found with
      | error e => exact iff_of_true (by simpa [Workload.Within, checkAndHeal] using hw) trivial
      | ok providers => exact within_tick_iff hw henabled.1 henabled.2
    · refine iff_of_true hw ?_
      cases found with
      | error e => trivial
      | ok providers => exact fun hid hperm => absurd ⟨hid, hperm⟩ henabled
  | fail id =>
    refine iff_of_true ?_ trivial
    exact Nat.le_trans (Nat.add_le_add_right (List.length_erase_le) _) hw
  | start task id =>
    refine iff_of_true ?_ trivial
    simp only [healStep]
    split_ifs with henabled
    · -- The clone task becomes a replica, so that the sum stays.
      have hpos := List.length_pos_of_mem henabled.1
      have herase := List.length_erase_of_mem henabled.1
      rw [Workload.Within] at hw ⊢
      rw [List.length_append, List.length_singleton, herase]
      omega
    · exact hw

/-- **Within bounds**: whatever ticks, failures and starts there are, live replicas and outstanding
clone tasks stay within the desired number throughout exactly if every tick that finds replicas
missing loses enough of its posts; where none is lost, if it comes while no clone task is
outstanding. -/
theorem workload_within_iff (Y : ManifestReader) (s : SelfHealer) {w : Workload}
    (hw : w.Within s) (acts : List HealAction) :
    Always (healStep Y s) (Workload.Within s) w acts ↔
      Guarded (healStep Y s) (LosesEnough Y s) w acts := by
  have hp (w : Workload) (hw : w.Within s) : w.Within s := hw
  have hstep (w : Workload) (a : HealAction) (hw : w.Within s) (ha : LosesEnough Y s w a) :
      (healStep Y s w a).Within s := (within_healStep_iff hw a).mpr ha
  have hbreak (w : Workload) (a : HealAction) (_ : True) (hw : w.Within s)
      (ha : ¬ LosesEnough Y s w a) : ¬ (healStep Y s w a).Within s :=
    fun h => ha ((within_healStep_iff hw a).mp h)
  exact always_iff_guarded hp hstep hbreak (fun _ _ => trivial) hw

/-! ## A workload of two -/

def webManifest : String := "kind: Deployment\nmetadata:\n  name: web"

/-- Reads this manifest alone. -/
def webReader : ManifestReader where
  kind doc := if doc = webManifest then .ok "Deployment" else .error "not read"
  deploymentName doc := if doc = webManifest then .ok "web" else .error "not read"
  statefulSetName _ := .error "not read"
  quote s := "\"" ++ s ++ "\""

def webHealer : SelfHealer := ⟨2, "default", webManifest⟩

/-- Two replicas, of which one fails. -/
def webWorkload : Workload := ⟨["a", "b"], []⟩

/-- The clone task of a tick. -/
def webTask (uuid : String) : Task :=
  { taskID := uuid
    kind := "StatelessWorkload"
    name := "web"
    manifest := webManifest
    destination := "scheduler"
    cloneRequest := true
    replicas := 1
    namespaceName := "default" }

/-- A tick at which all posts arrive and are answered. -/
def webTick (live : List String) (uuid : String) : HealAction :=
  .tick "a" (.ok live) (fun _ => uuid) fun _ => ⟨true, .ok 200⟩

theorem cloneSource_web :
    cloneSource webReader webManifest = .ok ("StatelessWorkload", "web") := by
  decide

/-- One replica alone asks for the other, whatever is outstanding. -/
theorem healStep_webTick (outstanding : List Task) (uuid : String) :
    healStep webReader webHealer ⟨["a"], outstanding⟩ (webTick ["a"] uuid) =
      ⟨["a"], outstanding ++ [webTask uuid]⟩ := by
  have htask : publishCloneTask webReader webHealer uuid ⟨true, .ok 200⟩ =
      (some (webTask uuid), .ok ()) := by
    simp only [publishCloneTask, webHealer, cloneSource_web]
    rfl
  have henabled : "a" ∈ ["a"] ∧ Lists ["a"] (.ok ["a"]) := ⟨List.mem_singleton_self _, .refl _⟩
  have hrange : List.range (webHealer.replicas - ["a"].length) = [0] := rfl
  rw [webTick, healStep, if_pos henabled, checkAndHeal, if_neg (by decide), hrange,
    List.filterMap_cons, htask, List.filterMap_nil]

/-- A replica fails, and the one that is asked for starts before the next tick. -/
def healed : List HealAction :=
  [.fail "b", webTick ["a"] "1", .start (webTask "1") "c", webTick ["c", "a"] "2"]

theorem web_within :
    Always (healStep webReader webHealer) (Workload.Within webHealer) webWorkload healed := by
  have hw : webWorkload.Within webHealer := by unfold Workload.Within; decide
  refine (workload_within_iff webReader webHealer hw _).mpr ?_
  have hfail : healStep webReader webHealer webWorkload (.fail "b") = ⟨["a"], []⟩ := rfl
  have hstart : healStep webReader webHealer ⟨["a"], [webTask "1"]⟩ (.start (webTask "1") "c") =
      ⟨["a", "c"], []⟩ := by
    have henabled : webTask "1" ∈ [webTask "1"] ∧ "c" ∉ ["a"] :=
      ⟨List.mem_singleton_self _, by decide⟩
    rw [healStep, if_pos henabled, List.erase_cons_head]
    rfl
  rw [healed, guarded_cons, guarded_cons, guarded_cons, guarded_cons, hfail, healStep_webTick,
    List.nil_append, hstart]
  refine ⟨trivial, fun _ _ _ _ => Nat.zero_le _, trivial, fun _ _ hlt _ => ?_, trivial⟩
  exact absurd hlt (by decide)

/-- A second tick before the replica has started posts another clone task: one replica is live, and
two are on their way. -/
theorem web_overshoots :
    let w := run (healStep webReader webHealer) webWorkload
      [.fail "b", webTick ["a"] "1", webTick ["a"] "2"]
    webWorkload.Within webHealer ∧ w.live.length = 1 ∧ w.outstanding.length = 2 ∧
      ¬ w.Within webHealer := by
  intro w
  have hw : w = ⟨["a"], [webTask "1", webTask "2"]⟩ := by
    have hfail : healStep webReader webHealer webWorkload (.fail "b") = ⟨["a"], []⟩ := rfl
    simp only [w, run_cons, run_nil, hfail, healStep_webTick, List.nil_append, List.cons_append]
  rw [hw]
  unfold Workload.Within
  decide

end Beemesh.Workplane
