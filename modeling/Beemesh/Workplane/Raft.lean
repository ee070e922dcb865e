import Beemesh.Lib.Run
import Mathlib.Data.List.Perm.Basic
import Mathlib.Logic.Function.Basic

/-!
# One Raft cluster for a workload

Each replica of a stateful workload registers in the workload DHT, looks who is registered, and
then bootstraps a cluster of its own or joins the others. It bootstraps if it finds nobody but
itself. The one replica that can find nobody else is the first to register, and it does so only if
no other registers before it looks.

## Main definitions

* `bootstrapIfNeeded`: how a replica starts with the peers it found
* `Launch`, `launchStep`: the replicas on their way, in any order
* `OneCluster`: one replica bootstraps, and the others join it
* `LooksAlone`: a replica looks while it is the only one

## Main results

* `Launch.Consistent.step`: everybody finds the first replica to register
* `oneCluster_iff`: when the replicas form one cluster
-/

namespace Beemesh.Workplane

open Run

/-! ## Replicas -/

/-- How a Raft node starts. -/
inductive RaftStart
  | bootstrapCluster (id : String) (cluster : List String)
  | joinCluster (id : String) (cluster : List String)
  deriving DecidableEq

/-- `BootstrapIfNeeded`. -/
def bootstrapIfNeeded (selfID : String) (peerIDs : List String) : RaftStart :=
  if peerIDs.length ≤ 1 then .bootstrapCluster selfID [selfID]
  else .joinCluster selfID (peerIDs.filter fun id => id ≠ selfID)

/-- Where `NewWorkload` is in a replica. -/
inductive Progress
  | created
  | registered
  | found (peerIDs : List String)
  | started (start : RaftStart)
  deriving DecidableEq

/-- The replicas of a workload while they start. -/
structure Launch where
  /-- Who is registered in the workload DHT, from the first on. -/
  registered : List String
  progress : String → Progress

/-- What a replica does next. -/
inductive LaunchAction
  | registerService (id : String)
  /-- The DHT answers with these peers. -/
  | findServicePeers (id : String) (peerIDs : List String)
  | bootstrapIfNeeded (id : String)

def Launch.start : Launch := ⟨[], fun _ => .created⟩

/-- One step of a replica among `ids`, when it is its turn. The DHT answers with all replicas
registered so far, in some order. -/
def launchStep (ids : List String) (s : Launch) : LaunchAction → Launch
  | .registerService id =>
    if id ∈ ids ∧ s.progress id = .created then
      ⟨s.registered ++ [id], Function.update s.progress id .registered⟩
    else s
  | .findServicePeers id peerIDs =>
    if s.progress id = .registered ∧ peerIDs.Perm s.registered then
      { s with progress := Function.update s.progress id (.found peerIDs) }
    else s
  | .bootstrapIfNeeded id =>
    match s.progress id with
    | .found peerIDs => { s with
        progress := Function.update s.progress id (.started (bootstrapIfNeeded id peerIDs)) }
    | _ => s

namespace Launch

/-- Every replica has started. -/
def Complete (ids : List String) (s : Launch) : Prop :=
  ∀ id ∈ ids, ∃ start, s.progress id = .started start

/-- One replica bootstraps a cluster of its own, and all others join with a list of peers that
contains it. -/
def OneCluster (ids : List String) (s : Launch) : Prop :=
  ∃ b ∈ ids, s.progress b = .started (.bootstrapCluster b [b]) ∧
    ∀ id ∈ ids, id ≠ b →
      ∃ cluster, s.progress id = .started (.joinCluster id cluster) ∧ b ∈ cluster

/-- The replica looks for its peers while nobody else is registered. -/
def LooksAlone (id : String) (s : Launch) : LaunchAction → Prop
  | .findServicePeers id' peerIDs =>
    id' = id ∧ s.progress id = .registered ∧ s.registered = [id] ∧ peerIDs = [id]
  | _ => False

/-! ## What replicas find -/

/-- A replica that looked has found itself, and the first replica to register. -/
structure Snapshot (s : Launch) (id : String) (peerIDs : List String) : Prop where
  self_mem : id ∈ peerIDs
  head_mem : ∀ b, s.registered.head? = some b → b ∈ peerIDs

/-- What holds of all replicas, whatever steps they take. -/
structure Consistent (ids : List String) (s : Launch) : Prop where
  mem_registered : ∀ id, id ∈ s.registered ↔ s.progress id ≠ .created
  mem_ids : ∀ id, s.progress id ≠ .created → id ∈ ids
  found : ∀ id peerIDs, s.progress id = .found peerIDs → s.Snapshot id peerIDs
  started : ∀ id start, s.progress id = .started start →
    ∃ peerIDs, start = bootstrapIfNeeded id peerIDs ∧ s.Snapshot id peerIDs

theorem consistent_start (ids : List String) : start.Consistent ids where
  mem_registered id := iff_of_false List.not_mem_nil fun h => h rfl
  mem_ids id h := absurd rfl h
  found _ _ h := by cases h
  started _ _ h := by cases h

variable {ids : List String} {s s' : Launch} {id : String}

/-- The first replica to register stays the first. -/
theorem head?_registered
    (hgrow : s'.registered = s.registered ∨ s'.registered = s.registered ++ [id])
    (hne : s.registered ≠ []) : s'.registered.head? = s.registered.head? := by
  rcases hgrow with heq | heq
  · rw [heq]
  · rw [heq, List.head?_append_of_ne_nil _ hne]

/-- What a replica found stays what it found, while others register. -/
theorem Snapshot.of_head? {peerIDs : List String} (h : s.Snapshot id peerIDs)
    (hhead : s'.registered.head? = s.registered.head?) : s'.Snapshot id peerIDs :=
  ⟨h.self_mem, fun b hb => h.head_mem b (hhead ▸ hb)⟩

/-- A replica that gets on with what it found keeps the others where they are. -/
theorem Consistent.update (hs : s.Consistent ids) (hid : id ∈ ids) {v : Progress}
    (hprogress : s'.progress = Function.update s.progress id v)
    (hgrow : s'.registered = s.registered ∧ id ∈ s.registered ∨
      s'.registered = s.registered ++ [id])
    (hv : v ≠ .created) (hfound : ∀ peerIDs, v = .found peerIDs → s'.Snapshot id peerIDs)
    (hstarted : ∀ start, v = .started start →
      ∃ peerIDs, start = bootstrapIfNeeded id peerIDs ∧ s'.Snapshot id peerIDs) :
    s'.Consistent ids := by
  have hself : s'.progress id = v := by rw [hprogress, Function.update_self]
  have hother {id' : String} (hne : id' ≠ id) : s'.progress id' = s.progress id' := by
    rw [hprogress, Function.update_of_ne hne]
  -- Who has found anybody is registered, so that the first to register was there.
  have hkeep {id' : String} {peerIDs : List String} (hne : s.progress id' ≠ .created)
      (h : s.Snapshot id' peerIDs) : s'.Snapshot id' peerIDs :=
    h.of_head? (head?_registered (hgrow.imp_left And.left)
      (List.ne_nil_of_mem ((hs.mem_registered id').mpr hne)))
  constructor
  · intro id'
    rcases eq_or_ne id' id with rfl | hne
    · refine iff_of_true ?_ (hself ▸ hv)
      rcases hgrow with ⟨heq, hmem⟩ | heq
      · exact heq ▸ hmem
      · exact heq ▸ List.mem_append_right _ (List.mem_singleton_self _)
    · rw [hother hne, ← hs.mem_registered]
      rcases hgrow with ⟨heq, -⟩ | heq
      · rw [heq]
      · rw [heq, List.mem_append, List.mem_singleton, or_iff_left hne]
  · intro id' h
    rcases eq_or_ne id' id with rfl | hne
    · exact hid
    · exact hs.mem_ids id' (hother hne ▸ h)
  · intro id' peerIDs h
    rcases eq_or_ne id' id with rfl | hne
    · exact hfound peerIDs (hself ▸ h)
    · rw [hother hne] at h
      exact hkeep (h ▸ Progress.noConfusion) (hs.found id' peerIDs h)
  · intro id' start h
    rcases eq_or_ne id' id with rfl | hne
    · exact hstarted start (hself ▸ h)
    · rw [hother hne] at h
      obtain ⟨peerIDs, hstart, hsnapshot⟩ := hs.started id' start h
      exact ⟨peerIDs, hstart, hkeep (h ▸ Progress.noConfusion) hsnapshot⟩

/-- **Everybody finds the first**: whatever replicas do, one that looked has found itself and the
first replica to register. -/
theorem Consistent.step (hs : s.Consistent ids) (a : LaunchAction) :
    (launchStep ids s a).Consistent ids := by
  cases a with
  | registerService id =>
    simp only [launchStep]
    split_ifs with h
    · refine hs.update h.1 rfl (.inr rfl) Progress.noConfusion ?_ ?_
      · exact fun _ h => by cases h
      · exact fun _ h => by cases h
    · exact hs
  | findServicePeers id peerIDs =>
    simp only [launchStep]
    split_ifs with h
    · obtain ⟨hprogress, hperm⟩ := h
      have hne : s.progress id ≠ .created := hprogress ▸ Progress.noConfusion
      have hmem := (hs.mem_registered id).mpr hne
      refine hs.update (hs.mem_ids id hne) rfl (.inl ⟨rfl, hmem⟩) Progress.noConfusion ?_ ?_
      · rintro _ ⟨rfl⟩
        exact ⟨hperm.mem_iff.mpr hmem, fun b hb => hperm.mem_iff.mpr (List.mem_of_mem_head? hb)⟩
      · exact fun _ h => by cases h
    · exact hs
  | bootstrapIfNeeded id =>
    simp only [launchStep]
    split
    · next peerIDs h =>
      have hne : s.progress id ≠ .created := h ▸ Progress.noConfusion
      have hmem := (hs.mem_registered id).mpr hne
      refine hs.update (hs.mem_ids id hne) rfl (.inl ⟨rfl, hmem⟩) Progress.noConfusion ?_ ?_
      · exact fun _ h => by cases h
      · rintro _ ⟨rfl⟩
        exact ⟨peerIDs, rfl, (hs.found id peerIDs h).of_head? rfl⟩
    · exact hs

/-! ## Who bootstraps -/

/-- A replica bootstraps exactly with nobody but itself in what it found. -/
theorem Snapshot.bootstraps_iff {peerIDs : List String} (h : s.Snapshot id peerIDs) :
    bootstrapIfNeeded id peerIDs = .bootstrapCluster id [id] ↔ peerIDs = [id] := by
  unfold bootstrapIfNeeded
  split_ifs with hlength
  · refine iff_of_true rfl ?_
    have hone : peerIDs.length = 1 := Nat.le_antisymm hlength (List.length_pos_of_mem h.self_mem)
    obtain ⟨b, rfl⟩ := List.length_eq_one_iff.mp hone
    rw [List.mem_singleton.mp h.self_mem]
  · refine iff_of_false (fun h => by cases h) ?_
    rintro rfl
    exact hlength (Nat.le_refl 1)

end Launch

/-- The replica bootstraps, or is about to. -/
def Progress.Lone (id : String) (v : Progress) : Prop :=
  v = .found [id] ∨ v = .started (.bootstrapCluster id [id])

namespace Launch

variable {ids : List String} {s : Launch}

def Lone (id : String) (s : Launch) : Prop := (s.progress id).Lone id

theorem LooksAlone.registered_eq {id : String} {a : LaunchAction} (h : LooksAlone id s a) :
    s.progress id = .registered ∧ s.registered = [id] ∧ a = .findServicePeers id [id] := by
  cases a with
  | findServicePeers id' peerIDs =>
    obtain ⟨rfl, hprogress, hregistered, rfl⟩ := h
    exact ⟨hprogress, hregistered, rfl⟩
  | _ => exact h.elim

/-- A replica comes to bootstrap by looking alone. -/
theorem lone_launchStep (hs : s.Consistent ids) (id : String) (a : LaunchAction) :
    Lone id (launchStep ids s a) ↔ Lone id s ∨ LooksAlone id s a := by
  unfold Lone
  cases a with
  | registerService id' =>
    rw [or_iff_left fun h => by cases h.registered_eq.2.2]
    simp only [launchStep]
    split_ifs with h
    · simp only [Function.update_apply]
      split_ifs with heq
      · -- It has only registered, and before that nothing.
        rw [heq, h.2]
        exact iff_of_false (fun h => by simp [Progress.Lone] at h)
          fun h => by simp [Progress.Lone] at h
      · exact Iff.rfl
    · exact Iff.rfl
  | findServicePeers id' peerIDs =>
    simp only [launchStep]
    split_ifs with h
    · simp only [Function.update_apply]
      split_ifs with heq
      · -- The DHT answers with the replica alone if it is registered alone.
        obtain rfl := heq
        rw [h.1, Progress.Lone, Progress.Lone, LooksAlone, and_iff_right rfl, and_iff_right h.1]
        constructor
        · intro hlone
          have hpeers : peerIDs = [id] := by simpa using hlone
          exact .inr ⟨List.perm_singleton.mp (hpeers ▸ h.2).symm, hpeers⟩
        · intro hlone
          have hpeers : s.registered = [id] ∧ peerIDs = [id] := by simpa using hlone
          exact .inl (congrArg Progress.found hpeers.2)
      · exact (or_iff_left fun halone => heq halone.1.symm).symm
    · refine (or_iff_left fun halone => h ?_).symm
      obtain ⟨rfl, hprogress, hregistered, rfl⟩ := halone
      exact ⟨hprogress, hregistered ▸ List.Perm.refl _⟩
  | bootstrapIfNeeded id' =>
    rw [or_iff_left fun h => by cases h.registered_eq.2.2]
    simp only [launchStep]
    split
    · next peerIDs h =>
      simp only [Function.update_apply]
      split_ifs with heq
      · -- It bootstraps now if it was about to.
        obtain rfl := heq
        have hiff := (hs.found id peerIDs h).bootstraps_iff
        rw [h, Progress.Lone, Progress.Lone]
        simpa using hiff
      · exact Iff.rfl
    · exact Iff.rfl

/-- A replica bootstraps in the end exactly if it looked alone. -/
theorem lone_run (ids : List String) (id : String) (acts : List LaunchAction) :
    Lone id (run (launchStep ids) start acts) ↔
      Occurs (launchStep ids) (LooksAlone id) start acts := by
  have hinv (s : Launch) (a : LaunchAction) (hs : s.Consistent ids) :
      (launchStep ids s a).Consistent ids := hs.step a
  have hq (s : Launch) (a : LaunchAction) (hs : s.Consistent ids) :
      Lone id (launchStep ids s a) ↔ Lone id s ∨ LooksAlone id s a := lone_launchStep hs id a
  have h := run_iff_occurs hinv hq acts (consistent_start ids)
  rwa [or_iff_right (by simp [Lone, start, Progress.Lone])] at h

/-- With a replica that bootstraps, all others join it. -/
theorem Consistent.joins (hs : s.Consistent ids) (hcomplete : s.Complete ids) {b : String}
    (hb : s.progress b = .started (.bootstrapCluster b [b])) {id : String} (hid : id ∈ ids)
    (hne : id ≠ b) :
    ∃ cluster, s.progress id = .started (.joinCluster id cluster) ∧ b ∈ cluster := by
  obtain ⟨peerIDs, hstart, hsnapshot⟩ := hs.started b _ hb
  have hpeers := hsnapshot.bootstraps_iff.mp hstart.symm
  obtain ⟨start, hid⟩ := hcomplete id hid
  obtain ⟨peerIDs', rfl, hsnapshot'⟩ := hs.started id start hid
  -- The replica that bootstraps has found the first one, so that it is the first one.
  have hne' : s.registered ≠ [] :=
    List.ne_nil_of_mem ((hs.mem_registered b).mpr (hb ▸ Progress.noConfusion))
  have hhead := List.head?_eq_some_head hne'
  have hfirst : s.registered.head hne' = b := by
    have hmem := hsnapshot.head_mem _ hhead
    rw [hpeers] at hmem
    exact List.mem_singleton.mp hmem
  have hbmem : b ∈ peerIDs' := hsnapshot'.head_mem b (hfirst ▸ hhead)
  -- With two in the list it does not bootstrap.
  have hlength : ¬ peerIDs'.length ≤ 1 := by
    intro hle
    obtain rfl := hsnapshot'.bootstraps_iff.mp (if_pos hle)
    exact hne (List.mem_singleton.mp hbmem).symm
  refine ⟨_, hid.trans (congrArg Progress.started (if_neg hlength)), ?_⟩
  exact List.mem_filter.mpr ⟨hbmem, decide_eq_true hne.symm⟩

end Launch

/-- **One cluster**: when all replicas have started, they form one cluster exactly if some replica
looked for its peers while nobody else was registered. Only the first to register can. -/
theorem oneCluster_iff (ids : List String) (acts : List LaunchAction)
    (hcomplete : (run (launchStep ids) .start acts).Complete ids) :
    (run (launchStep ids) .start acts).OneCluster ids ↔
      ∃ id, Occurs (launchStep ids) (Launch.LooksAlone id) .start acts := by
  have hinv (s : Launch) (a : LaunchAction) (hs : s.Consistent ids) :
      (launchStep ids s a).Consistent ids := hs.step a
  have hs := run_invariant hinv acts (Launch.consistent_start ids)
  constructor
  · rintro ⟨b, -, hb, -⟩
    exact ⟨b, (Launch.lone_run ids b acts).mp (.inr hb)⟩
  · rintro ⟨b, halone⟩
    have hlone := (Launch.lone_run ids b acts).mpr halone
    have hmem : b ∈ ids := by
      refine hs.mem_ids b ?_
      rcases hlone with h | h <;> exact h ▸ Progress.noConfusion
    obtain ⟨start, hstart⟩ := hcomplete b hmem
    have hb : (run (launchStep ids) .start acts).progress b =
        .started (.bootstrapCluster b [b]) :=
      hlone.resolve_left fun h => by cases hstart.symm.trans h
    exact ⟨b, hmem, hb, fun id hid hne => hs.joins hcomplete hb hid hne⟩

/-- One replica is up before the other comes. -/
def inTurn : List LaunchAction :=
  [.registerService "a", .findServicePeers "a" ["a"], .bootstrapIfNeeded "a",
    .registerService "b", .findServicePeers "b" ["b", "a"], .bootstrapIfNeeded "b"]

theorem oneCluster_inTurn : (run (launchStep ["a", "b"]) .start inTurn).OneCluster ["a", "b"] := by
  have hcomplete : (run (launchStep ["a", "b"]) .start inTurn).Complete ["a", "b"] := by
    intro id hid
    rcases List.mem_pair.mp hid with rfl | rfl
    · exact ⟨_, rfl⟩
    · exact ⟨_, rfl⟩
  have halone : Occurs (launchStep ["a", "b"]) (Launch.LooksAlone "a") .start inTurn :=
    .inr (.inl ⟨rfl, rfl, rfl, rfl⟩)
  exact (oneCluster_iff ["a", "b"] inTurn hcomplete).mpr ⟨"a", halone⟩

/-- Both replicas register before either of them looks. -/
def together : List LaunchAction :=
  [.registerService "a", .registerService "b", .findServicePeers "a" ["a", "b"],
    .findServicePeers "b" ["a", "b"], .bootstrapIfNeeded "a", .bootstrapIfNeeded "b"]

/-- Replicas that come together join each other, and nobody bootstraps. -/
theorem nobody_bootstraps :
    let s := run (launchStep ["a", "b"]) .start together
    s.progress "a" = .started (.joinCluster "a" ["b"]) ∧
      s.progress "b" = .started (.joinCluster "b" ["a"]) ∧ ¬ s.OneCluster ["a", "b"] := by
  intro s
  have ha : s.progress "a" = .started (.joinCluster "a" ["b"]) := by decide
  have hb : s.progress "b" = .started (.joinCluster "b" ["a"]) := by decide
  refine ⟨ha, hb, ?_⟩
  rintro ⟨b, hmem, hstarted, -⟩
  rcases List.mem_pair.mp hmem with rfl | rfl
  · cases ha.symm.trans hstarted
  · cases hb.symm.trans hstarted

end Beemesh.Workplane
