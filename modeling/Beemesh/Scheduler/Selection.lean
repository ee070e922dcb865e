import Beemesh.Lib.Rotation
import Beemesh.Scheduler.Plan

/-!
# What a plan selects

Every strategy picks as many of the available candidates as are asked for, none of them twice. The
random strategy draws a bounded number of times: it fails where its draws do not reach so many
candidates, which no other strategy does.

## Main definitions

* `SchedulerConfig.actualRequiredCount`: how many candidates are asked for
* `Picks`: so many of the available candidates, none twice
* `SchedulingPlan.Valid`: what a plan promises
* `drawnPlaces`: the places that the draws from a seed reach

## Main results

* `length_randomLoop`: how many candidates the loop of the random strategy reaches
* `scheduleWorkload_valid`: plans are valid
* `scheduleWorkload_fails_iff`: when scheduling fails only where it must
-/

namespace Beemesh

variable {L : Type} {candidates : List (NodeCandidate L)}

/-! ## Available candidates -/

/-- The candidate at an index is available. -/
def IsAvailable (candidates : List (NodeCandidate L)) (i : ℕ) : Prop :=
  ∃ c, candidates[i]? = some c ∧ c.available = true

theorem mem_availableCandidates {c : NodeCandidate L} {i : ℕ} :
    (c, i) ∈ availableCandidates candidates ↔ candidates[i]? = some c ∧ c.available = true := by
  rw [availableCandidates, List.mem_filter, List.mem_zipIdx_iff_getElem?]

/-- The indices of the available candidates. -/
def availableIndices (candidates : List (NodeCandidate L)) : List ℕ :=
  (availableCandidates candidates).map Prod.snd

@[simp] theorem length_availableIndices :
    (availableIndices candidates).length = (availableCandidates candidates).length :=
  List.length_map _

theorem mem_availableIndices {i : ℕ} :
    i ∈ availableIndices candidates ↔ IsAvailable candidates i := by
  rw [availableIndices, List.mem_map]
  constructor
  · rintro ⟨⟨c, _⟩, hc, rfl⟩
    exact ⟨c, mem_availableCandidates.mp hc⟩
  · rintro ⟨c, hc⟩
    exact ⟨(c, i), mem_availableCandidates.mpr hc, rfl⟩

/-- They are in order. -/
theorem pairwise_availableCandidates :
    (availableCandidates candidates).Pairwise fun a b => a.2 < b.2 := by
  refine List.Pairwise.filter _ ?_
  rw [← List.pairwise_map (R := (· < ·)) (f := Prod.snd), List.zipIdx_map_snd]
  exact List.pairwise_lt_range'

theorem nodup_availableIndices : (availableIndices candidates).Nodup := by
  refine List.pairwise_map.mpr (pairwise_availableCandidates.imp ?_)
  intro a b hab heq
  exact absurd hab (heq ▸ Nat.lt_irrefl _)

/-- So many of the available candidates, none of them twice. -/
structure Picks (candidates : List (NodeCandidate L)) (count : ℕ) (selected : List ℕ) : Prop where
  length : selected.length = count
  nodup : selected.Nodup
  available : ∀ i ∈ selected, IsAvailable candidates i

theorem Picks.of_perm {count : ℕ} {selected selected' : List ℕ}
    (h : Picks candidates count selected) (hperm : selected'.Perm selected) :
    Picks candidates count selected' where
  length := hperm.length_eq.trans h.length
  nodup := hperm.nodup_iff.mpr h.nodup
  available i hi := h.available i (hperm.mem_iff.mp hi)

/-- The front of the available candidates, in some order. -/
theorem Picks.of_take {available : List (NodeCandidate L × ℕ)} {count : ℕ}
    (hperm : available.Perm (availableCandidates candidates)) (hcount : count ≤ available.length) :
    Picks candidates count ((available.take count).map Prod.snd) where
  length := by rw [List.length_map, List.length_take, min_eq_left hcount]
  nodup := by
    have hnodup : (available.map Prod.snd).Nodup :=
      (hperm.map Prod.snd).nodup_iff.mpr nodup_availableIndices
    rw [List.map_take]
    exact hnodup.sublist (List.take_sublist _ _)
  available := by
    intro i hi
    obtain ⟨c, hc, rfl⟩ := List.mem_map.mp hi
    have hmem := hperm.mem_iff.mp (List.mem_of_mem_take hc)
    exact mem_availableIndices.mp (List.mem_map_of_mem hmem)

/-! ## The strategies -/

/-- The place that a number wraps to has an available candidate. -/
theorem wrapIndex_eq (n : ℕ) : wrapIndex (availableCandidates candidates) n =
    (availableIndices candidates)[n % 2 ^ 64 % (availableCandidates candidates).length]? := by
  rw [wrapIndex, availableIndices, List.getElem?_map]

/-- Without overflow, the round-robin strategy takes a window of the places. -/
theorem selectRoundRobin_eq {start : U64} {count : ℕ} (hstart : start.toNat + count ≤ 2 ^ 64) :
    selectRoundRobin (availableCandidates candidates) start count =
      (Rotation.window (availableCandidates candidates).length start.toNat count).filterMap
        fun place => (availableIndices candidates)[place]? := by
  rw [selectRoundRobin, Rotation.window, List.filterMap_map]
  refine List.filterMap_congr fun i hi => ?_
  have hi := List.mem_range.mp hi
  have hword : (start.toNat + i) % 2 ^ 64 = start.toNat + i := Nat.mod_eq_of_lt (by omega)
  rw [wrapIndex_eq, hword]
  rfl

/-- Different places have different candidates. -/
theorem availableIndices_inj {place place' i : ℕ}
    (h : i ∈ (availableIndices candidates)[place]?)
    (h' : i ∈ (availableIndices candidates)[place']?) : place = place' := by
  rw [Option.mem_def] at h h'
  have hlt := (List.getElem?_eq_some_iff.mp h).1
  exact (List.getElem?_inj hlt nodup_availableIndices).mp (h.trans h'.symm)

theorem selectRoundRobin_picks {start : U64} {count : ℕ} (hstart : start.toNat + count ≤ 2 ^ 64)
    (hne : availableCandidates candidates ≠ [])
    (hcount : count ≤ (availableCandidates candidates).length) :
    Picks candidates count (selectRoundRobin (availableCandidates candidates) start count) := by
  have hpos := List.length_pos_iff.mpr hne
  rw [selectRoundRobin_eq hstart]
  refine ⟨?_, ?_, ?_⟩
  · -- Every place has a candidate.
    rw [List.length_filterMap_eq_countP, List.countP_eq_length.mpr, Rotation.length_window]
    intro place hplace
    have hlt := Rotation.lt_of_mem_window hpos hplace
    rw [List.getElem?_eq_getElem (by rwa [length_availableIndices])]
    rfl
  · -- A window that is not longer than all places has none of them twice.
    refine (Rotation.nodup_window hcount).filterMap ?_
    intro place place' i
    exact availableIndices_inj
  · intro i hi
    obtain ⟨place, -, hplace⟩ := List.mem_filterMap.mp hi
    exact mem_availableIndices.mp (List.mem_of_getElem? hplace)

theorem selectLoadBased_picks (partialCmp : L → L → Option Ordering) {count : ℕ}
    (hcount : count ≤ (availableCandidates candidates).length) :
    Picks candidates count
      (selectLoadBased partialCmp (availableCandidates candidates) count) := by
  refine Picks.of_take (List.mergeSort_perm _ _) ?_
  rwa [List.length_mergeSort]

/-! ## Random draws -/

section Draws

variable {available : List (NodeCandidate L × ℕ)} {seed : U64} {count : ℕ} {drawn : ℕ → ℕ}

/-- The loop of the random strategy collects what it draws, until it has enough. -/
theorem randomLoop_invariant (hdrawn : ∀ a, wrapIndex available (seed.toNat + a) = some (drawn a))
    (left attempts : ℕ) (selected : List ℕ) (hnodup : selected.Nodup)
    (hlength : selected.length ≤ count) :
    (randomLoop available seed count left attempts selected).Nodup ∧
      (∀ i ∈ randomLoop available seed count left attempts selected,
        i ∈ selected ∨ ∃ a, drawn a = i) ∧
      (randomLoop available seed count left attempts selected).length =
        min count (selected.toFinset ∪
          ((List.range' attempts left).map drawn).toFinset).card := by
  -- On the attempts that are left; the next one draws, and the rest go on from what it leaves.
  induction left generalizing attempts selected with
  | zero =>
    refine ⟨hnodup, fun i hi => .inl hi, ?_⟩
    simp only [randomLoop, List.range'_zero, List.map_nil, List.toFinset_nil, Finset.union_empty]
    rw [List.toFinset_card_of_nodup hnodup, min_eq_right hlength]
  | succ left ih =>
    by_cases hless : selected.length < count
    · have hloop : randomLoop available seed count (left + 1) attempts selected =
          randomLoop available seed count left (attempts + 1)
            (selected.insert (drawn attempts)) := by
        rw [randomLoop, if_pos hless, hdrawn]
        rfl
      have hinsert : (selected.insert (drawn attempts)).length ≤ count := by
        rw [List.length_insert]
        split_ifs <;> omega
      have hfinset : (selected.insert (drawn attempts)).toFinset =
          insert (drawn attempts) selected.toFinset := by
        ext i
        simp
      obtain ⟨ihnodup, ihmem, ihlength⟩ :=
        ih (attempts + 1) (selected.insert (drawn attempts)) hnodup.insert hinsert
      rw [hloop]
      refine ⟨ihnodup, ?_, ?_⟩
      · intro i hi
        rcases ihmem i hi with hi | hi
        · rcases List.mem_insert_iff.mp hi with rfl | hi
          · exact .inr ⟨attempts, rfl⟩
          · exact .inl hi
        · exact .inr hi
      · rw [ihlength, List.range'_succ, List.map_cons, List.toFinset_cons, hfinset,
          Finset.insert_union, Finset.union_insert]
    · -- It has enough, and stops.
      have hcount : selected.length = count := by omega
      rw [randomLoop, if_neg hless]
      refine ⟨hnodup, fun i hi => .inl hi, ?_⟩
      have hsub : selected.toFinset.card ≤ (selected.toFinset ∪
          ((List.range' attempts (left + 1)).map drawn).toFinset).card :=
        Finset.card_le_card Finset.subset_union_left
      rw [List.toFinset_card_of_nodup hnodup] at hsub
      omega

end Draws

/-- The places that the draws from a seed reach, of `n`. -/
def drawnPlaces (seed : U64) (n : ℕ) : Finset ℕ :=
  ((List.range maxAttempts).map fun attempts => (seed.toNat + attempts) % 2 ^ 64 % n).toFinset

/-- The candidate that an attempt draws. -/
def drawnIndex (candidates : List (NodeCandidate L)) (seed : U64) (attempts : ℕ) : ℕ :=
  (availableIndices candidates).getD
    ((seed.toNat + attempts) % 2 ^ 64 % (availableCandidates candidates).length) 0

theorem wrapIndex_draw (hne : availableCandidates candidates ≠ []) (seed : U64) (attempts : ℕ) :
    wrapIndex (availableCandidates candidates) (seed.toNat + attempts) =
      some (drawnIndex candidates seed attempts) := by
  have hlt : (seed.toNat + attempts) % 2 ^ 64 % (availableCandidates candidates).length <
      (availableIndices candidates).length := by
    rw [length_availableIndices]
    exact Nat.mod_lt _ (List.length_pos_iff.mpr hne)
  rw [wrapIndex_eq, drawnIndex, List.getD_eq_getElem?_getD, List.getElem?_eq_getElem hlt,
    Option.getD_some]

/-- Different places are different candidates. -/
theorem card_drawnIndex (hne : availableCandidates candidates ≠ []) (seed : U64) :
    ((List.range' 0 maxAttempts).map (drawnIndex candidates seed)).toFinset.card =
      (drawnPlaces seed (availableCandidates candidates).length).card := by
  have himage : ((List.range' 0 maxAttempts).map (drawnIndex candidates seed)).toFinset =
      (drawnPlaces seed (availableCandidates candidates).length).image
        fun place => (availableIndices candidates).getD place 0 := by
    ext i
    simp only [drawnPlaces, List.mem_toFinset, Finset.mem_image, List.mem_map,
      List.range_eq_range', exists_exists_and_eq_and]
    rfl
  rw [himage]
  refine Finset.card_image_of_injOn ?_
  have hlt (place : ℕ) (h : place ∈ drawnPlaces seed (availableCandidates candidates).length) :
      place < (availableIndices candidates).length := by
    obtain ⟨attempts, -, rfl⟩ := List.mem_map.mp (List.mem_toFinset.mp h)
    rw [length_availableIndices]
    exact Nat.mod_lt _ (List.length_pos_iff.mpr hne)
  intro place hplace place' hplace' h
  have hplace := hlt place hplace
  have hplace' := hlt place' hplace'
  simp only [List.getD_eq_getElem?_getD, List.getElem?_eq_getElem hplace,
    List.getElem?_eq_getElem hplace', Option.getD_some] at h
  exact (nodup_availableIndices.getElem_inj_iff).mp h

/-- **How many candidates the loop reaches**: as many as are asked for, if its draws reach so many
places. -/
theorem length_randomLoop (hne : availableCandidates candidates ≠ []) (seed : U64) (count : ℕ) :
    (randomLoop (availableCandidates candidates) seed count maxAttempts 0 []).length =
      min count (drawnPlaces seed (availableCandidates candidates).length).card := by
  have hloop := (randomLoop_invariant (wrapIndex_draw hne seed) maxAttempts 0 []
    List.nodup_nil (Nat.zero_le count)).2.2
  rw [hloop, List.toFinset_nil, Finset.empty_union, card_drawnIndex hne]

theorem selectRandom_error_iff (hne : availableCandidates candidates ≠ []) {seed : U64}
    {drain : List ℕ → List ℕ} {count : ℕ} :
    (∃ e, selectRandom (availableCandidates candidates) seed drain count = .error e) ↔
      (drawnPlaces seed (availableCandidates candidates).length).card < count := by
  simp only [selectRandom, length_randomLoop hne, min_lt_iff, lt_self_iff_false, false_or]
  split_ifs with h <;> simp [h]

theorem selectRandom_picks (hne : availableCandidates candidates ≠ []) {seed : U64}
    {drain : List ℕ → List ℕ} (hdrain : ∀ selected, (drain selected).Perm selected) {count : ℕ}
    {selected : List ℕ}
    (h : selectRandom (availableCandidates candidates) seed drain count = .ok selected) :
    Picks candidates count selected := by
  obtain ⟨hnodup, hmem, -⟩ := randomLoop_invariant (wrapIndex_draw hne seed)
    maxAttempts 0 [] List.nodup_nil (Nat.zero_le count)
  have hlength := length_randomLoop hne seed count
  simp only [selectRandom] at h
  split_ifs at h with hless
  obtain rfl := Except.ok.inj h
  refine Picks.of_perm ⟨by omega, hnodup, ?_⟩ (hdrain _)
  intro i hi
  rcases hmem i hi with hi | ⟨attempts, rfl⟩
  · exact nomatch hi
  · have hdraw := wrapIndex_draw hne seed attempts
    rw [wrapIndex_eq] at hdraw
    exact mem_availableIndices.mp (List.mem_of_getElem? hdraw)

/-! ## Plans -/

/-- `actual_required_count`: the configuration may bound what a call asks for. -/
def SchedulerConfig.actualRequiredCount (config : SchedulerConfig) (requiredCount : ℕ) : ℕ :=
  match config.maxCandidates with
  | some max => min requiredCount max
  | none => requiredCount

theorem SchedulerConfig.actualRequiredCount_le (config : SchedulerConfig) (requiredCount : ℕ) :
    config.actualRequiredCount requiredCount ≤ requiredCount := by
  unfold actualRequiredCount
  split
  · exact min_le_left _ _
  · exact le_rfl

/-- There are candidates to select so many of. -/
def Selectable (candidates : List (NodeCandidate L)) (count : ℕ) : Prop :=
  availableCandidates candidates ≠ [] ∧ count ≤ (availableCandidates candidates).length

variable {s : Scheduler} {env : SelectionEnv L} {requiredCount : ℕ}

variable (env) in
/-- Without enough available candidates a call fails, and leaves the counter as it is. -/
theorem scheduleWorkload_of_not
    (h : ¬ Selectable candidates (s.config.actualRequiredCount requiredCount)) :
    ∃ e, s.scheduleWorkload env candidates requiredCount = (.error e, s) := by
  rw [Scheduler.scheduleWorkload]
  split_ifs with hnil
  · exact ⟨_, rfl⟩
  · dsimp only
    split_ifs with hnone hless
    · exact ⟨_, rfl⟩
    · exact ⟨_, rfl⟩
    · exact absurd ⟨hnone, Nat.le_of_not_lt hless⟩ h

/-- With enough of them the strategy selects. -/
theorem scheduleWorkload_of
    (h : Selectable candidates (s.config.actualRequiredCount requiredCount)) :
    s.scheduleWorkload env candidates requiredCount =
      ((s.selectCandidates env (availableCandidates candidates)
          (s.config.actualRequiredCount requiredCount)).1.map
        fun indices => ⟨indices, candidates.length, s.config.strategy⟩,
      (s.selectCandidates env (availableCandidates candidates)
        (s.config.actualRequiredCount requiredCount)).2) := by
  have hnil : candidates ≠ [] := by
    rintro rfl
    exact h.1 rfl
  rw [Scheduler.scheduleWorkload, if_neg hnil]
  dsimp only
  rw [if_neg h.1]
  exact if_neg (Nat.not_lt.mpr h.2)

/-- A plan is what the strategy selects, of enough available candidates. -/
theorem scheduleWorkload_eq_ok_iff {plan : SchedulingPlan} :
    (s.scheduleWorkload env candidates requiredCount).1 = .ok plan ↔
      Selectable candidates (s.config.actualRequiredCount requiredCount) ∧
        ∃ indices, (s.selectCandidates env (availableCandidates candidates)
          (s.config.actualRequiredCount requiredCount)).1 = .ok indices ∧
          plan = ⟨indices, candidates.length, s.config.strategy⟩ := by
  by_cases h : Selectable candidates (s.config.actualRequiredCount requiredCount)
  · rw [scheduleWorkload_of h, and_iff_right h]
    cases (s.selectCandidates env (availableCandidates candidates)
      (s.config.actualRequiredCount requiredCount)).1 with
    | error e => simp [Except.map]
    | ok indices => simp [Except.map, eq_comm]
  · obtain ⟨e, he⟩ := scheduleWorkload_of_not env h
    rw [he]
    exact iff_of_false nofun fun hplan => h hplan.1

/-- What a plan promises: so many available candidates, none of them twice, of a list as long as it
says. -/
structure SchedulingPlan.Valid (candidates : List (NodeCandidate L)) (count : ℕ)
    (plan : SchedulingPlan) : Prop where
  picks : Picks candidates count plan.selectedCandidates
  total : plan.totalCandidates = candidates.length

/-- Every strategy picks. -/
theorem selectCandidates_picks (hdrain : ∀ selected, (env.drain selected).Perm selected)
    {count : ℕ} (hcounter : s.roundRobinCounter.toNat + count ≤ 2 ^ 64)
    (h : Selectable candidates count) {indices : List ℕ}
    (hok : (s.selectCandidates env (availableCandidates candidates) count).1 = .ok indices) :
    Picks candidates count indices := by
  rw [Scheduler.selectCandidates] at hok
  cases hstrategy : s.config.strategy with
  | firstAvailable =>
    simp only [hstrategy] at hok
    obtain rfl := Except.ok.inj hok
    exact Picks.of_take (List.Perm.refl _) h.2
  | roundRobin =>
    simp only [hstrategy] at hok
    obtain rfl := Except.ok.inj hok
    exact selectRoundRobin_picks hcounter h.1 h.2
  | random =>
    simp only [hstrategy] at hok
    exact selectRandom_picks h.1 hdrain hok
  | loadBased =>
    simp only [hstrategy] at hok
    obtain rfl := Except.ok.inj hok
    exact selectLoadBased_picks env.partialCmp h.2

/-- **Plans are valid**, with every strategy. -/
theorem scheduleWorkload_valid {plan : SchedulingPlan}
    (hdrain : ∀ selected, (env.drain selected).Perm selected)
    (hcounter : s.roundRobinCounter.toNat + requiredCount < 2 ^ 64)
    (h : (s.scheduleWorkload env candidates requiredCount).1 = .ok plan) :
    plan.Valid candidates (s.config.actualRequiredCount requiredCount) := by
  obtain ⟨hselectable, indices, hok, rfl⟩ := scheduleWorkload_eq_ok_iff.mp h
  have hle := s.config.actualRequiredCount_le requiredCount
  have hcount : s.roundRobinCounter.toNat + s.config.actualRequiredCount requiredCount ≤ 2 ^ 64 :=
    (Nat.add_le_add_left hle _).trans hcounter.le
  exact ⟨selectCandidates_picks hdrain hcount hselectable hok, rfl⟩

/-- Two of three candidates are available, and both of them are selected. -/
theorem scheduleWorkload_valid_pair :
    ∃ plan, ((Scheduler.new ⟨some 2, .random⟩).scheduleWorkload ⟨5, id, fun _ _ => none⟩
        [⟨"a", (), true⟩, ⟨"b", (), false⟩, ⟨"c", (), true⟩] 3).1 = .ok plan ∧
      plan.Valid [⟨"a", (), true⟩, ⟨"b", (), false⟩, ⟨"c", (), true⟩] 2 := by
  have hplan : ((Scheduler.new ⟨some 2, .random⟩).scheduleWorkload ⟨5, id, fun _ _ => none⟩
      [⟨"a", (), true⟩, ⟨"b", (), false⟩, ⟨"c", (), true⟩] 3).1 = .ok ⟨[0, 2], 3, .random⟩ := rfl
  refine ⟨_, hplan, scheduleWorkload_valid ?_ ?_ hplan⟩
  · exact List.Perm.refl
  · decide

/-! ## Failures -/

/-- The draws of the random strategy reach as many places as are asked for, of those there are. -/
def EnoughDraws (s : Scheduler) (env : SelectionEnv L) (candidates : List (NodeCandidate L))
    (requiredCount : ℕ) : Prop :=
  s.config.strategy = .random →
    Selectable candidates (s.config.actualRequiredCount requiredCount) →
      s.config.actualRequiredCount requiredCount ≤
        (drawnPlaces env.seed (availableCandidates candidates).length).card

/-- With enough candidates, a call fails where the draws are not enough. -/
theorem scheduleWorkload_error_iff
    (h : Selectable candidates (s.config.actualRequiredCount requiredCount)) :
    (∃ e, (s.scheduleWorkload env candidates requiredCount).1 = .error e) ↔
      ¬ EnoughDraws s env candidates requiredCount := by
  have hmap (r : Except SchedulingError (List ℕ)) (f : List ℕ → SchedulingPlan) :
      (∃ e, r.map f = .error e) ↔ ∃ e, r = .error e := by
    cases r <;> simp [Except.map]
  rw [scheduleWorkload_of h, hmap, Scheduler.selectCandidates, EnoughDraws]
  cases s.config.strategy with
  | random => simp [selectRandom_error_iff h.1, h]
  | firstAvailable => simp
  | roundRobin => simp
  | loadBased => simp

/-- While the clock is so many attempts from its end, the draws reach as many places as there are
attempts. -/
theorem card_drawnPlaces {seed : U64} (hseed : seed.toNat + maxAttempts ≤ 2 ^ 64) {n : ℕ}
    (hn : 0 < n) : (drawnPlaces seed n).card = min maxAttempts n := by
  have hwindow : drawnPlaces seed n = (Rotation.window n seed.toNat maxAttempts).toFinset := by
    rw [drawnPlaces, Rotation.window]
    refine congrArg List.toFinset (List.map_congr_left fun attempts hattempts => ?_)
    have hattempts := List.mem_range.mp hattempts
    have hword : (seed.toNat + attempts) % 2 ^ 64 = seed.toNat + attempts :=
      Nat.mod_eq_of_lt (by omega)
    rw [hword]
  rw [hwindow, Rotation.card_window hn]

/-- **Scheduling fails only when it must** exactly where the draws of the random strategy are
enough. A clock that is not about to wrap gives enough draws for as many candidates as there are
attempts, and for no more. -/
theorem scheduleWorkload_fails_iff (s : Scheduler) (env : SelectionEnv L)
    (candidates : List (NodeCandidate L)) (requiredCount : ℕ) :
    (((∃ e, (s.scheduleWorkload env candidates requiredCount).1 = .error e) ↔
        availableCandidates candidates = [] ∨ (availableCandidates candidates).length <
          s.config.actualRequiredCount requiredCount) ↔
      EnoughDraws s env candidates requiredCount) ∧
    (env.seed.toNat + maxAttempts ≤ 2 ^ 64 →
      (EnoughDraws s env candidates requiredCount ↔
        (s.config.strategy = .random →
          Selectable candidates (s.config.actualRequiredCount requiredCount) →
          s.config.actualRequiredCount requiredCount ≤ maxAttempts))) := by
  have hmust : availableCandidates candidates = [] ∨ (availableCandidates candidates).length <
      s.config.actualRequiredCount requiredCount ↔
        ¬ Selectable candidates (s.config.actualRequiredCount requiredCount) := by
    rw [Selectable, not_and_or, not_not, Nat.not_le]
  rw [hmust]
  constructor
  · by_cases h : Selectable candidates (s.config.actualRequiredCount requiredCount)
    · rw [scheduleWorkload_error_iff h]
      constructor
      · intro hfails
        by_contra hdraws
        exact hfails.mp hdraws h
      · intro hdraws
        exact iff_of_false (not_not.mpr hdraws) (not_not.mpr h)
    · -- There is nothing to draw.
      obtain ⟨e, he⟩ := scheduleWorkload_of_not env h
      rw [he]
      exact iff_of_true (iff_of_true ⟨e, rfl⟩ h) fun _ hselectable => absurd hselectable h
  · intro hseed
    refine forall_congr' fun _ => forall_congr' fun h => ?_
    rw [card_drawnPlaces hseed (List.length_pos_iff.mpr h.1), le_min_iff, and_iff_left h.2]

/-- A thousand and one available candidates. -/
def manyCandidates : List (NodeCandidate Unit) := List.replicate 1001 ⟨"node", (), true⟩

theorem length_availableCandidates_many : (availableCandidates manyCandidates).length = 1001 := by
  have hall : ∀ c ∈ manyCandidates, c.available = true := by
    intro c hc
    rw [List.eq_of_mem_replicate hc]
  rw [availableCandidates_of_all hall, List.length_zipIdx, manyCandidates, List.length_replicate]

/-- All of them are available, but the random strategy does not select all of them. -/
theorem scheduleWorkload_many_fails :
    (∃ e, ((Scheduler.new ⟨none, .random⟩).scheduleWorkload ⟨0, id, fun _ _ => none⟩
      manyCandidates 1001).1 = .error e) ∧
    ¬ (availableCandidates manyCandidates = [] ∨
      (availableCandidates manyCandidates).length < 1001) := by
  have hlength := length_availableCandidates_many
  have hne : availableCandidates manyCandidates ≠ [] := by
    rw [← List.length_pos_iff, hlength]
    decide
  refine ⟨?_, ?_⟩
  · have hselectable : Selectable manyCandidates
        ((Scheduler.new ⟨none, .random⟩).config.actualRequiredCount 1001) := ⟨hne, hlength.ge⟩
    rw [scheduleWorkload_error_iff hselectable]
    intro hdraws
    have henough := hdraws rfl hselectable
    rw [card_drawnPlaces (by decide) (List.length_pos_iff.mpr hne), hlength] at henough
    exact absurd henough (by decide)
  · rw [not_or, hlength]
    exact ⟨hne, lt_irrefl _⟩

end Beemesh
