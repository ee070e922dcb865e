import Beemesh.Lib.Table
import Beemesh.Workplane.Task
import Mathlib.Algebra.Order.Ring.Rat
import Mathlib.Data.List.Sort
import Mathlib.Data.String.Basic

/-!
# Distributed scheduling rounds

Every machine that gets a task for the scheduler runs a round: it publishes a score, collects the
scores of the others, computes from all of them how many replicas each machine gets, deploys its
own and delegates the rest. The assignment is of the whole task, and every machine carries out the
whole assignment.

Scores are `float64`. Of their arithmetic no more is used than that sums of positive scores are
positive, and of the sorting no more than that it reorders: with scores that are no number, the
order of a sorted list depends on where it started.

## Main definitions

* `assignReplicas`: the assignment of one round
* `distributedSchedule`: a round
* `clusterDeployments`: the deployments that the rounds of all machines cause
* `SpreadsOnce`: where these are as many as the task asks for

## Main results

* `exists_assignReplicas`: how many replicas one assignment hands out
* `clusterDeployments_iff`: when the rounds of all machines deploy as many as were asked for
-/

namespace Beemesh.Workplane

/-! ## Scores -/

/-- `float64`, as far as scores need it. -/
structure ScoreArithmetic (F : Type) where
  zero : F
  add : F → F → F
  sub : F → F → F
  mul : F → F → F
  div : F → F → F
  /-- `float64(n)`. -/
  ofInt : ℤ → F
  /-- `int(x)`. -/
  toInt : F → ℤ
  lt : F → F → Bool
  le : F → F → Bool
  eq : F → F → Bool
  zero_le : le zero zero = true
  not_le_zero : ∀ x, lt zero x = true → le x zero = false
  add_pos : ∀ s x, s = zero ∨ lt zero s = true → lt zero x = true → lt zero (add s x) = true

/-- `sort.Slice` or `sort.SliceStable`. -/
structure SliceSort where
  slice : ∀ {α : Type}, (α → α → Bool) → List α → List α
  perm : ∀ {α : Type} (less : α → α → Bool) (l : List α), (slice less l).Perm l

/-- `Proposal`. -/
structure Proposal (F : Type) where
  taskID : String
  nodeID : String
  score : F
  timestamp : ℤ

variable {F M : Type} (A : ScoreArithmetic F)

/-- The order in which proposals are sorted: by score, then by age, then by machine. -/
def proposalLess (p q : Proposal F) : Bool :=
  if A.eq p.score q.score = false then A.lt q.score p.score
  else if p.timestamp ≠ q.timestamp then decide (p.timestamp < q.timestamp)
  else decide (p.nodeID < q.nodeID)

/-! ## The assignment -/

/-- The sum of the positive scores. -/
def scoreSum (props : List (Proposal F)) : F :=
  props.foldl (fun sum p => if A.lt A.zero p.score then A.add sum p.score else sum) A.zero

/-- What a machine gets of `total`, by its score. -/
def proportion (total : ℤ) (sum score : F) : F := A.mul (A.div score sum) (A.ofInt total)

/-- A machine and what its share lost by rounding. -/
structure Remainder (F : Type) where
  nodeID : String
  frac : F

/-- What the first pass of `assignReplicas` carries. -/
structure FirstPass (F : Type) where
  assign : Table String ℕ := ∅
  remaining : ℤ
  remainders : List (Remainder F) := []

/-- The loop body of the first pass. -/
def FirstPass.proposal (total : ℤ) (sum : F) (s : FirstPass F) (p : Proposal F) : FirstPass F :=
  let share := proportion A total sum p.score
  let base := A.toInt share
  let s := if 0 < base then
      { s with assign := s.assign.bump p.nodeID base.toNat, remaining := s.remaining - base }
    else s
  { s with remainders := s.remainders ++ [⟨p.nodeID, A.sub share (A.ofInt base)⟩] }

/-- One pass over the remainders, which stops when nothing remains. -/
def leftoverPass : List (Remainder F) → Table String ℕ × ℤ → Table String ℕ × ℤ
  | [], s => s
  | r :: remainders, (assign, remaining) =>
    if remaining = 0 then (assign, remaining)
    else leftoverPass remainders (assign.bump r.nodeID 1, remaining - 1)

/-- Passes over the remainders until nothing remains, if `fuel` of them are enough. -/
def leftovers (remainders : List (Remainder F)) :
    ℕ → Table String ℕ × ℤ → Option (Table String ℕ)
  | fuel, (assign, remaining) =>
    if 0 < remaining then
      match fuel with
      | 0 => none
      | fuel + 1 => leftovers remainders fuel (leftoverPass remainders (assign, remaining))
    else some assign

/-- `assignReplicas`. -/
def assignReplicas (sortStable : SliceSort) (total : ℤ) (props : List (Proposal F)) :
    Option (Table String ℕ) :=
  if total ≤ 0 then some ∅
  else
    let sum := scoreSum A props
    if A.le sum A.zero then
      -- No score says anything: one each, in the order of the proposals.
      some ((props.take total.toNat).foldl (fun assign p => assign.bump p.nodeID 1) ∅)
    else
      let s := props.foldl (FirstPass.proposal A total sum) { remaining := total }
      let remainders := sortStable.slice (fun r r' => A.lt r'.frac r.frac) s.remainders
      leftovers remainders s.remaining.toNat (s.assign, s.remaining)

/-! ## A round -/

/-- The options of a scheduler that a round reads, with what its functions return. -/
structure Options (F M : Type) where
  nodeID : String
  metricsProvider : M
  score : M → F
  now : ℤ

/-- What a round does to the outside. -/
inductive Call (F : Type)
  | publishProposal (p : Proposal F)
  | deployLocal (task : Task)
  | delegateTask (nodeID : String) (task : Task)

/-- `collect`, of what the round receives while it collects. -/
def collect (taskID : String) (received : List (Proposal F)) : List (Proposal F) :=
  received.filter fun p => p.taskID = taskID

/-- `upsertProposal`. -/
def upsertProposal : List (Proposal F) → Proposal F → List (Proposal F)
  | [], p => [p]
  | q :: list, p =>
    if q.nodeID = p.nodeID ∧ q.taskID = p.taskID then p :: list else q :: upsertProposal list p

/-- The proposal of a scheduler for a task. -/
def Options.selfProposal (opt : Options F M) (taskID : String) : Proposal F :=
  { taskID := taskID
    nodeID := opt.nodeID
    score := opt.score opt.metricsProvider
    timestamp := opt.now }

/-- What a round does about the share of one machine. -/
def execute (opt : Options F M) (task : Task) (e : Sigma fun _ : String => ℕ) : List (Call F) :=
  List.replicate e.2 (if e.1 = opt.nodeID then .deployLocal task else .delegateTask e.1 task)

/-- `DistributedSchedule`. -/
def distributedSchedule (sort sortStable : SliceSort) (opt : Options F M) (task : Task)
    (received : List (Proposal F)) : Option (List (Call F)) :=
  let task := if task.replicas ≤ 0 then { task with replicas := 1 } else task
  let selfProp := opt.selfProposal task.taskID
  let props := upsertProposal (collect task.taskID received) selfProp
  if props.isEmpty then some [.publishProposal selfProp, .deployLocal task]
  else
    let props := sort.slice (proposalLess A) props
    (assignReplicas A sortStable task.replicas props).map fun assignments =>
      .publishProposal selfProp :: assignments.entries.flatMap (execute opt task)

/-! ## All machines -/

/-- How many deployments a call brings. A delegated task is published with the machine for its
destination. -/
def Call.deployments (nodes : List (Options F M)) : Call F → ℕ
  | .publishProposal _ => 0
  | .deployLocal _ => 1
  | .delegateTask nodeID task => (nodes.map Options.nodeID).countP fun id =>
    onTask id { task with destination := nodeID } = .deploy

/-- The deployments that the rounds of all machines cause, if all of them end. -/
def clusterDeployments (sort sortStable : SliceSort) (nodes : List (Options F M)) (task : Task)
    (received : String → List (Proposal F)) : Option ℕ :=
  (nodes.mapM fun opt =>
    distributedSchedule A sort sortStable opt task (received opt.nodeID)).map fun rounds =>
      (rounds.flatten.map (Call.deployments nodes)).sum

/-- Every round collects one proposal of each machine, in some order. -/
def CollectAll (nodes : List (Options F M)) (taskID : String)
    (received : String → List (Proposal F)) : Prop :=
  ∀ opt ∈ nodes, (collect taskID (received opt.nodeID)).Perm
    (nodes.map fun opt => opt.selfProposal taskID)

/-- A task that is delegated to a machine is deployed once. -/
def DelegatesOnce (nodes : List (Options F M)) (task : Task) : Prop :=
  ∀ opt ∈ nodes, (Call.delegateTask (F := F) opt.nodeID task).deployments nodes = 1

/-- Machines with different plain names see to that. -/
theorem delegatesOnce_of_plainName {nodes : List (Options F M)}
    (hids : (nodes.map Options.nodeID).Nodup) (hplain : ∀ opt ∈ nodes, PlainName opt.nodeID)
    (task : Task) : DelegatesOnce nodes task := fun opt hopt =>
  countP_onTask hids (hplain opt hopt) (List.mem_map_of_mem hopt)

/-- The rounds spread the task without repeating it: no score is positive, so that every machine
hands out one replica to each of as many machines as there are replicas, and the machines make up
for that; or there is only one machine, whose share does not round up. -/
def SpreadsOnce (nodes : List (Options F M)) (replicas : ℤ) : Prop :=
  ((∀ opt ∈ nodes, A.lt A.zero (opt.score opt.metricsProvider) = false) ∧
      replicas = nodes.length ^ 2) ∨
    ∃ opt, nodes = [opt] ∧
      let score := opt.score opt.metricsProvider
      A.lt A.zero score = true ∧
        A.toInt (proportion A replicas (A.add A.zero score) score) ≤ replicas

/-! ## What one assignment hands out -/

/-- The table hands out `n` replicas, to machines of `ids`. -/
structure HandsOut (ids : List String) (assign : Table String ℕ) (n : ℕ) : Prop where
  total_eq : assign.total id = n
  within : ∀ nodeID ∈ assign, nodeID ∈ ids

namespace HandsOut

variable {ids : List String} {assign : Table String ℕ} {n : ℕ}

theorem empty : HandsOut ids ∅ 0 := ⟨rfl, fun _ h => absurd h (AList.notMem_empty _)⟩

theorem bump (h : HandsOut ids assign n) {nodeID : String} (hid : nodeID ∈ ids) (k : ℕ) :
    HandsOut ids (assign.bump nodeID k) (n + k) := by
  constructor
  · rw [AList.total_bump, h.total_eq]
  · intro id hmem
    rcases (AList.mem_insert _).mp hmem with rfl | hmem
    · exact hid
    · exact h.within id hmem

end HandsOut

variable {A}

/-- One each, in the order of the proposals. -/
theorem handsOut_first {ids : List String} {props : List (Proposal F)}
    (hids : ∀ p ∈ props, p.nodeID ∈ ids) {assign : Table String ℕ} {n : ℕ}
    (h : HandsOut ids assign n) :
    HandsOut ids (props.foldl (fun assign p => assign.bump p.nodeID 1) assign)
      (n + props.length) := by
  induction props generalizing assign n with
  | nil => exact h
  | cons p props ih =>
    have hnext := ih (fun q hq => hids q (List.mem_cons_of_mem p hq))
      (h.bump (hids p List.mem_cons_self) 1)
    rwa [Nat.add_assoc, Nat.add_comm 1] at hnext

/-- The whole replicas of all shares. -/
def floorTotal (A : ScoreArithmetic F) (total : ℤ) (sum : F) (props : List (Proposal F)) : ℕ :=
  (props.map fun p => (A.toInt (proportion A total sum p.score)).toNat).sum

theorem floorTotal_cons (total : ℤ) (sum : F) (p : Proposal F) (props : List (Proposal F)) :
    floorTotal A total sum (p :: props) =
      (A.toInt (proportion A total sum p.score)).toNat + floorTotal A total sum props :=
  List.sum_cons

/-- The first pass hands out the whole replicas, and keeps a remainder of each proposal. -/
theorem handsOut_firstPass {ids : List String} {props : List (Proposal F)}
    (hids : ∀ p ∈ props, p.nodeID ∈ ids) (total : ℤ) (sum : F) {s : FirstPass F} {n : ℕ}
    (h : HandsOut ids s.assign n) :
    let s' := props.foldl (FirstPass.proposal A total sum) s
    HandsOut ids s'.assign (n + floorTotal A total sum props) ∧
      s'.remaining = s.remaining - floorTotal A total sum props ∧
      s'.remainders.map Remainder.nodeID =
        s.remainders.map Remainder.nodeID ++ props.map Proposal.nodeID := by
  induction props generalizing s n with
  | nil => simpa [floorTotal] using h
  | cons p props ih =>
    have hp := hids p List.mem_cons_self
    have hrest : ∀ q ∈ props, q.nodeID ∈ ids := fun q hq => hids q (List.mem_cons_of_mem p hq)
    have hstep : HandsOut ids (s.proposal A total sum p).assign
          (n + (A.toInt (proportion A total sum p.score)).toNat) ∧
        (s.proposal A total sum p).remaining =
          s.remaining - (A.toInt (proportion A total sum p.score)).toNat ∧
        (s.proposal A total sum p).remainders.map Remainder.nodeID =
          s.remainders.map Remainder.nodeID ++ [p.nodeID] := by
      simp only [FirstPass.proposal]
      -- A share below one replica hands out nothing in this pass.
      split_ifs with hbase
      · exact ⟨h.bump hp _, by rw [Int.toNat_of_nonneg hbase.le], List.map_append⟩
      · rw [Int.toNat_of_nonpos (not_lt.mp hbase)]
        exact ⟨h, by simp, List.map_append⟩
    obtain ⟨hassign, hremaining, hremainders⟩ := hstep
    obtain ⟨hassign', hremaining', hremainders'⟩ := ih hrest hassign
    refine ⟨?_, ?_, ?_⟩
    · rwa [Nat.add_assoc, ← floorTotal_cons] at hassign'
    · rw [List.foldl_cons, hremaining', hremaining, floorTotal_cons]
      omega
    · rw [List.foldl_cons, hremainders', hremainders, List.append_assoc]
      rfl

/-- A pass hands out as many replicas as it takes from what remains, and at least one while there is
any. -/
theorem handsOut_leftoverPass {ids : List String} {remainders : List (Remainder F)}
    (hids : ∀ r ∈ remainders, r.nodeID ∈ ids) {assign : Table String ℕ} {n : ℕ} {remaining : ℤ}
    (hremaining : 0 ≤ remaining) (h : HandsOut ids assign n) :
    ∃ k : ℕ, HandsOut ids (leftoverPass remainders (assign, remaining)).1 (n + k) ∧
      (leftoverPass remainders (assign, remaining)).2 = remaining - k ∧ k ≤ remaining ∧
      (remainders ≠ [] → 0 < remaining → 0 < k) := by
  induction remainders generalizing assign n remaining with
  | nil => exact ⟨0, h, by simp [leftoverPass], hremaining, fun hne => absurd rfl hne⟩
  | cons r remainders ih =>
    unfold leftoverPass
    split_ifs with hzero
    · exact ⟨0, h, by simp, hremaining, fun _ hpos => absurd hzero hpos.ne'⟩
    · -- One replica for this remainder, and the rest of the pass.
      obtain ⟨k, hk, hleft, hle, -⟩ := ih (fun q hq => hids q (List.mem_cons_of_mem r hq))
        (by omega : 0 ≤ remaining - 1) (h.bump (hids r List.mem_cons_self) 1)
      refine ⟨1 + k, ?_, ?_, ?_, fun _ _ => by omega⟩
      · rwa [Nat.add_assoc] at hk
      · rw [hleft]
        push_cast
        omega
      · push_cast
        omega

/-- The passes end, and hand out all that remains. -/
theorem exists_leftovers {ids : List String} {remainders : List (Remainder F)}
    (hids : ∀ r ∈ remainders, r.nodeID ∈ ids) (hne : remainders ≠ []) {fuel : ℕ}
    {assign : Table String ℕ} {n : ℕ} {remaining : ℤ} (hfuel : remaining.toNat ≤ fuel)
    (h : HandsOut ids assign n) :
    ∃ t, leftovers remainders fuel (assign, remaining) = some t ∧
      HandsOut ids t (n + remaining.toNat) := by
  -- Each pass hands out one replica at least, so as many passes as there are replicas do.
  induction fuel generalizing assign n remaining with
  | zero =>
    have hnone : ¬ 0 < remaining := by omega
    refine ⟨assign, by rw [leftovers, if_neg hnone], ?_⟩
    rwa [Int.toNat_of_nonpos (not_lt.mp hnone)]
  | succ fuel ih =>
    by_cases hpos : 0 < remaining
    · obtain ⟨k, hk, hleft, hle, hprogress⟩ := handsOut_leftoverPass hids hpos.le h
      have hkpos := hprogress hne hpos
      have hless : (remaining - k).toNat ≤ fuel := by omega
      obtain ⟨t, ht, hout⟩ := ih hless hk
      refine ⟨t, ?_, ?_⟩
      · rw [leftovers, if_pos hpos, ← ht, ← hleft]
      · rwa [show n + k + (remaining - k).toNat = n + remaining.toNat by omega] at hout
    · refine ⟨assign, by rw [leftovers, if_neg hpos], ?_⟩
      rwa [Int.toNat_of_nonpos (not_lt.mp hpos)]

/-- How many replicas one assignment hands out. -/
def handedOut (A : ScoreArithmetic F) (total : ℤ) (props : List (Proposal F)) : ℕ :=
  let sum := scoreSum A props
  if A.le sum A.zero then min total.toNat props.length
  else max total.toNat (floorTotal A total sum props)

/-- **One assignment**: without a positive score, one replica for each proposal, up to the total;
else the total, or the whole replicas of all shares where these are more. -/
theorem exists_assignReplicas (sortStable : SliceSort) {total : ℤ} (htotal : 0 < total)
    {props : List (Proposal F)} (hprops : props ≠ []) :
    ∃ t, assignReplicas A sortStable total props = some t ∧
      HandsOut (props.map Proposal.nodeID) t (handedOut A total props) := by
  have hids : ∀ p ∈ props, p.nodeID ∈ props.map Proposal.nodeID := fun p hp =>
    List.mem_map_of_mem hp
  simp only [assignReplicas, if_neg (not_le.mpr htotal), handedOut]
  split_ifs with hsum
  · refine ⟨_, rfl, ?_⟩
    have htake : ∀ p ∈ props.take total.toNat, p.nodeID ∈ props.map Proposal.nodeID :=
      fun p hp => hids p (List.mem_of_mem_take hp)
    have h := handsOut_first htake HandsOut.empty
    rwa [Nat.zero_add, List.length_take] at h
  · obtain ⟨hassign, hremaining, hremainders⟩ := handsOut_firstPass (A := A) hids total
      (scoreSum A props) (s := { remaining := total }) HandsOut.empty
    generalize props.foldl (FirstPass.proposal A total (scoreSum A props))
      { remaining := total } = s at hassign hremaining hremainders
    have hperm := sortStable.perm (fun r r' => A.lt r'.frac r.frac) s.remainders
    have hsorted : ∀ r ∈ sortStable.slice (fun r r' => A.lt r'.frac r.frac) s.remainders,
        r.nodeID ∈ props.map Proposal.nodeID := by
      intro r hr
      have hmem := List.mem_map_of_mem (f := Remainder.nodeID) (hperm.mem_iff.mp hr)
      rwa [hremainders] at hmem
    have hne : sortStable.slice (fun r r' => A.lt r'.frac r.frac) s.remainders ≠ [] := by
      intro hnil
      rw [hnil] at hperm
      rw [List.nil_perm.mp hperm] at hremainders
      exact hprops (List.map_eq_nil_iff.mp hremainders.symm)
    obtain ⟨t, ht, hout⟩ := exists_leftovers hsorted hne le_rfl hassign
    have hsum : 0 + floorTotal A total (scoreSum A props) props + s.remaining.toNat =
        max total.toNat (floorTotal A total (scoreSum A props) props) := by
      rw [hremaining]
      dsimp only
      omega
    exact ⟨t, ht, hsum ▸ hout⟩

/-! ## What one round deploys -/

/-- What is in the list already stays there. -/
theorem upsertProposal_of_mem {list : List (Proposal F)} (hids : (list.map Proposal.nodeID).Nodup)
    {p : Proposal F} (hp : p ∈ list) : upsertProposal list p = list := by
  induction list with
  | nil => cases hp
  | cons q list ih =>
    rw [List.map_cons, List.nodup_cons] at hids
    unfold upsertProposal
    split_ifs with hsame
    · -- Another proposal of the same machine would come twice.
      rcases List.mem_cons.mp hp with rfl | hp
      · rfl
      · exact absurd (hsame.1 ▸ List.mem_map_of_mem hp) hids.1
    · rcases List.mem_cons.mp hp with rfl | hp
      · exact absurd ⟨rfl, rfl⟩ hsame
      · rw [ih hids.2 hp]

/-- The deployments of a table's execution: each replica brings one. -/
theorem deployments_execute (nodes : List (Options F M)) (opt : Options F M) {task : Task}
    (hdelegate : DelegatesOnce nodes task) {entries : List (Sigma fun _ : String => ℕ)}
    (hentries : ∀ e ∈ entries, e.1 ∈ nodes.map Options.nodeID) :
    ((entries.flatMap (execute (F := F) opt task)).map (Call.deployments nodes)).sum =
      (entries.map fun e => e.2).sum := by
  induction entries with
  | nil => rfl
  | cons e entries ih =>
    have hone : (if e.1 = opt.nodeID then Call.deployLocal task
        else Call.delegateTask (F := F) e.1 task).deployments nodes = 1 := by
      split_ifs
      · rfl
      · obtain ⟨node, hnode, hid⟩ := List.mem_map.mp (hentries e List.mem_cons_self)
        exact hid ▸ hdelegate node hnode
    rw [List.flatMap_cons, List.map_append, List.sum_append, execute, List.map_replicate, hone,
      List.sum_replicate_nat, Nat.mul_one, List.map_cons, List.sum_cons,
      ih fun e' he' => hentries e' (List.mem_cons_of_mem e he')]

/-- **One round** ends, and brings the deployments that its assignment of all proposals hands out,
in the order in which it sorts them. -/
theorem exists_distributedSchedule (sort sortStable : SliceSort) {nodes : List (Options F M)}
    {task : Task} {received : String → List (Proposal F)} (hreplicas : 1 ≤ task.replicas)
    (hids : (nodes.map Options.nodeID).Nodup) (hcollect : CollectAll nodes task.taskID received)
    (hdelegate : DelegatesOnce nodes task) {opt : Options F M} (hopt : opt ∈ nodes) :
    ∃ calls order, distributedSchedule A sort sortStable opt task (received opt.nodeID) =
        some calls ∧
      order.Perm (nodes.map fun opt => opt.selfProposal task.taskID) ∧
      (calls.map (Call.deployments nodes)).sum = handedOut A task.replicas order := by
  -- The round has its own proposal among those it collects, so that it adds none.
  have hperm := hcollect opt hopt
  have hnodeIDs : (nodes.map fun opt => opt.selfProposal task.taskID).map Proposal.nodeID =
      nodes.map Options.nodeID := List.map_map
  have hself : opt.selfProposal task.taskID ∈ collect task.taskID (received opt.nodeID) :=
    hperm.mem_iff.mpr (List.mem_map_of_mem hopt)
  have hupsert : upsertProposal (collect task.taskID (received opt.nodeID))
      (opt.selfProposal task.taskID) = collect task.taskID (received opt.nodeID) := by
    refine upsertProposal_of_mem ?_ hself
    rw [(hperm.map Proposal.nodeID).nodup_iff, hnodeIDs]
    exact hids
  have horder := (sort.perm (proposalLess A)
    (collect task.taskID (received opt.nodeID))).trans hperm
  have hne : sort.slice (proposalLess A) (collect task.taskID (received opt.nodeID)) ≠ [] := by
    intro hnil
    rw [hnil, List.nil_perm, List.map_eq_nil_iff] at horder
    rw [horder] at hopt
    cases hopt
  obtain ⟨t, ht, hout⟩ :=
    exists_assignReplicas (A := A) sortStable (Int.lt_of_lt_of_le Int.one_pos hreplicas) hne
  have hround : distributedSchedule A sort sortStable opt task (received opt.nodeID) =
      some (.publishProposal (opt.selfProposal task.taskID) ::
        t.entries.flatMap (execute opt task)) := by
    have hnonempty : ¬ (collect task.taskID (received opt.nodeID)).isEmpty = true :=
      fun h => List.ne_nil_of_mem hself (List.isEmpty_iff.mp h)
    simp only [distributedSchedule, if_neg (by omega : ¬ task.replicas ≤ 0), hupsert,
      if_neg hnonempty, ht, Option.map_some]
  refine ⟨_, _, hround, horder, ?_⟩
  rw [List.map_cons, List.sum_cons, deployments_execute nodes opt hdelegate, ← hout.total_eq]
  · exact Nat.zero_add _
  · intro e he
    have hmem := hout.within e.1 (AList.mem_keys.mpr (List.mem_map_of_mem he))
    rw [(horder.map Proposal.nodeID).mem_iff, hnodeIDs] at hmem
    exact hmem

/-! ## What all rounds deploy -/

/-- A sum of positive scores is positive, wherever it starts. -/
theorem lt_foldl_scores {s : F} (hs : s = A.zero ∨ A.lt A.zero s = true)
    {props : List (Proposal F)}
    (h : A.lt A.zero s = true ∨ ∃ p ∈ props, A.lt A.zero p.score = true) :
    A.lt A.zero (props.foldl
      (fun sum p => if A.lt A.zero p.score then A.add sum p.score else sum) s) = true := by
  induction props generalizing s with
  | nil => exact h.resolve_right fun ⟨p, hp, _⟩ => absurd hp List.not_mem_nil
  | cons p props ih =>
    rw [List.foldl_cons]
    by_cases hp : A.lt A.zero p.score = true
    · rw [if_pos hp]
      have hadd := A.add_pos s p.score hs hp
      exact ih (.inr hadd) (.inl hadd)
    · rw [if_neg hp]
      refine ih hs (h.imp_right ?_)
      rintro ⟨q, hq, hpos⟩
      rcases List.mem_cons.mp hq with rfl | hq
      · exact absurd hpos hp
      · exact ⟨q, hq, hpos⟩

/-- With a positive score, an assignment hands out all replicas or more. -/
theorem handedOut_of_pos {props : List (Proposal F)}
    (h : ∃ p ∈ props, A.lt A.zero p.score = true) (total : ℤ) :
    handedOut A total props =
      max total.toNat (floorTotal A total (scoreSum A props) props) := by
  have hsum : A.lt A.zero (scoreSum A props) = true := lt_foldl_scores (.inl rfl) (.inr h)
  rw [handedOut, A.not_le_zero _ hsum]
  rfl

/-- Without a positive score, it hands out one to each machine, up to the total. -/
theorem handedOut_of_not_pos {props : List (Proposal F)}
    (h : ∀ p ∈ props, A.lt A.zero p.score = false) (total : ℤ) :
    handedOut A total props = min total.toNat props.length := by
  have hsum : scoreSum A props = A.zero := by
    unfold scoreSum
    induction props with
    | nil => rfl
    | cons p props ih =>
      rw [List.foldl_cons, h p List.mem_cons_self, if_neg Bool.false_ne_true]
      exact ih fun q hq => h q (List.mem_cons_of_mem p hq)
  rw [handedOut, hsum, A.zero_le, if_pos rfl]

theorem mapM_eq_some {α β : Type} {f : α → Option β} {g : α → β} {l : List α}
    (h : ∀ a ∈ l, f a = some (g a)) : l.mapM f = some (l.map g) := by
  induction l with
  | nil => rfl
  | cons a l ih =>
    rw [List.mapM_cons, h a List.mem_cons_self, ih fun b hb => h b (List.mem_cons_of_mem a hb)]
    rfl

/-- The rounds of all machines end, and what they deploy adds up. -/
theorem exists_clusterDeployments (sort sortStable : SliceSort) {nodes : List (Options F M)}
    {task : Task} {received : String → List (Proposal F)} (hreplicas : 1 ≤ task.replicas)
    (hids : (nodes.map Options.nodeID).Nodup) (hcollect : CollectAll nodes task.taskID received)
    (hdelegate : DelegatesOnce nodes task) :
    ∃ order : Options F M → List (Proposal F),
      (∀ opt ∈ nodes, (order opt).Perm (nodes.map fun opt => opt.selfProposal task.taskID)) ∧
      clusterDeployments A sort sortStable nodes task received =
        some (nodes.map fun opt => handedOut A task.replicas (order opt)).sum := by
  have hrounds : ∀ opt ∈ nodes, ∃ calls order, _ := fun opt hopt =>
    exists_distributedSchedule (A := A) sort sortStable hreplicas hids hcollect hdelegate hopt
  choose! calls order hcalls horder hsum using hrounds
  refine ⟨order, horder, ?_⟩
  rw [clusterDeployments, mapM_eq_some hcalls, Option.map_some, List.map_flatten, List.sum_flatten,
    List.map_map, List.map_map]
  exact congrArg some (congrArg List.sum (List.map_congr_left hsum))

section Totals

variable {nodes : List (Options F M)} {taskID : String} {order : Options F M → List (Proposal F)}

/-- Without a positive score, each round hands out one replica to each of the first machines. -/
theorem sum_handedOut_of_not_pos
    (horder : ∀ opt ∈ nodes, (order opt).Perm (nodes.map fun opt => opt.selfProposal taskID))
    (h : ∀ opt ∈ nodes, A.lt A.zero (opt.score opt.metricsProvider) = false) (total : ℤ) :
    (nodes.map fun opt => handedOut A total (order opt)).sum =
      nodes.length * min total.toNat nodes.length := by
  have hround : ∀ opt ∈ nodes, handedOut A total (order opt) =
      min total.toNat nodes.length := by
    intro opt hopt
    have hscores : ∀ p ∈ order opt, A.lt A.zero p.score = false := by
      intro p hp
      obtain ⟨node, hnode, rfl⟩ := List.mem_map.mp ((horder opt hopt).mem_iff.mp hp)
      exact h node hnode
    rw [handedOut_of_not_pos hscores, (horder opt hopt).length_eq, List.length_map]
  rw [List.map_congr_left hround, List.map_const', List.sum_replicate_nat]

/-- With a positive score, each round hands out all replicas. -/
theorem le_sum_handedOut_of_pos
    (horder : ∀ opt ∈ nodes, (order opt).Perm (nodes.map fun opt => opt.selfProposal taskID))
    (h : ∃ opt ∈ nodes, A.lt A.zero (opt.score opt.metricsProvider) = true) (total : ℤ) :
    nodes.length * total.toNat ≤ (nodes.map fun opt => handedOut A total (order opt)).sum := by
  obtain ⟨node, hnode, hscore⟩ := h
  have hround : ∀ n ∈ nodes.map (fun opt => handedOut A total (order opt)), total.toNat ≤ n := by
    intro n hn
    obtain ⟨opt, hopt, rfl⟩ := List.mem_map.mp hn
    have hpos : ∃ p ∈ order opt, A.lt A.zero p.score = true :=
      ⟨node.selfProposal taskID, (horder opt hopt).mem_iff.mpr (List.mem_map_of_mem hnode), hscore⟩
    rw [handedOut_of_pos hpos]
    exact le_max_left _ _
  have hsum := List.card_nsmul_le_sum _ _ hround
  rwa [List.length_map] at hsum

/-- One machine alone hands out its share, and what that lacks. -/
theorem handedOut_single {opt : Options F M}
    (hscore : A.lt A.zero (opt.score opt.metricsProvider) = true) (total : ℤ) :
    handedOut A total [opt.selfProposal taskID] = max total.toNat
      (A.toInt (proportion A total (A.add A.zero (opt.score opt.metricsProvider))
        (opt.score opt.metricsProvider))).toNat := by
  have hsum : scoreSum A [opt.selfProposal taskID] =
      A.add A.zero (opt.score opt.metricsProvider) := if_pos hscore
  rw [handedOut_of_pos ⟨_, List.mem_singleton_self _, hscore⟩, hsum]
  rfl

end Totals

/-- As many as were asked for come of one each to the first machines only if there are as many as
the machines make up for. -/
theorem mul_min_eq_iff {n r : ℕ} (hn : 0 < n) (hr : 0 < r) : n * min r n = r ↔ r = n ^ 2 := by
  constructor
  · intro h
    rcases le_total r n with hle | hle
    · rw [min_eq_left hle] at h
      obtain rfl : n = 1 := Nat.eq_of_mul_eq_mul_right hr (h.trans (Nat.one_mul r).symm)
      rw [one_pow]
      exact le_antisymm hle hr
    · rw [min_eq_right hle] at h
      rw [← h, sq]
  · rintro rfl
    rw [min_eq_right (Nat.le_self_pow two_ne_zero n), sq]

/-- **All rounds together**: the rounds of all machines deploy as many replicas as the task asks
for only where they spread it without repeating it. -/
theorem clusterDeployments_iff (A : ScoreArithmetic F) (sort sortStable : SliceSort)
    {nodes : List (Options F M)} {task : Task} {received : String → List (Proposal F)}
    (hreplicas : 1 ≤ task.replicas) (hnodes : nodes ≠ [])
    (hids : (nodes.map Options.nodeID).Nodup)
    (hcollect : CollectAll nodes task.taskID received) (hdelegate : DelegatesOnce nodes task) :
    clusterDeployments A sort sortStable nodes task received = some task.replicas.toNat ↔
      SpreadsOnce A nodes task.replicas := by
  obtain ⟨order, horder, htotal⟩ :=
    exists_clusterDeployments (A := A) sort sortStable hreplicas hids hcollect hdelegate
  rw [htotal, Option.some.injEq]
  have hr : 0 < task.replicas.toNat := by omega
  have hn : 0 < nodes.length := List.length_pos_iff.mpr hnodes
  by_cases hpos : ∃ opt ∈ nodes, A.lt A.zero (opt.score opt.metricsProvider) = true
  · have hnot : ¬ ∀ opt ∈ nodes, A.lt A.zero (opt.score opt.metricsProvider) = false := by
      obtain ⟨opt, hopt, hscore⟩ := hpos
      exact fun h => Bool.false_ne_true ((h opt hopt).symm.trans hscore)
    rw [SpreadsOnce, or_iff_right fun h => hnot h.1]
    rcases Nat.lt_or_ge 1 nodes.length with hmany | hone
    · -- Two rounds already hand out too many.
      refine iff_of_false (fun h => ?_) ?_
      · have hle := le_sum_handedOut_of_pos horder hpos task.replicas
        rw [h] at hle
        exact absurd ((Nat.lt_mul_iff_one_lt_left hr).mpr hmany) (not_lt.mpr hle)
      · rintro ⟨opt, rfl, -⟩
        exact absurd hmany (lt_irrefl 1)
    · obtain ⟨opt, rfl⟩ := List.length_eq_one_iff.mp (le_antisymm hone hn)
      obtain ⟨_, hopt, hscore⟩ := hpos
      obtain rfl := List.mem_singleton.mp hopt
      have hself := List.perm_singleton.mp (horder _ List.mem_cons_self)
      rw [List.map_singleton, List.sum_singleton, hself, handedOut_single hscore]
      constructor
      · intro h
        exact ⟨_, rfl, hscore, by omega⟩
      · rintro ⟨opt, heq, -, hshare⟩
        obtain rfl := (List.cons.inj heq).1
        omega
  · -- Without a positive score the rounds agree on how many, if not on which.
    have hnone : ∀ opt ∈ nodes, A.lt A.zero (opt.score opt.metricsProvider) = false :=
      fun opt hopt => Bool.eq_false_iff.mpr fun h => hpos ⟨opt, hopt, h⟩
    rw [sum_handedOut_of_not_pos horder hnone, mul_min_eq_iff hn hr, SpreadsOnce,
      and_iff_right hnone, or_iff_left, ← Nat.cast_pow]
    · omega
    · rintro ⟨opt, rfl, hscore, -⟩
      exact hpos ⟨opt, List.mem_cons_self, hscore⟩

/-! ## Exact scores -/

/-- Scores without rounding. -/
def exactScores : ScoreArithmetic ℚ where
  zero := 0
  add x y := x + y
  sub x y := x - y
  mul x y := x * y
  div x y := x / y
  ofInt n := n
  toInt x := x.num.tdiv x.den
  lt x y := decide (x < y)
  le x y := decide (x ≤ y)
  eq x y := decide (x = y)
  zero_le := decide_eq_true le_rfl
  not_le_zero _ h := decide_eq_false (not_le.mpr (of_decide_eq_true h))
  add_pos _ _ hs hx := by
    have hx := of_decide_eq_true hx
    refine decide_eq_true ?_
    rcases hs with rfl | hs
    · rwa [zero_add]
    · exact add_pos (of_decide_eq_true hs) hx

/-- Sorting by insertion. -/
def insertionSlice : SliceSort where
  slice less l := l.insertionSort fun a b => less b a = false
  perm _ l := l.perm_insertionSort _

/-- A machine with this score. -/
def scored (nodeID : String) (score : ℚ) : Options ℚ Unit := ⟨nodeID, (), fun _ => score, 0⟩

def onePod : Task := { taskID := "t", replicas := 1 }

def threePods : Task := { taskID := "t", replicas := 3 }

/-- Where every machine hears all. -/
def allProposals (nodes : List (Options ℚ Unit)) (_nodeID : String) : List (Proposal ℚ) :=
  nodes.map fun opt => opt.selfProposal "t"

theorem collectAll_allProposals (nodes : List (Options ℚ Unit)) :
    CollectAll nodes "t" (allProposals nodes) := by
  intro opt _
  rw [collect, allProposals, List.filter_eq_self.mpr]
  intro p hp
  obtain ⟨node, -, rfl⟩ := List.mem_map.mp hp
  exact decide_eq_true rfl

/-- One machine deploys all three replicas. -/
theorem clusterDeployments_single :
    clusterDeployments exactScores insertionSlice insertionSlice [scored "a" 2] threePods
      (allProposals [scored "a" 2]) = some 3 := by
  have hids : ([scored "a" 2].map Options.nodeID).Nodup := by decide
  have hdelegate : DelegatesOnce [scored "a" 2] threePods := by
    refine delegatesOnce_of_plainName hids (fun opt hopt => ?_) threePods
    obtain rfl := List.mem_singleton.mp hopt
    exact ⟨by decide, by decide, by decide⟩
  have hspread : SpreadsOnce exactScores [scored "a" 2] 3 :=
    .inr ⟨scored "a" 2, rfl, by decide +kernel, by decide +kernel⟩
  exact (clusterDeployments_iff exactScores insertionSlice insertionSlice (by decide)
    (List.cons_ne_nil _ _) hids (collectAll_allProposals _) hdelegate).mpr hspread

/-- Two machines deploy one replica each, where one was asked for: each of them hands it to the
first, which deploys its own and what the other delegates. -/
theorem clusterDeployments_pair :
    let nodes := [scored "a" 1, scored "b" 1]
    (nodes.map Options.nodeID).Nodup ∧ CollectAll nodes "t" (allProposals nodes) ∧
      DelegatesOnce nodes onePod ∧
      clusterDeployments exactScores insertionSlice insertionSlice nodes onePod
        (allProposals nodes) = some 2 := by
  intro nodes
  have hids : (nodes.map Options.nodeID).Nodup := by decide
  have hplain : ∀ opt ∈ nodes, PlainName opt.nodeID := by
    intro opt hopt
    rcases List.mem_pair.mp hopt with rfl | rfl
    · exact ⟨by decide, by decide, by decide⟩
    · exact ⟨by decide, by decide, by decide⟩
  exact ⟨hids, collectAll_allProposals _, delegatesOnce_of_plainName hids hplain onePod,
    by decide +kernel⟩

end Beemesh.Workplane
