import Mathlib.Data.Int.Notation
import Mathlib.Data.List.Nodup

/-!
# Tasks on the mesh

A task travels on one topic to every machine. Where it is meant to go is a text in it, which each
machine compares with its own name: a machine that is called as the task's destination deploys it,
and so does every machine where the destination is left open.

## Main definitions

* `Task`: what is published
* `onTask`: what the task listener of a machine does with a task

## Main results

* `onTask_delegated`, `countP_onTask`: a task with the name of a machine for its destination is
  deployed by that machine, and by no other
-/

namespace Beemesh.Workplane

/-- `Task`. Its free-form specification is left out: nothing sets or reads it. -/
structure Task where
  taskID : String
  kind : String := ""
  name : String := ""
  manifest : String := ""
  destination : String := ""
  cloneRequest : Bool := false
  replicas : ℤ
  namespaceName : String := ""
  deriving DecidableEq

/-- What a task listener does with a task. -/
inductive Handling
  /-- A scheduling round, in a goroutine of its own. -/
  | schedule
  | deploy
  | ignore
  deriving DecidableEq

/-- The task listener of the machine `nodeID`. -/
def onTask (nodeID : String) (task : Task) : Handling :=
  if task.destination = "scheduler" then .schedule
  else if task.destination = "" ∨ task.destination = "all" ∨ task.destination = nodeID then .deploy
  else .ignore

/-- A name that is no destination of its own. -/
def PlainName (nodeID : String) : Prop :=
  nodeID ≠ "scheduler" ∧ nodeID ≠ "" ∧ nodeID ≠ "all"

/-- A task for one machine, at any machine. -/
theorem onTask_delegated {task : Task} {nodeID : String} (hplain : PlainName task.destination) :
    onTask nodeID task = .deploy ↔ nodeID = task.destination := by
  rw [onTask, if_neg hplain.1]
  constructor
  · intro h
    by_contra hne
    rw [if_neg (by simp [hplain.2.1, hplain.2.2, Ne.symm hne])] at h
    cases h
  · rintro rfl
    rw [if_pos (.inr (.inr rfl))]

/-- Of machines with different names, one deploys a task for it. -/
theorem countP_onTask {ids : List String} (hids : ids.Nodup) {task : Task}
    (hplain : PlainName task.destination) (hmem : task.destination ∈ ids) :
    ids.countP (fun id => onTask id task = .deploy) = 1 := by
  have hcount : ids.countP (fun id => onTask id task = .deploy) = ids.count task.destination := by
    refine List.countP_congr fun id _ => ?_
    rw [decide_eq_true_eq, onTask_delegated hplain, beq_iff_eq]
  rw [hcount, List.count_eq_one_of_mem hids hmem]

end Beemesh.Workplane
