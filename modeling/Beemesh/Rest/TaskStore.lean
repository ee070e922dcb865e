import Beemesh.Envelope.Reference
import Beemesh.Lib.Run
import Beemesh.Protocol.ManifestId

/-!
# The tasks of the REST interface

`create_task` keeps a task under its manifest id, and the manifest id under the id of the operation.
The status of a task has the manifest id of its record; the other answer about it goes through the
operation, of which a client chooses the id. Where two manifests come with one operation, the later
one is what both tasks are said to be about.

## Main definitions

* `TaskRecord`, `TaskStore`: the tasks, the manifests of the operations, and the calls on their way
* `TaskStore.step`: the calls of `create_task`, each in two steps
* `getTaskManifestId`, `getTaskStatus`: what is said about a task
* `TaskStore.Agrees`: both say what is in the record
* `TaskStore.OneManifest`: a step that leaves the operations of the stored tasks their manifests

## Main results

* `agrees_iff_oneManifest`: the runs of `create_task` in which all answers agree
* `operation_with_two_manifests`: a run in which they do not
-/

namespace Beemesh

open Outcome

structure TaskRecord where
  manifestBytes : Bytes
  createdAt : ℕ
  sharesDistributed : Table String Bool := ∅
  manifestsDistributed : Table String String := ∅
  assignedPeers : Option (List String) := none
  manifestCid : Option String
  lastOperationId : Option String
  ownerPubkey : Bytes

/-- A call of `create_task` whose ids are computed, and whose record is not stored yet. -/
structure TaskCreation where
  manifestId : String
  operationId : String
  payload : Bytes
  ownerPubkey : Bytes

/-- The bytes of a manifest that `create_task` stores: a blob is put into an envelope. -/
def manifestBytesToStore (P : Platform) (payload envelopeNonce : Bytes) (ts : U64) : Bytes :=
  if payload.head? = some 0x02 then
    P.buildEnvelopeCanonical payload "manifest" (P.base64Encode envelopeNonce) ts "ml-kem-512" none
  else payload

/-- The record of a call. -/
def TaskCreation.record (P : Platform) (c : TaskCreation) (envelopeNonce : Bytes) (ts : U64)
    (createdAt : ℕ) : TaskRecord where
  manifestBytes := manifestBytesToStore P c.payload envelopeNonce ts
  createdAt := createdAt
  manifestCid := some c.manifestId
  lastOperationId := some c.operationId
  ownerPubkey := c.ownerPubkey

/-- `task_store`, `OPERATION_MANIFEST_MAPPING`, and the calls of `create_task` by number. -/
structure TaskStore where
  tasks : Table String TaskRecord := ∅
  operationManifests : Table String String := ∅
  creating : Table ℕ TaskCreation := ∅

/-- `TaskStatusResponse`. -/
structure TaskStatusResponse where
  taskId : String
  state : String
  assignedPeers : List String
  sharesDistributed : List String
  manifestCid : Option String
  deriving DecidableEq

namespace TaskStore

/-! ## The answers -/

/-- What is said about a task that there is not. -/
def errorResponse : TaskStatusResponse := ⟨"", "Error", [], [], none⟩

/-- `get_manifest_cid_for_operation`. -/
def getManifestCidForOperation (s : TaskStore) (operationId : String) : Option String :=
  s.operationManifests.lookup operationId

/-- `store_operation_manifest_mapping`. -/
def storeOperationManifestMapping (s : TaskStore) (operationId manifestCid : String) : TaskStore :=
  { s with operationManifests := s.operationManifests.insert operationId manifestCid }

/-- `get_task_manifest_id`. An error is answered with a status. -/
def getTaskManifestId (s : TaskStore) (taskId : String) : Except TaskStatusResponse String :=
  match s.tasks.lookup taskId with
  | none => .error errorResponse
  | some task =>
    match task.lastOperationId with
    | none => .error errorResponse
    | some operationId =>
      match s.getManifestCidForOperation operationId with
      | some cid => .ok cid
      | none =>
        match task.manifestCid with
        | some cid => .ok cid
        | none => .error errorResponse

/-- `get_task_status`. -/
def getTaskStatus (s : TaskStore) (taskId : String) : TaskStatusResponse :=
  match s.tasks.lookup taskId with
  | some r =>
    { taskId := taskId
      state := "Pending"
      assignedPeers := r.assignedPeers.getD []
      sharesDistributed := (r.sharesDistributed.retain fun _ delivered => delivered).keys
      manifestCid := r.manifestCid }
  | none => errorResponse

/-- Both answers about a task are the manifest id in its record. -/
def Agrees (s : TaskStore) : Prop :=
  ∀ taskId r, s.tasks.lookup taskId = some r →
    ∃ cid, r.manifestCid = some cid ∧ s.getTaskManifestId taskId = .ok cid ∧
      (s.getTaskStatus taskId).manifestCid = some cid

/-! ## The calls -/

/-- The steps of the calls. Two calls do not have the same number. -/
inductive Action
  /-- A call computes its ids, and stores the manifest id of the operation. -/
  | create (call : ℕ) (uuid : String) (params : Table String String) (ownerPubkey body : Bytes)
  /-- It stores the record. -/
  | store (call : ℕ) (envelopeNonce : Bytes) (ts : U64) (createdAt : ℕ)

variable (P : Platform) (finish : List Hashed → U64)

/-- A call that panics while it computes its ids has stored nothing. -/
def step (s : TaskStore) : Action → TaskStore
  | .create call uuid params ownerPubkey body =>
    if call ∈ s.creating then s
    else
      match createTaskIds finish uuid params body with
      | .ok (manifestId, operationId) =>
        { s.storeOperationManifestMapping operationId manifestId with
          creating := s.creating.insert call ⟨manifestId, operationId, body, ownerPubkey⟩ }
      | _ => s
  | .store call envelopeNonce ts createdAt =>
    match s.creating.lookup call with
    | some c =>
      { s with
        tasks := s.tasks.insert c.manifestId (c.record P envelopeNonce ts createdAt)
        creating := s.creating.erase call }
    | none => s

/-- A step that leaves the operations of the stored tasks their manifests: no other manifest comes
with the operation of a stored task, or with that of a task before its record is stored. -/
def OneManifest (s : TaskStore) : Action → Prop
  | .create call uuid params _ body =>
    call ∈ s.creating ∨ ∀ manifestId operationId,
      createTaskIds finish uuid params body = ok (manifestId, operationId) →
        ∀ taskId r, s.tasks.lookup taskId = some r → r.lastOperationId = some operationId →
          taskId = manifestId
  | .store call _ _ _ =>
    ∀ c, s.creating.lookup call = some c →
      s.operationManifests.lookup c.operationId = some c.manifestId

/-! ## What the steps do -/

section Steps

variable {P finish} {s : TaskStore} {call : ℕ}

theorem step_create {uuid manifestId operationId : String} {params : Table String String}
    {ownerPubkey body : Bytes} (hcall : call ∉ s.creating)
    (hids : createTaskIds finish uuid params body = ok (manifestId, operationId)) :
    s.step P finish (.create call uuid params ownerPubkey body) =
      { s.storeOperationManifestMapping operationId manifestId with
        creating := s.creating.insert call ⟨manifestId, operationId, body, ownerPubkey⟩ } := by
  rw [step, if_neg hcall, hids]

theorem step_store {c : TaskCreation} (hc : s.creating.lookup call = some c)
    (envelopeNonce : Bytes) (ts : U64) (createdAt : ℕ) :
    s.step P finish (.store call envelopeNonce ts createdAt) =
      { s with
        tasks := s.tasks.insert c.manifestId (c.record P envelopeNonce ts createdAt)
        creating := s.creating.erase call } := by
  rw [step, hc]

variable (P finish) in
/-- A step does nothing, or it is one of a call with its ids. -/
theorem step_cases (s : TaskStore) (a : Action) :
    s.step P finish a = s ∨
      (∃ call uuid params ownerPubkey body manifestId operationId,
        a = .create call uuid params ownerPubkey body ∧ call ∉ s.creating ∧
          createTaskIds finish uuid params body = ok (manifestId, operationId)) ∨
      ∃ call envelopeNonce ts createdAt c,
        a = .store call envelopeNonce ts createdAt ∧ s.creating.lookup call = some c := by
  cases a with
  | create call uuid params ownerPubkey body =>
    by_cases hcall : call ∈ s.creating
    · exact .inl (by rw [step, if_pos hcall])
    · cases hids : createTaskIds finish uuid params body with
      | ok ids => exact .inr (.inl ⟨_, _, _, _, _, ids.1, ids.2, rfl, hcall, hids⟩)
      | err e => exact .inl (by rw [step, if_neg hcall, hids])
      | panic => exact .inl (by rw [step, if_neg hcall, hids])
  | store call envelopeNonce ts createdAt =>
    cases hc : s.creating.lookup call with
    | some c => exact .inr (.inr ⟨_, _, _, _, c, rfl, hc⟩)
    | none => exact .inl (by rw [step, hc])

end Steps

/-! ## The invariant -/

/-- The operation of a task has the manifest id of the task, which is its key; that of a call has
some manifest id. -/
structure Consistent (s : TaskStore) : Prop where
  tasks : ∀ taskId r, s.tasks.lookup taskId = some r → r.manifestCid = some taskId ∧
    ∃ operationId, r.lastOperationId = some operationId ∧
      s.operationManifests.lookup operationId = some taskId
  creating : ∀ call c, s.creating.lookup call = some c → c.operationId ∈ s.operationManifests

theorem consistent_start : Consistent {} where
  tasks _ _ h := by cases h
  creating _ _ h := by cases h

section Invariant

variable {P finish} {s : TaskStore}

/-- What is said about a task is what its operation has. -/
theorem getTaskManifestId_of_operation {taskId operationId cid : String} {r : TaskRecord}
    (hr : s.tasks.lookup taskId = some r) (hoperation : r.lastOperationId = some operationId)
    (hcid : s.operationManifests.lookup operationId = some cid) :
    s.getTaskManifestId taskId = .ok cid := by
  simp only [getTaskManifestId, hr, hoperation, getManifestCidForOperation, hcid]

theorem getTaskStatus_manifestCid {taskId : String} {r : TaskRecord}
    (hr : s.tasks.lookup taskId = some r) : (s.getTaskStatus taskId).manifestCid = r.manifestCid := by
  simp only [getTaskStatus, hr]

/-- Where the tasks and their operations are consistent, the answers agree. -/
theorem Consistent.agrees (h : s.Consistent) : s.Agrees := by
  intro taskId r hr
  obtain ⟨hcid, operationId, hoperation, hmanifest⟩ := h.tasks taskId r hr
  refine ⟨taskId, hcid, getTaskManifestId_of_operation hr hoperation hmanifest, ?_⟩
  rw [getTaskStatus_manifestCid hr, hcid]

/-- Where the operation of a task has another manifest id, the answers do not agree. -/
theorem not_agrees {taskId operationId cid : String} {r : TaskRecord}
    (hr : s.tasks.lookup taskId = some r) (hself : r.manifestCid = some taskId)
    (hoperation : r.lastOperationId = some operationId)
    (hcid : s.operationManifests.lookup operationId = some cid) (hne : taskId ≠ cid) :
    ¬ s.Agrees := by
  intro h
  obtain ⟨cid', hself', hanswer, -⟩ := h taskId r hr
  rw [getTaskManifestId_of_operation hr hoperation hcid, Except.ok.injEq] at hanswer
  rw [hself, Option.some.injEq] at hself'
  exact hne (hself'.trans hanswer.symm)

theorem Consistent.step (h : s.Consistent) {a : Action} (hguard : s.OneManifest finish a) :
    (s.step P finish a).Consistent := by
  obtain hsame | ⟨call, uuid, params, ownerPubkey, body, manifestId, operationId, rfl, hcall, hids⟩ |
    ⟨call, envelopeNonce, ts, createdAt, c, rfl, hc⟩ := step_cases P finish s a
  · rwa [hsame]
  · -- The tasks of the operation are of the manifest that it gets.
    have hone := (hguard.resolve_left hcall) manifestId operationId hids
    rw [step_create hcall hids]
    refine ⟨fun taskId r hr => ?_, fun call' c' hc' => ?_⟩
    · obtain ⟨hself, operationId', hoperation, hmanifest⟩ := h.tasks taskId r hr
      refine ⟨hself, operationId', hoperation, ?_⟩
      by_cases heq : operationId' = operationId
      · rw [heq] at hoperation
        rw [heq, hone taskId r hr hoperation]
        exact AList.lookup_insert _
      · exact (AList.lookup_insert_ne heq).trans hmanifest
    · by_cases heq : call' = call
      · rw [heq, AList.lookup_insert, Option.some.injEq] at hc'
        rw [← hc']
        exact AList.mem_insert _ |>.mpr (.inl rfl)
      · rw [AList.lookup_insert_ne heq] at hc'
        exact AList.mem_insert _ |>.mpr (.inr (h.creating call' c' hc'))
  · -- The operation has kept the manifest of the call until its record is stored.
    rw [step_store hc]
    refine ⟨fun taskId r hr => ?_, fun call' c' hc' => ?_⟩
    · by_cases heq : taskId = c.manifestId
      · rw [heq, AList.lookup_insert, Option.some.injEq] at hr
        rw [← hr, heq]
        exact ⟨rfl, c.operationId, rfl, hguard c hc⟩
      · rw [AList.lookup_insert_ne heq] at hr
        exact h.tasks taskId r hr
    · exact h.creating call' c' (AList.lookup_of_lookup_erase hc')

/-- After any other step the answers do not agree. -/
theorem Consistent.not_agrees_step (h : s.Consistent) {a : Action}
    (hguard : ¬ s.OneManifest finish a) : ¬ (s.step P finish a).Agrees := by
  cases a with
  | create call uuid params ownerPubkey body =>
    simp only [OneManifest, not_or, not_forall] at hguard
    -- A stored task of the operation is of another manifest.
    obtain ⟨hcall, manifestId, operationId, hids, taskId, r, hr, hoperation, hne⟩ := hguard
    rw [step_create hcall hids]
    exact not_agrees hr (h.tasks taskId r hr).1 hoperation (AList.lookup_insert _) hne
  | store call envelopeNonce ts createdAt =>
    simp only [OneManifest, not_forall] at hguard
    -- The operation has been given another manifest since the call.
    obtain ⟨c, hc, hother⟩ := hguard
    obtain ⟨cid, hcid⟩ := Option.isSome_iff_exists.mp (AList.lookup_isSome.mpr (h.creating call c hc))
    rw [step_store hc]
    refine not_agrees (AList.lookup_insert _) rfl rfl hcid ?_
    rintro rfl
    exact hother hcid

end Invariant

/-! ## Runs -/

/-- **The runs in which all answers agree**: those in which no operation of a task comes with
another manifest. -/
theorem agrees_iff_oneManifest (acts : List Action) :
    Run.Always (step P finish) Agrees {} acts ↔
      Run.Guarded (step P finish) (OneManifest finish) {} acts := by
  have hp (s : TaskStore) : s.Consistent → s.Agrees := Consistent.agrees
  have hstep (s : TaskStore) (a : Action) : s.Consistent → s.OneManifest finish a →
      (s.step P finish a).Consistent := fun h => h.step
  have hbreak (s : TaskStore) (a : Action) (_ : True) : s.Consistent → ¬ s.OneManifest finish a →
      ¬ (s.step P finish a).Agrees := fun h => h.not_agrees_step
  exact Run.always_iff_guarded hp hstep hbreak (fun _ _ => trivial) consistent_start

/-- The parameters of a call that has both ids. -/
def bothIds (manifestId operationId : String) : Table String String :=
  (AList.singleton "operation_id" operationId).insert "manifest_id" manifestId

/-- **An operation with two manifests**: the first task is said to be the second manifest. -/
theorem operation_with_two_manifests :
    ¬ ∀ (P : Platform) (finish : List Hashed → U64) (acts : List Action),
      Run.Always (step P finish) Agrees {} acts := by
  intro h
  let acts : List Action := [.create 0 "uuid" (bothIds "a" "op") [] [1], .store 0 [] 0 0,
    .create 1 "uuid" (bothIds "b" "op") [] [1], .store 1 [] 0 0]
  have hagrees := (h (referencePlatform fun _ _ => true) (fun _ => 0) acts).last
  obtain ⟨cid, hcid, hanswer, -⟩ := hagrees "a" ⟨[1], 0, ∅, ∅, none, some "a", some "op", []⟩ rfl
  have hother : some "b" = some cid := congrArg Except.toOption hanswer
  rw [← hcid] at hother
  exact absurd hother (by decide)

end TaskStore

end Beemesh
